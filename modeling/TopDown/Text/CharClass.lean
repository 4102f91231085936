import TopDown.Text.Table.IdentifierContinue
import TopDown.Text.Table.IdentifierStart
import TopDown.Text.Table.Lowercase
import TopDown.Text.Table.Printable
import TopDown.Text.Table.Uppercase

/-
  Classes of characters. A class is kept as the ascending list of code points at which membership
  changes; `withinRuns` reads it. The classes below 128 that the scanners meet at every character
  are decided by the ASCII rules of core, so a fact about an ASCII character never touches a table.
-/

namespace TopDown.Text

/-- Membership in a class given by its boundaries: `n` belongs to it when an odd number of
boundaries lie at or below `n`. -/
def withinRuns : List Nat → Nat → Bool
  | [], _ => false
  | b :: rest, n => if n < b then false else !withinRuns rest n

/-- A character that may begin an identifier; the underscore is not one of them. -/
def isIdentifierStart (c : Char) : Bool :=
  if c.toNat < 128 then c.isAlpha else withinRuns Table.identifierStart c.toNat

/-- A character that may stand inside an identifier. -/
def isIdentifierContinue (c : Char) : Bool :=
  if c.toNat < 128 then c.isAlphanum || c == '_' else withinRuns Table.identifierContinue c.toNat

/-- A character that a quoted text shows as itself. -/
def isPrintable (c : Char) : Bool :=
  if c.toNat < 128 then 32 ≤ c.toNat && c.toNat < 127 else withinRuns Table.printable c.toNat

def isUppercase (c : Char) : Bool :=
  if c.toNat < 128 then c.isUpper else withinRuns Table.uppercase c.toNat

def isLowercase (c : Char) : Bool :=
  if c.toNat < 128 then c.isLower else withinRuns Table.lowercase c.toNat

/-- Boundaries of the title-case characters. -/
def titlecaseRuns : List Nat :=
  [0x01C5, 0x01C6, 0x01C8, 0x01C9, 0x01CB, 0x01CC, 0x01F2, 0x01F3, 0x1F88, 0x1F90,
   0x1F98, 0x1FA0, 0x1FA8, 0x1FB0, 0x1FBC, 0x1FBD, 0x1FCC, 0x1FCD, 0x1FFC, 0x1FFD]

def isTitlecase (c : Char) : Bool :=
  withinRuns titlecaseRuns c.toNat

/-- A text is upper case when some character is upper case and none is lower or title case.
Digits, underscores and letters without case do not count either way. -/
def isUpperText (s : String) : Bool :=
  s.toList.any isUppercase && s.toList.all fun c => !isLowercase c && !isTitlecase c

end TopDown.Text
