import TopDown.Text.CharClass

/-
  Quoted text, as messages and listings show it. A text stands between single quotes, or between
  double quotes when it holds a single quote and no double quote. The quote in use, the backslash
  and the three usual control characters get a backslash; any other character that cannot be shown
  is written by its code point in two, four or eight hexadecimal digits.
-/

namespace TopDown.Text

/-- At least `width` hexadecimal digits of `n`, in lower case. -/
def hexDigits (width n : Nat) : List Char :=
  (Nat.toDigits 16 n).leftpad width '0'

/-- The form of one character between quotes of the given sort. -/
def escapeChar (quoteMark c : Char) : List Char :=
  if c = quoteMark ∨ c = '\\' then ['\\', c]
  else if c = '\n' then ['\\', 'n']
  else if c = '\r' then ['\\', 'r']
  else if c = '\t' then ['\\', 't']
  else if isPrintable c then [c]
  else if c.toNat < 0x100 then '\\' :: 'x' :: hexDigits 2 c.toNat
  else if c.toNat < 0x10000 then '\\' :: 'u' :: hexDigits 4 c.toNat
  else '\\' :: 'U' :: hexDigits 8 c.toNat

/-- The sort of quote a text is written with. -/
def quoteMark (cs : List Char) : Char :=
  if '\'' ∈ cs ∧ '"' ∉ cs then '"' else '\''

def quoteChars (cs : List Char) : List Char :=
  let mark := quoteMark cs
  mark :: cs.flatMap (escapeChar mark) ++ [mark]

/-- A text between quotes, every character of it visible. -/
def quote (s : String) : String :=
  String.ofList (quoteChars s.toList)

/-- A text that may be absent; an absent one is shown without quotes. -/
def quoteOption : Option String → String
  | none => "None"
  | some s => quote s

end TopDown.Text
