import TopDown.Token.Kind

/-
  Grammar symbols and alternatives. A symbol is a terminal, given by its token kind, or a
  nonterminal, given by its name. An alternative is a list of symbols; the empty one derives the
  empty word and is shown as `ε`.
-/

namespace TopDown

inductive Symbol where
  | terminal (kind : Kind)
  | nonterminal (name : String)
  deriving DecidableEq

namespace Symbol

def text : Symbol → String
  | terminal kind => kind.spelling
  | nonterminal name => name

def kind? : Symbol → Option Kind
  | terminal kind => some kind
  | nonterminal _ => none

def name? : Symbol → Option String
  | terminal _ => none
  | nonterminal name => some name

end Symbol

abbrev Alternative := List Symbol

namespace Alternative

def text (alt : Alternative) : String :=
  if alt.isEmpty then "ε" else " ".intercalate (alt.map Symbol.text)

/-- Several alternatives with bars between them. -/
def listText (alts : List Alternative) : String :=
  " | ".intercalate (alts.map text)

/-- Does the alternative begin with the nonterminal `name`? -/
def startsWith (name : String) (alt : Alternative) : Bool :=
  alt.head? == some (.nonterminal name)

/-- The alternatives `γ rest` that arise when the leading symbol of an alternative is replaced by
each of the alternatives `γ` of its nonterminal. -/
def splice (replacements : List Alternative) (rest : Alternative) : List Alternative :=
  replacements.map (· ++ rest)

/-- Keeps the first occurrence of every alternative. -/
def distinct : List Alternative → List Alternative
  | [] => []
  | alt :: rest => alt :: (distinct rest).filter (· ≠ alt)

end Alternative

end TopDown
