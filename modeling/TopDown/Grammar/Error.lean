import TopDown.Grammar.Conflict
import TopDown.Grammar.Description.Fault

/-
  Why a grammar cannot be read, changed, transformed or given to a parser.
-/

namespace TopDown

inductive GrammarError where
  | malformed (error : Description.Error)
  /-- A frozen grammar cannot be changed. -/
  | frozen
  | noStart
  /-- A nonterminal without alternatives; `user` is the nonterminal that refers to it. -/
  | undefined (name : String) (user : Option String)
  /-- Every alternative of the nonterminal begins with the nonterminal itself. -/
  | unfixable (name : String)
  | conflicting (conflicts : List Conflict)
  /-- Leading references can be spliced away without end. -/
  | endlessExpansion
  /-- No names are made for this sort of origin. -/
  | unknownOrigin (label : String)
  /-- Something that is no grammar symbol stands in an alternative. -/
  | unusableSymbol (shown : String)
  deriving DecidableEq

namespace GrammarError

def message : GrammarError → String
  | malformed error => error.message
  | frozen => "grammar is frozen; use copy() to derive a new one"
  | noStart => "grammar has no start symbol"
  | undefined name none => "undefined nonterminal '" ++ name ++ "'"
  | undefined name (some user) =>
    "undefined nonterminal '" ++ name ++ "' (referenced by '" ++ user ++ "')"
  | unfixable name =>
    "left recursion on '" ++ name ++ "' cannot be eliminated: no alternative of '" ++ name
      ++ "' starts with anything but '" ++ name ++ "'"
  | conflicting conflicts =>
    "grammar is not backtrack-free; use the backtracking parser or pass allow_conflicts=True\n"
      ++ Conflict.listText conflicts
  | endlessExpansion => "maximum recursion depth exceeded while calling a Python object"
  | unknownOrigin label => Text.quote label
  | unusableSymbol shown => "cannot use " ++ shown ++ " as a grammar symbol"

end GrammarError

end TopDown
