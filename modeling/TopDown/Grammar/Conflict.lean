import TopDown.Token.Kind

/-
  LL(1) conflicts: a nonterminal and a token kind on which more than one of its alternatives could
  be chosen. Alternatives are counted from zero in the order of the rule.
-/

namespace TopDown

structure Conflict where
  name : String
  kind : Kind
  alts : List Nat
  deriving DecidableEq

namespace Conflict

def text (c : Conflict) : String :=
  c.name ++ ", on " ++ c.kind.spelling ++ ": alternatives "
    ++ ", ".intercalate (c.alts.map fun i => "#" ++ toString i)

/-- One indented line for each conflict. -/
def listText (cs : List Conflict) : String :=
  "\n".intercalate (cs.map fun c => "  " ++ c.text)

end Conflict

end TopDown
