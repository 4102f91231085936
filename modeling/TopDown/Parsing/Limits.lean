/-
  Ceilings for a parse: how deep nonterminals may nest and how many symbols may be tried.
-/

namespace TopDown

/-- Factoring tails do not count as a level of nesting. -/
structure Limits where
  maxDepth : Nat
  maxSteps : Nat
  deriving DecidableEq

namespace Limits

def standard : Limits := ⟨200, 200000⟩

/-- Limits from any two numbers; both must be positive. -/
def ofInts? (maxDepth maxSteps : Int) : Option Limits :=
  if maxDepth < 1 ∨ maxSteps < 1 then none else some ⟨maxDepth.toNat, maxSteps.toNat⟩

/-- What there is to say about limits that are not positive. -/
def refusal : String := "parse limits must be positive"

end Limits

end TopDown
