import TopDown.Grammar.Fresh
import TopDown.Transform.Traced

/-
  Removing left recursion. The nonterminals are taken in order. In each one, every alternative
  that begins with an earlier nonterminal is replaced by the alternatives that arise when that
  nonterminal is spliced away, until none begins with an earlier one; then direct recursion

      A → A β₁ | … | α₁ | …      becomes      A → α₁ T | …     T → β₁ T | … | ε

  with a made-up tail `T`. An alternative `A → A` adds nothing and is dropped.

  Splicing can go on for ever when a nullable nonterminal hides the recursion; it is given up at a
  nesting ceiling. No expansion that ends comes near the ceiling used by default.
-/

namespace TopDown

/-- Alternatives met while leading nonterminals are spliced away, and those that are done, newest
first. -/
structure Expansion where
  seen : List Alternative
  done : List Alternative
  deriving DecidableEq

namespace Grammar

/-- Splices earlier nonterminals away from the front of an alternative, depth first and in order.
An alternative met before is not looked at again. Gives up below the nesting ceiling. -/
def expand (g : Grammar) (earlier : List String) :
    (ceiling : Nat) → Expansion → Alternative → Option Expansion
  | 0, _, _ => none
  | ceiling + 1, acc, alt =>
    if alt ∈ acc.seen then some acc
    else
      let acc := { acc with seen := alt :: acc.seen }
      match alt with
      | .nonterminal lead :: rest =>
        if lead ∈ earlier then
          (Alternative.splice (g.alternatives lead) rest).foldlM (expand g earlier ceiling) acc
        else some { acc with done := alt :: acc.done }
      | _ => some { acc with done := alt :: acc.done }

/-- The alternatives of `name` with earlier nonterminals spliced away. -/
def expandedAlternatives (g : Grammar) (ceiling : Nat) (earlier : List String) (name : String) :
    Except GrammarError (List Alternative) :=
  match (g.alternatives name).foldlM (g.expand earlier ceiling) ⟨[], []⟩ with
  | some expansion => .ok expansion.done.reverse
  | none => .error .endlessExpansion

/-- Gives `name` the alternatives `alts`, with direct recursion moved into a tail. -/
def splitRecursion (g : Grammar) (name : String) (alts : List Alternative) : Traced Grammar :=
  let (recursive, others) := alts.partition (Alternative.startsWith name)
  let repeated := (recursive.map List.tail).filter (· ≠ [])
  if recursive = [] then pure (g.setRule name alts)
  else if others = [] then .fail (.unfixable name)
  else if repeated = [] then do
    Traced.note (.selfLoopDropped name)
    return g.setRule name others
  else do
    let (tail, g) := g.recursionTail name
    let close := fun alt => alt ++ [Symbol.nonterminal tail]
    let tailAlts := Alternative.distinct (repeated.map close) ++ [[]]
    Traced.note (.recursionSplit name tail tailAlts)
    return (g.setRule name (others.map close)).setRule tail tailAlts

/-- Deals with one nonterminal; the state is the grammar and the nonterminals dealt with before. -/
def eliminateIn (ceiling : Nat) (state : Grammar × List String) (name : String) :
    Traced (Grammar × List String) := do
  let (g, earlier) := state
  let alts ← Traced.lift (g.expandedAlternatives ceiling earlier name)
  let g ← g.splitRecursion name alts
  return (g, earlier ++ [name])

/-- Removes left recursion, with the nesting of expansions kept below a ceiling. -/
def eliminateBelow (ceiling : Nat) (g : Grammar) : Traced Grammar := do
  Traced.lift g.validate
  let order := g.nonterminals
  let (result, _) ← order.foldlM (eliminateIn ceiling) (g.thaw, [])
  Traced.note (.recursionEliminated order.length result.nonterminals.length)
  return result.freeze

/-- The nesting at which an expansion is taken to be endless. -/
def expansionCeiling : Nat := 600

/-- Removes left recursion. The result is frozen. -/
def eliminateLeftRecursion (g : Grammar) : Traced Grammar :=
  eliminateBelow expansionCeiling g

end Grammar

end TopDown
