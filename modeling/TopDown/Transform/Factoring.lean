import TopDown.Analysis.Decision
import TopDown.Analysis.LeftRecursion
import TopDown.Transform.Elimination

/-
  Left factoring: alternatives of one nonterminal that begin with the same symbol are joined, and
  what follows their common beginning moves into a made-up tail, until the next token kind alone
  decides between alternatives.

  Where it does not decide yet, the leading nonterminals of the conflicting alternatives are
  spliced away and factoring starts over. The number of rounds and the growth of the grammar are
  limited; an expansion that breaks the limit, or leads to left recursion that cannot be removed,
  is undone. What remains then is factored, but has conflicts.
-/

namespace TopDown

/-- The longest common beginning of two alternatives. -/
def Alternative.common : Alternative → Alternative → Alternative
  | a :: as, b :: bs => if a = b then a :: Alternative.common as bs else []
  | _, _ => []

namespace Grammar

/-! ## Joining alternatives -/

/-- A grammar on the way: the alternatives of the nonterminal at hand that are done, and the tails
made up for it. -/
structure Joined where
  grammar : Grammar
  alts : List Alternative
  tails : List String

/-- Joins each group of alternatives that begin with the same symbol, in the place of its first
member. -/
def joinAlternatives (owner : String) : List Alternative → Joined → Traced Joined
  | [], acc => pure acc
  | alt :: rest, acc =>
    let group := rest.filter fun other => other.head? = alt.head?
    if alt = [] ∨ group = [] then
      joinAlternatives owner rest { acc with alts := acc.alts ++ [alt] }
    else do
      let common := group.foldl Alternative.common alt
      let (tail, g) := acc.grammar.factorTail owner
      let tailAlts := Alternative.distinct ((alt :: group).map (·.drop common.length))
      Traced.note (.factored owner common tail tailAlts)
      joinAlternatives owner (rest.filter fun other => other.head? ≠ alt.head?)
        ⟨g.setRule tail tailAlts, acc.alts ++ [common ++ [.nonterminal tail]], acc.tails ++ [tail]⟩
termination_by alts => alts.length
decreasing_by
  · simp
  · rw [List.length_unattach, List.length_cons, Nat.lt_succ_iff]
    exact Nat.le_trans (List.length_filter_le _ _) (Nat.le_of_eq List.length_attach)

/-- Factors one nonterminal once. Also gives the tails made up for it. -/
def factorRule (g : Grammar) (name : String) : Traced (Grammar × List String) := do
  let joined ← joinAlternatives name (Alternative.distinct (g.alternatives name)) ⟨g, [], []⟩
  return (joined.grammar.setRule name joined.alts, joined.tails)

/-- Factors several nonterminals in order. Also gives the tails made up for them. -/
def factorRules (g : Grammar) (names : List String) : Traced (Grammar × List String) :=
  names.foldlM (fun (state : Grammar × List String) name => do
    let (g, tails) ← state.1.factorRule name
    return (g, state.2 ++ tails)) (g, [])

/-- Factors nonterminals, then the tails made up for them, and so on, `levels` deep. -/
def factorLevels : (levels : Nat) → Grammar → List String → Traced Grammar
  | 0, g, _ => pure g
  | levels + 1, g, names =>
    if names = [] then pure g
    else do
      let (g, tails) ← g.factorRules names
      factorLevels levels g tails

/-- The length of the longest alternative. -/
def longestAlternative (g : Grammar) : Nat :=
  (g.productions.map fun (_, alt) => alt.length).foldl max 0

/-- Factors every nonterminal. The alternatives of a tail are shorter than those it was split from,
so the levels are no more than the longest alternative has symbols, and one. -/
def factorAll (g : Grammar) : Traced Grammar :=
  factorLevels (g.longestAlternative + 1) g g.nonterminals

/-! ## Expanding conflicts -/

/-- The leading nonterminal of an alternative of `owner`, unless it is `owner` itself. -/
def foreignLead (owner : String) : Alternative → Option String
  | .nonterminal lead :: _ => if lead = owner then none else some lead
  | _ => none

/-- The alternatives of `owner` with the leading nonterminal spliced away in those numbered
`indices`, and whether there was any. -/
def expandRule (g : Grammar) (owner : String) (indices : List Nat) : List Alternative × Bool :=
  let numbered := (g.alternatives owner).zipIdx
  let parts := numbered.map fun (alt, i) =>
    match foreignLead owner alt with
    | some lead => if i ∈ indices then some (Alternative.splice (g.alternatives lead) alt.tail) else none
    | none => none
  let alts := (parts.zip numbered).flatMap fun (part, alt, _) => part.getD [alt]
  (Alternative.distinct alts, parts.any Option.isSome)

/-- Splices leading nonterminals away in the conflicts of one nonterminal. Goes on from a grammar
and whether it has been changed already. -/
def expandConflictsOf (conflicts : List Conflict) (state : Grammar × Bool) (name : String) :
    Grammar × Bool :=
  let indices := (conflicts.filter (·.name = name)).flatMap Conflict.alts
  let expanded := state.1.expandRule name indices
  (state.1.setRule name expanded.1, state.2 || expanded.2)

/-- Splices leading nonterminals away wherever there is a conflict, nonterminal by nonterminal, and
tells whether that changed anything. -/
def expandConflicts (g : Grammar) (conflicts : List Conflict) : Grammar × Bool :=
  (conflicts.map Conflict.name).eraseDups.foldl (expandConflictsOf conflicts) (g, false)

/-! ## Rounds -/

/-- The budget of left factoring. -/
structure FactorBudget where
  maxRounds : Int
  /-- How many times its size at the start the grammar may have after an expansion. -/
  maxGrowth : Int
  /-- May leading nonterminals be spliced away? -/
  expand : Bool

def FactorBudget.standard : FactorBudget := ⟨16, 8, true⟩

/-- The grammar without left recursion, or why there is none, with the nesting of expansions kept
below a ceiling. -/
def repairRecursion (ceiling : Nat) (g : Grammar) : Traced (Except GrammarError Grammar) :=
  if g.leftRecursive = [] then pure (.ok g) else Traced.attempt (g.eliminateBelow ceiling)

/-- Takes over an expanded grammar, unless its left recursion could not be removed or it has grown
past the limit. -/
def settleExpansion (sizeLimit : Int) : Except GrammarError Grammar → Traced (Option Grammar)
  | .error (.unfixable name) => do
    Traced.note (.expansionUnfixable (.unfixable name))
    return none
  | .error e => .fail e
  | .ok g =>
    if sizeLimit < g.size then do
      Traced.note (.expansionTooLarge sizeLimit)
      return none
    else return some g.thaw

/-- The grammar after its conflicts have been expanded, or `none` when that changes nothing or has
to be undone. -/
def expandRound (ceiling : Nat) (g : Grammar) (conflicts : List Conflict) (sizeLimit : Int) :
    Traced (Option Grammar) := do
  let (expanded, changed) := g.expandConflicts conflicts
  if !changed then return none
  settleExpansion sizeLimit (← expanded.repairRecursion ceiling)

/-- A grammar between rounds. -/
structure FactorState where
  grammar : Grammar
  rounds : Nat
  complete : Bool

/-- Rounds of factoring and expanding while some are left. -/
def factorRounds (ceiling : Nat) (expand : Bool) (sizeLimit : Int) :
    (left : Nat) → Nat → Grammar → Traced FactorState
  | 0, rounds, g => pure ⟨g, rounds, false⟩
  | left + 1, rounds, g => do
    let g ← g.factorAll
    let conflicts := g.conflicts
    Traced.note (.roundEnded (rounds + 1) conflicts.length)
    if conflicts = [] then return ⟨g, rounds + 1, true⟩
    if !expand || left = 0 then return ⟨g, rounds + 1, false⟩
    match ← g.expandRound ceiling conflicts sizeLimit with
    | none => return ⟨g, rounds + 1, false⟩
    | some expanded => factorRounds ceiling expand sizeLimit left (rounds + 1) expanded

/-- A factored grammar, frozen, with the conflicts that are left and the rounds spent. -/
structure Factored where
  grammar : Grammar
  conflicts : List Conflict
  rounds : Nat
  deriving DecidableEq

namespace Factored

def complete (r : Factored) : Bool := r.conflicts.isEmpty

/-- What there is to say about a grammar that still has conflicts. -/
def warning (r : Factored) : Option String :=
  if r.complete then none
  else some ("left factoring stopped after " ++ toString r.rounds ++ " round(s) with "
    ++ toString r.conflicts.length ++ " conflict(s):\n" ++ Conflict.listText r.conflicts)

end Factored

/-- Factors a grammar within a budget, with the nesting of expansions kept below a ceiling. -/
def leftFactorBelow (ceiling : Nat) (budget : FactorBudget) (g : Grammar) : Traced Factored := do
  Traced.lift g.validate
  let state ← factorRounds ceiling budget.expand (budget.maxGrowth * g.size)
    budget.maxRounds.toNat 0 g.thaw
  if state.complete then return ⟨state.grammar.freeze, [], state.rounds⟩
  let g ← state.grammar.factorAll
  return ⟨g.freeze, g.conflicts, state.rounds⟩

/-- Factors a grammar within a budget. -/
def leftFactor (budget : FactorBudget) (g : Grammar) : Traced Factored :=
  leftFactorBelow expansionCeiling budget g

end Grammar

end TopDown
