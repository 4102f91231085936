import TopDown.Proofs.KindTable
import TopDown.Proofs.Worklist

/-
  What left factoring comes to: no two alternatives of a nonterminal are equal or begin with the
  same symbol.

  Factoring all nonterminals brings a grammar into this form (`factorAll_isFactored`), and does
  nothing to a grammar that has it (`IsFactored.factorAll`). So the last factoring of the pass
  repeats the one of the last round, and whatever way the rounds end, the result is one factoring
  away from a grammar with which a round began (`leftFactorBelow_exit`).
-/

namespace TopDown

theorem Catalog.set_eq_self {β : Type} {c : Catalog β} {name : String} {value : β}
    (h : c.get? name = some value) : c.set name value = c := by
  refine ext_get? ?_ fun other => ?_
  · rw [names_set, if_pos]
    exact isSome_get?_iff.1 (by rw [h]; rfl)
  · by_cases same : other = name
    · rw [same, get?_set_self, h]
    · exact get?_set_of_ne c value same

theorem Alternative.distinct_eq_self {alts : List Alternative} (h : alts.Nodup) :
    distinct alts = alts := by
  induction alts with
  | nil => rfl
  | cons alt rest ih =>
    obtain ⟨new, h⟩ := List.nodup_cons.1 h
    rw [distinct, ih h, List.filter_eq_self.2]
    intro other hother
    exact decide_eq_true (ne_of_mem_of_not_mem hother new)

namespace Grammar

variable {g last : Grammar} {name owner : String} {alt : Alternative}
  {alts rest : List Alternative} {names : List String} {ceiling : Nat} {sizeLimit : Int}

/-! ## The form -/

/-- The alternatives of every nonterminal begin with different symbols. -/
def IsFactored (g : Grammar) : Prop :=
  ∀ name, HeadsApart (g.alternatives name)

theorem HeadsApart.nodup (apart : HeadsApart alts) : alts.Nodup :=
  List.Nodup.of_map _ apart

theorem HeadsApart.pairwise (apart : HeadsApart alts) :
    alts.Pairwise fun alt other => alt ≠ [] → other ≠ [] → alt.head? ≠ other.head? :=
  (List.pairwise_map.1 apart).imp fun ne _ _ => ne

/-- Factoring all nonterminals leaves none of them as it should not be. -/
theorem factorAll_isFactored (h : g.factorAll.outcome = .ok last) : last.IsFactored := by
  have done : ∀ n ∈ last.nonterminals, n ∉ [] → HeadsApart (last.alternatives n) := by
    -- what is no longer to do has been factored, and is not touched again
    refine factorAll_induction
      (P := fun G names => ∀ n ∈ G.nonterminals, n ∉ names → HeadsApart (G.alternatives n))
      (fun n declared todo => absurd declared todo) ?_ h
    intro G G' name names tails listed rule _ so_far n declared unlisted
    rw [List.mem_append, not_or] at unlisted
    rw [rule.names, List.mem_append] at declared
    have old := declared.resolve_right unlisted.2
    by_cases here : n = name
    · rw [here]
      exact rule.apart
    · rw [rule.same n old here]
      refine so_far n old fun todo => ?_
      exact (List.mem_cons.1 todo).elim here unlisted.1
  intro n
  by_cases declared : n ∈ last.nonterminals
  · exact done n declared List.not_mem_nil
  · rw [alternatives_eq_nil declared]
    exact List.nodup_nil

/-! ## Nothing left to factor -/

theorem HeadsApart.alike_eq_nil (apart : HeadsApart (alt :: rest)) : alike alt rest = [] := by
  refine List.filter_eq_nil_iff.2 fun other hother same => ?_
  rw [HeadsApart, List.map_cons, List.nodup_cons] at apart
  exact apart.1 (of_decide_eq_true same ▸ List.mem_map_of_mem hother)

/-- Alternatives that begin with different symbols are kept as they are. -/
theorem joinAlternatives_of_headsApart (apart : HeadsApart alts) (acc : Joined) :
    (joinAlternatives owner alts acc).outcome = .ok { acc with alts := acc.alts ++ alts } := by
  induction alts generalizing acc with
  | nil =>
    unfold joinAlternatives
    rw [List.append_nil]
    rfl
  | cons alt rest ih =>
    have alone : alt = [] ∨ (rest.filter fun other => other.head? = alt.head?) = [] :=
      Or.inr apart.alike_eq_nil
    rw [joinAlternatives, if_pos alone, ih (List.Nodup.of_cons apart)]
    simp

theorem setRule_alternatives (declared : name ∈ g.nonterminals) :
    g.setRule name (g.alternatives name) = g := by
  obtain ⟨alts, onFile⟩ := Option.isSome_iff_exists.1 (Catalog.isSome_get?_iff.2 declared)
  rw [alternatives, onFile, Option.getD_some, setRule, Catalog.set_eq_self onFile]

namespace IsFactored

variable (factored : g.IsFactored)

include factored

theorem factorRule (declared : name ∈ g.nonterminals) :
    (g.factorRule name).outcome = .ok (g, []) := by
  unfold Grammar.factorRule
  rw [Alternative.distinct_eq_self (factored name).nodup]
  refine Traced.outcome_bind_eq_ok.2 ⟨_, joinAlternatives_of_headsApart (factored name) _, ?_⟩
  rw [List.nil_append, Traced.outcome_pure, setRule_alternatives declared]

theorem factorRules (declared : ∀ n ∈ names, n ∈ g.nonterminals) :
    (g.factorRules names).outcome = .ok (g, []) := by
  rw [factorRules_eq_foldlM]
  induction names with
  | nil => rfl
  | cons name rest ih =>
    rw [List.foldlM_cons]
    refine Traced.outcome_bind_eq_ok.2 ⟨(g, []), ?_, ih fun n hn => declared n (by simp [hn])⟩
    exact Traced.outcome_bind_eq_ok.2
      ⟨_, factored.factorRule (declared name List.mem_cons_self), rfl⟩

/-- Factoring does nothing to a grammar that is factored. -/
theorem factorAll : g.factorAll.outcome = .ok g := by
  unfold Grammar.factorAll factorLevels
  split
  · rfl
  · refine Traced.outcome_bind_eq_ok.2 ⟨(g, []), factored.factorRules fun _ h => h, ?_⟩
    cases g.longestAlternative <;> rfl

end IsFactored

/-! ## The ways out of the rounds -/

/-- The grammars with which a round may begin: the one given, and what an expansion that is not
undone makes of a factored one. -/
inductive RoundStart (ceiling : Nat) (sizeLimit : Int) (g : Grammar) : Grammar → Prop where
  | first : RoundStart ceiling sizeLimit g g
  | next {G factored G' : Grammar} (start : RoundStart ceiling sizeLimit g G)
      (returned : G.factorAll.outcome = .ok factored)
      (expanded : (factored.expandRound ceiling factored.conflicts sizeLimit).outcome
        = .ok (some G')) : RoundStart ceiling sizeLimit g G'

/-- The rounds end with a grammar with which a round began, or with that grammar factored, and no
more of them are spent than there are. -/
theorem factorRounds_exit {expand : Bool} {left rounds : Nat} {G : Grammar} {state : FactorState}
    (start : RoundStart ceiling sizeLimit g G)
    (h : (factorRounds ceiling expand sizeLimit left rounds G).outcome = .ok state) :
    state.rounds ≤ rounds + left ∧ ∃ G', RoundStart ceiling sizeLimit g G' ∧
      (state.grammar = G' ∧ state.complete = false ∨
        G'.factorAll.outcome = .ok state.grammar) := by
  induction left generalizing rounds G with
  | zero =>
    cases h
    exact ⟨Nat.le_refl _, G, start, Or.inl ⟨rfl, rfl⟩⟩
  | succ left ih =>
    obtain ⟨factored, returned, ⟨rfl, spent, -⟩ | ⟨-, G', expanded, h⟩⟩ :=
      factorRounds_succ_eq_ok h
    · exact ⟨by omega, G, start, Or.inr returned⟩
    · obtain ⟨spent, exit⟩ := ih (start.next returned expanded) h
      exact ⟨by omega, exit⟩

/-- The result of the pass is a grammar with which a round began, factored. -/
theorem leftFactorBelow_exit {budget : FactorBudget} {result : Factored}
    (h : (leftFactorBelow ceiling budget g).outcome = .ok result) :
    result.rounds ≤ budget.maxRounds.toNat ∧
      ∃ G last, RoundStart ceiling (budget.maxGrowth * g.size) g.thaw G ∧
        G.factorAll.outcome = .ok last ∧ result.grammar = last.freeze := by
  unfold leftFactorBelow at h
  obtain ⟨-, -, h⟩ := Traced.outcome_bind_eq_ok.1 h
  obtain ⟨state, hstate, h⟩ := Traced.outcome_bind_eq_ok.1 h
  obtain ⟨spent, G, start, exit⟩ := factorRounds_exit .first hstate
  rw [Nat.zero_add] at spent
  split at h
  · next complete =>
    cases h
    rcases exit with ⟨-, incomplete⟩ | returned
    · rw [complete] at incomplete
      cases incomplete
    · exact ⟨spent, G, _, start, returned, rfl⟩
  · obtain ⟨last, returned, h⟩ := Traced.outcome_bind_eq_ok.1 h
    cases h
    refine ⟨spent, G, last, start, ?_, rfl⟩
    rcases exit with ⟨same, -⟩ | before
    · rwa [same] at returned
    · -- the grammar was factored already
      rw [(factorAll_isFactored before).factorAll] at returned
      rwa [← Except.ok.inj returned]

theorem leftFactorBelow_isFactored {budget : FactorBudget} {result : Factored}
    (h : (leftFactorBelow ceiling budget g).outcome = .ok result) :
    result.grammar.IsFactored := by
  obtain ⟨-, G, last, -, returned, same⟩ := leftFactorBelow_exit h
  rw [same]
  exact fun name => factorAll_isFactored returned name

/-! ## Factoring again -/

/-- Rounds that begin with a factored grammar end with it, as long as nothing is expanded. -/
theorem IsFactored.factorRounds {expand : Bool} (factored : g.IsFactored)
    (quiet : expand = false ∨ g.conflicts = []) (left : Nat) :
    ∃ rounds complete, (factorRounds ceiling expand sizeLimit left 0 g).outcome
      = .ok ⟨g, rounds, complete⟩ := by
  cases left with
  | zero => exact ⟨0, false, rfl⟩
  | succ left =>
    have again : ∀ {β : Type} (f : Grammar → Traced β), (g.factorAll >>= f).outcome
        = (f g).outcome := by
      intro β f
      rw [Traced.outcome_bind, factored.factorAll]
      rfl
    unfold Grammar.factorRounds
    rw [again]
    by_cases none : g.conflicts = []
    · refine ⟨1, true, Traced.outcome_bind_eq_ok.2 ⟨(), rfl, ?_⟩⟩
      rw [if_pos none]
      rfl
    · refine ⟨1, false, Traced.outcome_bind_eq_ok.2 ⟨(), rfl, ?_⟩⟩
      rw [if_neg none, quiet.resolve_right none]
      rfl

theorem conflicts_thaw (g : Grammar) : g.thaw.conflicts = g.conflicts :=
  rfl

/-- Factoring a grammar that is factored gives it back, as long as nothing is expanded. -/
theorem IsFactored.leftFactorBelow {budget : FactorBudget} (factored : g.IsFactored)
    (closed : g.freeze = g) (valid : g.validate = .ok ())
    (quiet : budget.expand = false ∨ g.conflicts = []) :
    ∃ rounds, (leftFactorBelow ceiling budget g).outcome = .ok ⟨g, g.conflicts, rounds⟩ := by
  have thawed : g.thaw.IsFactored := fun name => factored name
  have sealed : g.thaw.freeze = g := closed
  rw [← conflicts_thaw] at quiet
  have rounds : ∃ rounds complete, (Grammar.factorRounds ceiling budget.expand
      (budget.maxGrowth * g.size) budget.maxRounds.toNat 0 g.thaw).outcome
        = .ok ⟨g.thaw, rounds, complete⟩ := thawed.factorRounds quiet _
  obtain ⟨rounds, complete, returned⟩ := rounds
  refine ⟨rounds, ?_⟩
  unfold Grammar.leftFactorBelow
  refine Traced.outcome_bind_eq_ok.2 ⟨(), valid, ?_⟩
  refine Traced.outcome_bind_eq_ok.2 ⟨_, returned, ?_⟩
  cases complete with
  | true =>
    have none := factorRounds_complete returned rfl
    dsimp only at none
    rw [if_pos rfl, ← conflicts_thaw, none, Traced.outcome_pure]
    dsimp only
    rw [sealed]
  | false =>
    rw [if_neg Bool.false_ne_true, ← conflicts_thaw]
    refine Traced.outcome_bind_eq_ok.2 ⟨g.thaw, thawed.factorAll, ?_⟩
    rw [sealed, Traced.outcome_pure, conflicts_thaw]

/-- Left factoring comes to a factored grammar, says truly what conflicts are left in it, and does
nothing more to it, whatever the budget.

The list of nonterminals to factor comes to its end, from whatever grammar. In the result no two
alternatives of a nonterminal are equal, and no two that are not empty begin with the same symbol.
The conflicts reported are those of the result, and it counts as complete when there are none. If
the result is valid, factoring it without expanding conflicts returns it with the same origins and
the same counter, within any budget; so does factoring with expansion if it is complete. -/
theorem leftFactorBelow_settles {budget : FactorBudget} {result : Factored}
    (returned : (leftFactorBelow ceiling budget g).outcome = .ok result) :
    (∀ G : Grammar, Acc (flip Turn) (G, G.nonterminals) ∧
      ∃ last, G.factorAll.outcome = .ok last ∧ Turns (G, G.nonterminals) (last, [])) ∧
    (∀ name, (result.grammar.alternatives name).Nodup ∧
      (result.grammar.alternatives name).Pairwise fun alt other =>
        alt ≠ [] → other ≠ [] → alt.head? ≠ other.head?) ∧
    result.conflicts = result.grammar.conflicts ∧
    (result.complete = true ↔ result.conflicts = []) ∧
    (result.grammar.validate = .ok () → ∀ (ceiling' : Nat) (budget' : FactorBudget),
      budget'.expand = false ∨ result.complete = true →
        ∃ rounds, (leftFactorBelow ceiling' budget' result.grammar).outcome
          = .ok ⟨result.grammar, result.conflicts, rounds⟩) := by
  have factored := leftFactorBelow_isFactored returned
  have conflicts := leftFactorBelow_conflicts returned
  have complete : result.complete = true ↔ result.conflicts = [] := List.isEmpty_iff
  obtain ⟨-, G, last, -, -, sealed⟩ := leftFactorBelow_exit returned
  refine ⟨exists_turns_factorAll, fun name => ⟨(factored name).nodup, (factored name).pairwise⟩,
    conflicts.symm, complete, fun valid ceiling' budget' quiet => ?_⟩
  have closed : result.grammar.freeze = result.grammar := by
    rw [sealed]
    rfl
  rw [← conflicts]
  refine factored.leftFactorBelow closed valid (quiet.imp_right fun h => ?_)
  rw [conflicts]
  exact complete.1 h

/-- A return may have a statement after it, or a separator, or nothing; a separator after nothing
may belong to a return around it. -/
def dangling : Grammar :=
  assemble (some "s")
    [("s", [[.terminal .returnWord, .nonterminal "s"],
       [.terminal .returnWord, .nonterminal "s", .terminal .semicolon, .nonterminal "s"],
       [.terminal .returnWord, .nonterminal "s", .terminal .semicolon, .terminal .semicolon],
       [.terminal .identifier]])] []

/-- `dangling` factored, with a tail for the tail. -/
def danglingFactored : Grammar :=
  { assemble (some "s")
      [("s", [[.terminal .returnWord, .nonterminal "s", .nonterminal "__lf1"],
         [.terminal .identifier]]),
       ("__lf1", [[], [.terminal .semicolon, .nonterminal "__lf2"]]),
       ("__lf2", [[.nonterminal "s"], [.terminal .semicolon]])]
      [("__lf1", ⟨.factor, "s"⟩), ("__lf2", ⟨.factor, "__lf1"⟩)] with counter := 2 }

theorem leftFactorBelow_settles_dangling :
    (leftFactor .standard dangling).outcome
        = .ok ⟨danglingFactored, [⟨"__lf1", .semicolon, [0, 1]⟩], 1⟩ ∧
      danglingFactored.validate = .ok () ∧
      ∃ rounds, (leftFactor ⟨7, 1, false⟩ danglingFactored).outcome
        = .ok ⟨danglingFactored, [⟨"__lf1", .semicolon, [0, 1]⟩], rounds⟩ := by
  have returned : (leftFactorBelow expansionCeiling .standard dangling).outcome
      = .ok ⟨danglingFactored, [⟨"__lf1", .semicolon, [0, 1]⟩], 1⟩ := by decide +kernel
  have valid : danglingFactored.validate = .ok () := by rfl
  obtain ⟨-, -, -, -, again⟩ := leftFactorBelow_settles returned
  exact ⟨returned, valid, again valid expansionCeiling ⟨7, 1, false⟩ (Or.inl rfl)⟩

end Grammar

end TopDown
