import TopDown.Proofs.Joining

/-
  Left factoring keeps the language of every declared nonterminal, whatever the budget.

  Each change that a round makes is conservative: joining alternatives, splicing the leading
  nonterminal of a conflicting alternative, and removing the left recursion that splicing brought
  in. Where an expansion is undone the grammar before it goes on. `KeptByRounds` lists the changes;
  what each of them keeps holds of the grammar at every exit (`KeptByRounds.leftFactorBelow`).
-/

namespace TopDown

/-- What every step keeps is kept by a row of steps. -/
theorem Traced.foldlM_induction {α σ : Type} {P : σ → Prop} {f : σ → α → Traced σ}
    (step : ∀ s a s', P s → (f s a).outcome = .ok s' → P s') {l : List α} {s s' : σ} (start : P s)
    (h : (l.foldlM f s).outcome = .ok s') : P s' := by
  induction l generalizing s with
  | nil =>
    cases h
    exact start
  | cons a rest ih =>
    rw [List.foldlM_cons] at h
    obtain ⟨mid, hmid, h⟩ := Traced.outcome_bind_eq_ok.1 h
    exact ih (step s a mid start hmid) h

namespace Grammar

variable {g g' : Grammar} {name owner : String}

/-! ## Factoring rules -/

/-- What dropping repeated alternatives and joining one group of alternatives keep. -/
structure KeptByFactoring (P : Grammar → Prop) : Prop where
  distinct : ∀ (g : Grammar) (name : String), P g →
    P (g.setRule name (Alternative.distinct (g.alternatives name)))
  join : ∀ (owner : String) (acc : Joined) (alt : Alternative) (rest : List Alternative), alt ≠ [] →
    acc.Known owner (alt :: rest) → P (acc.pending owner (alt :: rest)) →
    P ((acc.join owner alt (alike alt rest)).pending owner (unlike alt rest))

/-- At the start nothing is collected, and all alternatives are those of the grammar. -/
theorem known_start (declared : name ∈ g.nonterminals) :
    Joined.Known ⟨g, [], []⟩ name (Alternative.distinct (g.alternatives name)) where
  owner_mem := declared
  used := by
    intro alt halt n hn
    rw [List.nil_append, Alternative.mem_distinct] at halt
    exact mem_usedNames.2 (Or.inr ⟨name, alt, halt, hn⟩)
  nodup := Alternative.nodup_distinct _
  apart := by
    intro alt halt
    cases halt

namespace KeptByFactoring

variable {P : Grammar → Prop} (kept : KeptByFactoring P)

include kept

theorem factorRule {tails : List String} (hg : P g)
    (h : (g.factorRule name).outcome = .ok (g', tails)) : P g' := by
  unfold Grammar.factorRule at h
  obtain ⟨joined, hjoined, h⟩ := Traced.outcome_bind_eq_ok.1 h
  cases h
  have whole : joined.grammar.setRule name joined.alts = joined.pending name [] := by
    rw [Joined.pending, List.append_nil]
  have start := kept.distinct g name hg
  rw [whole]
  by_cases declared : name ∈ g.nonterminals
  · exact joinAlternatives_keeps (kept.join name) (known_start declared) start hjoined
  · -- a name that is not declared has no alternatives to join
    rw [alternatives_eq_nil declared] at hjoined start
    unfold Alternative.distinct joinAlternatives at hjoined
    cases hjoined
    exact start

theorem factorRules {names tails : List String} (hg : P g)
    (h : (g.factorRules names).outcome = .ok (g', tails)) : P g' := by
  unfold Grammar.factorRules at h
  refine Traced.foldlM_induction (P := fun s => P s.1) ?_ hg h
  intro s name s' so_far hstep
  obtain ⟨⟨next, more⟩, hnext, hstep⟩ := Traced.outcome_bind_eq_ok.1 hstep
  cases hstep
  exact kept.factorRule so_far hnext

theorem factorLevels {levels : Nat} {names : List String} (hg : P g)
    (h : (factorLevels levels g names).outcome = .ok g') : P g' := by
  induction levels generalizing g names with
  | zero =>
    cases h
    exact hg
  | succ levels ih =>
    unfold Grammar.factorLevels at h
    split at h
    · cases h
      exact hg
    · obtain ⟨⟨next, tails⟩, hnext, h⟩ := Traced.outcome_bind_eq_ok.1 h
      exact ih (kept.factorRules hg hnext) h

theorem factorAll (hg : P g) (h : g.factorAll.outcome = .ok g') : P g' :=
  kept.factorLevels hg h

end KeptByFactoring

/-! ## Expanding conflicts -/

theorem foreignLead_eq_some {alt : Alternative} {lead : String}
    (h : foreignLead owner alt = some lead) :
    lead ≠ owner ∧ alt = .nonterminal lead :: alt.tail := by
  unfold foreignLead at h
  split at h
  · split at h
    · cases h
    · next hne =>
      cases h
      exact ⟨hne, rfl⟩
  · cases h

/-- The spliced forms that stand for an alternative, if it is spliced. -/
def splicedForm (g : Grammar) (owner : String) (indices : List Nat) (alt : Alternative) (i : Nat) :
    Option (List Alternative) :=
  match foreignLead owner alt with
  | some lead =>
    if i ∈ indices then some (Alternative.splice (g.alternatives lead) alt.tail) else none
  | none => none

theorem splicedForm_eq_some {indices : List Nat} {alt : Alternative} {i : Nat}
    {forms : List Alternative} (h : g.splicedForm owner indices alt i = some forms) :
    ∃ lead rest, alt = .nonterminal lead :: rest ∧ lead ≠ owner ∧
      forms = Alternative.splice (g.alternatives lead) rest := by
  unfold splicedForm at h
  split at h
  · next lead hlead =>
    obtain ⟨hne, halt⟩ := foreignLead_eq_some hlead
    split at h
    · exact ⟨lead, alt.tail, halt, hne, (Option.some.inj h).symm⟩
    · cases h
  · cases h

theorem mem_expandRule {indices : List Nat} {alt : Alternative} :
    alt ∈ (g.expandRule owner indices).1 ↔
      ∃ old i, (g.alternatives owner)[i]? = some old ∧
        alt ∈ (g.splicedForm owner indices old i).getD [old] := by
  unfold expandRule
  dsimp only
  rw [Alternative.mem_distinct, ← List.map_prod_right_eq_zip, List.mem_flatMap]
  simp only [List.mem_map, Prod.exists, List.mk_mem_zipIdx_iff_getElem?]
  constructor
  · rintro ⟨part, old, i, ⟨old', i', hmem, heq⟩, halt⟩
    cases heq
    exact ⟨old, i, hmem, halt⟩
  · rintro ⟨old, i, hmem, halt⟩
    exact ⟨_, old, i, ⟨old, i, hmem, rfl⟩, halt⟩

/-- A new alternative is an old one, or one with its leading nonterminal spliced away. -/
theorem mem_expandRule_cases {indices : List Nat} {alt : Alternative}
    (h : alt ∈ (g.expandRule owner indices).1) :
    alt ∈ g.alternatives owner ∨
      ∃ lead rest front, .nonterminal lead :: rest ∈ g.alternatives owner ∧
        front ∈ g.alternatives lead ∧ alt = front ++ rest := by
  obtain ⟨old, i, hmem, halt⟩ := mem_expandRule.1 h
  have hold := List.mem_of_getElem? hmem
  cases hform : g.splicedForm owner indices old i with
  | none =>
    rw [hform, Option.getD_none, List.mem_singleton] at halt
    exact Or.inl (halt ▸ hold)
  | some forms =>
    obtain ⟨lead, rest, rfl, -, rfl⟩ := splicedForm_eq_some hform
    rw [hform, Option.getD_some] at halt
    obtain ⟨front, hfront, rfl⟩ := List.mem_map.1 halt
    exact Or.inr ⟨lead, rest, front, hold, hfront, rfl⟩

/-- An old alternative is still there, or all its spliced forms are. -/
theorem expandRule_cover {alt : Alternative} (indices : List Nat)
    (h : alt ∈ g.alternatives owner) :
    alt ∈ (g.expandRule owner indices).1 ∨ ∃ lead rest, alt = .nonterminal lead :: rest ∧
      lead ≠ owner ∧
      ∀ front ∈ g.alternatives lead, front ++ rest ∈ (g.expandRule owner indices).1 := by
  obtain ⟨i, hmem⟩ := List.getElem?_of_mem h
  cases hform : g.splicedForm owner indices alt i with
  | none =>
    refine Or.inl (mem_expandRule.2 ⟨alt, i, hmem, ?_⟩)
    rw [hform, Option.getD_none, List.mem_singleton]
  | some forms =>
    obtain ⟨lead, rest, rfl, hne, rfl⟩ := splicedForm_eq_some hform
    refine Or.inr ⟨lead, rest, rfl, hne, ?_⟩
    intro front hfront
    refine mem_expandRule.2 ⟨_, i, hmem, ?_⟩
    rw [hform, Option.getD_some]
    exact List.mem_map_of_mem hfront

/-- Splicing leading nonterminals away, but not the owner itself, keeps every language. -/
theorem conservative_expandRule (g : Grammar) (owner : String) (indices : List Nat) :
    g.Conservative (g.setRule owner (g.expandRule owner indices).1) := by
  refine Conservative.setRule ?_ ?_ ?_
  · intro alt halt kind hk
    rcases mem_expandRule_cases halt with halt | ⟨lead, rest, front, hold, hfront, rfl⟩
    · exact ⟨owner, alt, halt, hk⟩
    · rcases List.mem_append.1 hk with hk | hk
      · exact ⟨lead, front, hfront, hk⟩
      · exact ⟨owner, _, hold, List.mem_cons_of_mem _ hk⟩
  · intro alt halt
    rw [language_le_iff]
    intro w hw
    rcases expandRule_cover indices halt with halt | ⟨lead, rest, rfl, hne, forms⟩
    · refine mem_language_of_alternative ?_ hw
      rwa [alternatives_setRule_self]
    · rw [Alternative.language_cons] at hw
      obtain ⟨u, hu, v, hv, rfl⟩ := Language.mem_mul.1 hw
      obtain ⟨front, hfront, hu⟩ := exists_alternative hu
      rw [alternatives_setRule_of_ne hne] at hfront
      have spliced : front ++ rest ∈
          (g.setRule owner (g.expandRule owner indices).1).alternatives owner := by
        rw [alternatives_setRule_self]
        exact forms front hfront
      refine mem_language_of_alternative spliced ?_
      rw [Alternative.language_append]
      exact Language.append_mem_mul hu hv
  · intro alt halt
    rcases mem_expandRule_cases halt with halt | ⟨lead, rest, front, hold, hfront, rfl⟩
    · exact g.language_closed owner alt halt
    · refine le_trans ?_ (g.language_closed owner _ hold)
      rw [Alternative.language_append, Alternative.language_cons]
      exact mul_le_mul' (g.language_closed lead front hfront) le_rfl

/-! ## Rounds -/

section Rounds

variable {ceiling : Nat} {conflicts : List Conflict} {sizeLimit : Int} {expand : Bool}

/-- What every change of a round keeps: factoring, sealing and unsealing and, where conflicts may be
expanded, splicing leading nonterminals and removing left recursion. -/
structure KeptByRounds (ceiling : Nat) (expand : Bool) (P : Grammar → Prop) : Prop extends
    KeptByFactoring P where
  freeze : ∀ g : Grammar, P g → P g.freeze
  thaw : ∀ g : Grammar, P g → P g.thaw
  splice : expand = true → ∀ (g : Grammar) (owner : String) (indices : List Nat), P g →
    P (g.setRule owner (g.expandRule owner indices).1)
  eliminate : expand = true → ∀ g g' : Grammar, P g →
    (g.eliminateBelow ceiling).outcome = .ok g' → P g'

/-- What repairing left recursion can return. -/
theorem repairRecursion_eq_ok (h : (g.repairRecursion ceiling).outcome = .ok (.ok g')) :
    g' = g ∨ (g.eliminateBelow ceiling).outcome = .ok g' := by
  unfold repairRecursion at h
  split at h
  · cases h
    exact Or.inl rfl
  · exact Or.inr (Except.ok.inj h)

/-- A grammar that is taken over is the repaired one, ready to be changed, and within the limit. -/
theorem settleExpansion_eq_some {repaired : Except GrammarError Grammar}
    (h : (settleExpansion sizeLimit repaired).outcome = .ok (some g')) :
    ∃ r, repaired = .ok r ∧ (r.size : Int) ≤ sizeLimit ∧ g' = r.thaw := by
  unfold settleExpansion at h
  split at h
  · cases h
  · cases h
  · next r =>
    split at h
    · cases h
    · next fits =>
      cases h
      exact ⟨r, rfl, Int.not_lt.1 fits, rfl⟩

/-- An expansion that is not undone is what its conflicts, expanded, come to without left
recursion. -/
theorem expandRound_eq_some
    (h : (g.expandRound ceiling conflicts sizeLimit).outcome = .ok (some g')) :
    ∃ r, ((g.expandConflicts conflicts).1.repairRecursion ceiling).outcome = .ok (.ok r) ∧
      (r.size : Int) ≤ sizeLimit ∧ g' = r.thaw := by
  unfold expandRound at h
  dsimp only at h
  split at h
  · cases h
  · obtain ⟨repaired, hrepaired, h⟩ := Traced.outcome_bind_eq_ok.1 h
    obtain ⟨r, rfl, taken⟩ := settleExpansion_eq_some h
    exact ⟨r, hrepaired, taken⟩

/-- What a round can do: it is the last one and leaves the factored grammar, complete only if that
has no conflicts, or it expands the conflicts and the rounds go on. -/
theorem factorRounds_succ_eq_ok {left rounds : Nat} {state : FactorState}
    (h : (factorRounds ceiling expand sizeLimit (left + 1) rounds g).outcome = .ok state) :
    ∃ factored, g.factorAll.outcome = .ok factored ∧
      (state.grammar = factored ∧ state.rounds = rounds + 1 ∧
          (state.complete = true → factored.conflicts = []) ∨
        expand = true ∧ ∃ next,
          (factored.expandRound ceiling factored.conflicts sizeLimit).outcome = .ok (some next) ∧
          (factorRounds ceiling expand sizeLimit left (rounds + 1) next).outcome = .ok state) := by
  unfold factorRounds at h
  obtain ⟨factored, returned, h⟩ := Traced.outcome_bind_eq_ok.1 h
  obtain ⟨-, -, h⟩ := Traced.outcome_bind_eq_ok.1 h
  refine ⟨factored, returned, ?_⟩
  split at h
  · next quiet =>
    cases h
    exact Or.inl ⟨rfl, rfl, fun _ => quiet⟩
  · split at h
    · cases h
      exact Or.inl ⟨rfl, rfl, nofun⟩
    · next going =>
      obtain ⟨expanding, -⟩ : expand = true ∧ left ≠ 0 := by simpa using going
      obtain ⟨next, expanded, h⟩ := Traced.outcome_bind_eq_ok.1 h
      cases next with
      | none =>
        cases h
        exact Or.inl ⟨rfl, rfl, nofun⟩
      | some next => exact Or.inr ⟨expanding, next, expanded, h⟩

namespace KeptByRounds

variable {P : Grammar → Prop}

theorem expandConflicts (kept : KeptByRounds ceiling true P) (hg : P g)
    (conflicts : List Conflict) : P (g.expandConflicts conflicts).1 := by
  -- names are spliced one after the other, each in the grammar that the ones before it have left
  have run : ∀ (names : List String) (so_far : Grammar × Bool), P so_far.1 →
      P (names.foldl (expandConflictsOf conflicts) so_far).1 := by
    intro names
    induction names with
    | nil => exact fun so_far h => h
    | cons name rest ih =>
      intro so_far h
      rw [List.foldl_cons]
      exact ih _ (kept.splice rfl so_far.1 name _ h)
  exact run _ (g, false) hg

theorem repairRecursion (kept : KeptByRounds ceiling true P) (hg : P g)
    (h : (g.repairRecursion ceiling).outcome = .ok (.ok g')) : P g' := by
  rcases repairRecursion_eq_ok h with rfl | eliminated
  · exact hg
  · exact kept.eliminate rfl g g' hg eliminated

/-- An expansion is undone, or keeps what its changes keep. -/
theorem expandRound (kept : KeptByRounds ceiling true P) (hg : P g)
    (h : (g.expandRound ceiling conflicts sizeLimit).outcome = .ok (some g')) : P g' := by
  obtain ⟨r, repaired, -, rfl⟩ := expandRound_eq_some h
  exact kept.thaw r (kept.repairRecursion (kept.expandConflicts hg conflicts) repaired)

/-- Every exit of the rounds hands back a grammar that the changes of rounds have led to. -/
theorem factorRounds (kept : KeptByRounds ceiling expand P) {left rounds : Nat}
    {state : FactorState} (hg : P g)
    (h : (factorRounds ceiling expand sizeLimit left rounds g).outcome = .ok state) :
    P state.grammar := by
  induction left generalizing rounds g with
  | zero =>
    cases h
    exact hg
  | succ left ih =>
    obtain ⟨factored, returned, ⟨rfl, -, -⟩ | ⟨rfl, next, expanded, h⟩⟩ :=
      factorRounds_succ_eq_ok h
    · exact kept.factorAll hg returned
    · exact ih (kept.expandRound (kept.factorAll hg returned) expanded) h

theorem leftFactorBelow {budget : FactorBudget} {result : Factored}
    (kept : KeptByRounds ceiling budget.expand P) (hg : P g)
    (h : (leftFactorBelow ceiling budget g).outcome = .ok result) : P result.grammar := by
  unfold Grammar.leftFactorBelow at h
  obtain ⟨-, -, h⟩ := Traced.outcome_bind_eq_ok.1 h
  obtain ⟨state, hstate, h⟩ := Traced.outcome_bind_eq_ok.1 h
  have rounds := kept.factorRounds (kept.thaw g hg) hstate
  split at h
  · cases h
    exact kept.freeze _ rounds
  · obtain ⟨last, hlast, h⟩ := Traced.outcome_bind_eq_ok.1 h
    cases h
    exact kept.freeze last (kept.factorAll rounds hlast)

end KeptByRounds

/-- Repeated alternatives may be dropped. -/
theorem conservative_distinct (g : Grammar) (name : String) :
    g.Conservative (g.setRule name (Alternative.distinct (g.alternatives name))) := by
  refine Conservative.of_alternatives rfl ?_ ?_
  · exact fun n hn => mem_nonterminals_setRule.2 (Or.inr hn)
  · intro n alt
    by_cases hn : n = name
    · subst hn
      rw [alternatives_setRule_self, Alternative.mem_distinct]
    · rw [alternatives_setRule_of_ne hn]

/-- Every change of a round keeps every language. -/
theorem keptByRounds_conservative (g : Grammar) (ceiling : Nat) (expand : Bool) :
    KeptByRounds ceiling expand g.Conservative where
  distinct G name so_far := so_far.trans (conservative_distinct G name)
  join _ _ _ _ _ known so_far := so_far.trans known.conservative_join
  freeze G so_far := so_far.trans (.freeze G)
  thaw G so_far := so_far.trans (.thaw G)
  splice _ G owner indices so_far := so_far.trans (conservative_expandRule G owner indices)
  eliminate _ _ _ so_far h := so_far.trans (eliminateBelow_conservative h)

theorem leftFactorBelow_conservative {budget : FactorBudget} {result : Factored}
    (h : (leftFactorBelow ceiling budget g).outcome = .ok result) :
    g.Conservative result.grammar :=
  (keptByRounds_conservative g ceiling budget.expand).leftFactorBelow (.refl g) h

/-- Rounds that end as complete have left no conflicts. -/
theorem factorRounds_complete {left rounds : Nat} {state : FactorState}
    (h : (factorRounds ceiling expand sizeLimit left rounds g).outcome = .ok state)
    (complete : state.complete = true) : state.grammar.conflicts = [] := by
  induction left generalizing rounds g with
  | zero =>
    cases h
    cases complete
  | succ left ih =>
    obtain ⟨factored, -, ⟨rfl, -, quiet⟩ | ⟨-, next, -, h⟩⟩ := factorRounds_succ_eq_ok h
    · exact quiet complete
    · exact ih h

/-- The conflicts that are reported are those of the factored grammar. -/
theorem leftFactorBelow_conflicts {budget : FactorBudget} {result : Factored}
    (h : (leftFactorBelow ceiling budget g).outcome = .ok result) :
    result.grammar.conflicts = result.conflicts := by
  unfold leftFactorBelow at h
  obtain ⟨-, -, h⟩ := Traced.outcome_bind_eq_ok.1 h
  obtain ⟨state, hstate, h⟩ := Traced.outcome_bind_eq_ok.1 h
  split at h
  · next complete =>
    cases h
    exact factorRounds_complete hstate complete
  · obtain ⟨last, -, h⟩ := Traced.outcome_bind_eq_ok.1 h
    cases h
    rfl

end Rounds

/-- Left factoring keeps the words of every declared nonterminal, whatever the budget and whether
or not conflicts are left. -/
theorem leftFactorBelow_derives_iff {ceiling : Nat} {budget : FactorBudget} {g : Grammar}
    {result : Factored} (h : (leftFactorBelow ceiling budget g).outcome = .ok result)
    {name : String} (declared : name ∈ g.nonterminals) (w : List Kind) :
    g.Derives [.nonterminal name] (w.map .terminal) ↔
      result.grammar.Derives [.nonterminal name] (w.map .terminal) := by
  have same := (leftFactorBelow_conservative h).language name declared
  rw [← mem_language, ← mem_language, same]

/-- Calls and assignments, which begin alike only after the call has been spliced in. -/
def calls : Grammar :=
  assemble (some "s")
    [("s", [[.nonterminal "call", .terminal .semicolon],
       [.terminal .identifier, .terminal .equals, .terminal .integer]]),
     ("call", [[.terminal .identifier, .terminal .openParen, .terminal .closeParen],
       [.terminal .identifier]])] []

/-- `calls` after two rounds. -/
def callsWithTails : Grammar :=
  { assemble (some "s")
      [("s", [[.terminal .identifier, .nonterminal "__lf2"]]),
       ("call", [[.terminal .identifier, .nonterminal "__lf1"]]),
       ("__lf1", [[.terminal .openParen, .terminal .closeParen], []]),
       ("__lf2", [[.nonterminal "__lf1", .terminal .semicolon],
         [.terminal .equals, .terminal .integer]])]
      [("__lf1", ⟨.factor, "call"⟩), ("__lf2", ⟨.factor, "s"⟩)] with counter := 2 }

theorem leftFactorBelow_derives_iff_calls :
    (leftFactor .standard calls).outcome = .ok ⟨callsWithTails, [], 2⟩ ∧ "s" ∈ calls.nonterminals ∧
      (calls.Derives [.nonterminal "s"] ([.identifier, .semicolon].map .terminal) ↔
        callsWithTails.Derives [.nonterminal "s"] ([.identifier, .semicolon].map .terminal)) := by
  have returned : (leftFactorBelow expansionCeiling .standard calls).outcome
      = .ok ⟨callsWithTails, [], 2⟩ := by decide +kernel
  have declared : "s" ∈ calls.nonterminals := by decide
  exact ⟨returned, declared, leftFactorBelow_derives_iff returned declared _⟩

end Grammar

end TopDown
