import TopDown.Proofs.EliminationTrees
import TopDown.Proofs.Worklist

/-
  Folding undoes what the passes do to derivation trees when nothing is spliced.

  Left factoring without expansion only joins alternatives and drops repeated ones. Joining is a
  split of rules (`PrefixSplit.prefixRules`), so every join adds one tail that folds away, whatever
  tails have been made before it: `keptByRounds_foldsOnto`. The trees of `eliminateBelow` come
  first, and the bijection for both passes is put together from the two.
-/

namespace TopDown

namespace Grammar

open TopDown.Tree

variable {g G g₁ g₂ : Grammar} {name owner tail : String}

/-! ## Left factoring returns -/

/-- Without expansion, factoring a valid grammar cannot fail. -/
theorem exists_leftFactorBelow {ceiling : Nat} {budget : FactorBudget}
    (plain : budget.expand = false) (valid : g.validate = .ok ()) :
    ∃ result, (leftFactorBelow ceiling budget g).outcome = .ok result := by
  have rounds : ∀ limit left, ∃ state,
      (factorRounds ceiling budget.expand limit left 0 g.thaw).outcome = .ok state := by
    intro limit left
    cases left with
    | zero => exact ⟨_, rfl⟩
    | succ left =>
      unfold factorRounds
      refine Traced.exists_ok_bind (exists_factorAll _) fun factored => ?_
      refine Traced.exists_ok_bind ⟨(), rfl⟩ fun _ => ?_
      split
      · exact ⟨_, rfl⟩
      · rw [plain]
        exact ⟨_, rfl⟩
  unfold leftFactorBelow
  refine Traced.exists_ok_bind ⟨(), valid⟩ fun _ => ?_
  refine Traced.exists_ok_bind (rounds _ _) fun state => ?_
  split
  · exact ⟨_, rfl⟩
  · exact Traced.exists_ok_bind (exists_factorAll _) fun _ => ⟨_, rfl⟩

/-! ## Joining as a change of rules -/

theorem PrefixSplit.prefixRules {common : Alternative} {remainders : List Alternative}
    (split : PrefixSplit g₁ g₂ owner tail common remainders)
    (apart : ∀ alt ∈ g₁.alternatives owner, alt ∈ g₂.alternatives owner → ¬ common <+: alt) :
    PrefixRules g₁.rulesOf g₂.rulesOf owner tail common where
  owner_iff alt := by
    constructor
    · intro halt
      rcases split.owner_alts alt halt with old | joined
      · exact Or.inr ⟨old, apart alt old halt⟩
      · exact Or.inl joined
    · rintro (rfl | ⟨old, other⟩)
      · exact split.joined_mem
      · rcases split.cover alt old with halt | ⟨r, -, rfl⟩
        · exact halt
        · exact absurd (List.prefix_append ..) other
  tail_iff alt := by
    rw [rulesOf, split.tail_alts]
    refine ⟨split.remainder_mem alt, fun old => ?_⟩
    rcases split.cover _ old with halt | ⟨r, hr, same⟩
    · exact absurd (List.prefix_append ..) (apart _ old halt)
    · rwa [List.append_cancel_left same]
  same n hn ht alt := by rw [rulesOf, rulesOf, split.same n hn ht]
  ne := by
    rintro rfl
    obtain ⟨alt, halt, -⟩ := split.exists_common
    exact split.undeclared (mem_nonterminals_of_mem_alternatives halt)
  undeclared alt halt := split.undeclared (mem_nonterminals_of_mem_alternatives halt)
  unmentioned n alt halt hs := split.unmentioned ⟨n, alt, halt, hs⟩

theorem Joined.Known.prefixRules {acc : Joined} {alt : Alternative} {rest : List Alternative}
    (known : acc.Known owner (alt :: rest)) (nonempty : alt ≠ []) :
    PrefixRules (acc.pending owner (alt :: rest)).rulesOf
      ((acc.join owner alt (alike alt rest)).pending owner (unlike alt rest)).rulesOf owner
      (acc.nextTail owner) (shared alt rest) := by
  have split := known.prefixSplit
  refine split.prefixRules fun a old new begins => ?_
  obtain ⟨r, rfl⟩ := begins
  rw [Joined.pending, alternatives_setRule_self, Joined.join, List.mem_append, List.mem_append,
    List.mem_singleton] at new
  rcases new with (done | joined) | todo
  · exact known.ne_shared_append nonempty (List.mem_append_left _ done) rfl
  · -- the joined alternative refers to the tail, which no old one does
    rw [joined] at old
    exact split.unmentioned ⟨owner, _, old, List.mem_append_right _ List.mem_cons_self⟩
  · exact known.ne_shared_append nonempty (List.mem_append_right _ todo) rfl

/-! ## Both passes -/

namespace FoldsOnto

/-- The record of origins and the alternatives are all that matters. -/
theorem congr (h : FoldsOnto g g₁ g₁.rulesOf) (origins : g₂.origins = g₁.origins)
    (declared : ∀ n ∈ g₁.nonterminals, n ∈ g₂.nonterminals)
    (same : ∀ n alt, alt ∈ g₂.alternatives n ↔ alt ∈ g₁.alternatives n) :
    FoldsOnto g g₂ g₂.rulesOf := by
  have rules : g₂.rulesOf = g₁.rulesOf := funext fun n => funext fun alt => propext (same n alt)
  refine ⟨fun n hn => declared n (h.declared n hn), ?_, ?_⟩
  · intro n origin hn
    obtain ⟨named, owned⟩ := h.recorded n origin (origins ▸ hn)
    exact ⟨declared _ named, declared _ owned⟩
  · rw [origins, rules]
    exact h.bijOn

theorem join {acc : Joined} {alt : Alternative} {rest : List Alternative} (nonempty : alt ≠ [])
    (known : acc.Known owner (alt :: rest))
    (h : FoldsOnto g (acc.pending owner (alt :: rest)) (acc.pending owner (alt :: rest)).rulesOf) :
    FoldsOnto g ((acc.join owner alt (alike alt rest)).pending owner (unlike alt rest))
      ((acc.join owner alt (alike alt rest)).pending owner (unlike alt rest)).rulesOf := by
  have fresh := known.prefixSplit.undeclared
  have kept := known.conservative_join.declared
  have owned : owner ∈ (acc.pending owner (alt :: rest)).nonterminals :=
    mem_nonterminals_setRule.2 (Or.inl rfl)
  refine ⟨fun n hn => kept n (h.declared n hn), ?_, ?_⟩
  · intro n origin hn
    rcases Catalog.get?_set_eq_some.1 hn with ⟨rfl, rfl⟩ | ⟨-, hn⟩
    · refine ⟨?_, kept owner owned⟩
      exact mem_nonterminals_setRule.2 (Or.inr (mem_nonterminals_setRule.2 (Or.inl rfl)))
    · obtain ⟨named, owned⟩ := h.recorded n origin hn
      exact ⟨kept n named, kept _ owned⟩
  · intro n hn
    have unnamed : (acc.pending owner (alt :: rest)).origins.get? (acc.nextTail owner) = none := by
      rw [Option.eq_none_iff_forall_ne_some]
      exact fun origin made => fresh (h.recorded _ origin made).1
    have unowned : ∀ inner origin,
        (acc.pending owner (alt :: rest)).origins.get? inner = some origin →
        origin.owner ≠ acc.nextTail owner := by
      intro inner origin made owned
      exact fresh (owned ▸ (h.recorded inner origin made).2)
    have folded : fold ((acc.join owner alt (alike alt rest)).pending owner
          (unlike alt rest)).origins
        = fold (acc.pending owner (alt :: rest)).origins ∘ spliceTail (acc.nextTail owner) :=
      funext (fold_set_factor unnamed unowned owner)
    have old : n ≠ acc.nextTail owner := by
      rintro rfl
      exact fresh (h.declared _ hn)
    rw [folded]
    exact (h.bijOn n hn).comp ((known.prefixRules nonempty).bijOn_spliceTail old)

end FoldsOnto

/-- Every change of a round without expansion adds tails that fold away. -/
theorem keptByRounds_foldsOnto (g : Grammar) (ceiling : Nat) :
    KeptByRounds ceiling false fun G => FoldsOnto g G G.rulesOf where
  distinct G name so_far := by
    refine so_far.congr rfl (conservative_distinct G name).declared fun n alt => ?_
    by_cases hn : n = name
    · subst hn
      rw [alternatives_setRule_self, Alternative.mem_distinct]
    · rw [alternatives_setRule_of_ne hn]
  join _ _ _ _ nonempty known so_far := so_far.join nonempty known
  freeze G so_far := so_far.congr rfl (fun _ h => h) fun _ _ => Iff.rfl
  thaw G so_far := so_far.congr rfl (fun _ h => h) fun _ _ => Iff.rfl
  splice expands := by cases expands
  eliminate expands := by cases expands

/-- Folding takes the trees of a grammar that has been through both passes one to one to the
loop-free trees of the grammar it was made from, and keeps the tokens at the leaves. This holds
where nothing is spliced: no alternative begins with an earlier nonterminal, and conflicts are not
expanded. -/
theorem fold_bijOn_passes {ceiling : Nat} {budget : FactorBudget} {g g₁ : Grammar}
    (unmade : g.origins = ∅) (forward : g.Forward)
    (eliminated : (g.eliminateBelow ceiling).outcome = .ok g₁) (plain : budget.expand = false)
    (ceiling' : Nat) :
    ∃ result, (leftFactorBelow ceiling' budget g₁).outcome = .ok result ∧
      (∀ name ∈ g.nonterminals,
        Set.BijOn (fold result.grammar.origins)
          {t | t.IsDerivation result.grammar ∧ t.symbol = .nonterminal name}
          {t | t.IsDerivation g ∧ t.LoopFree ∧ t.symbol = .nonterminal name}) ∧
      ∀ t, (fold result.grammar.origins t).leaves = t.leaves := by
  obtain ⟨first, valid⟩ := eliminateBelow_foldsOnto unmade forward eliminated
  obtain ⟨result, factored⟩ := exists_leftFactorBelow plain valid
  have kept := keptByRounds_foldsOnto g ceiling'
  rw [← plain] at kept
  have both := kept.leftFactorBelow first factored
  refine ⟨result, factored, fun name declared => ?_, leaves_fold _⟩
  have trees := both.bijOn name declared
  simpa only [treesOf, over_rulesOf, over_loopless, and_assoc] using trees

/-- Sums with increments; `e` is left recursive, has a self-loop, and two of its repetitions begin
alike. -/
def increments : Grammar :=
  assemble (some "e")
    [("e", [[.nonterminal "e"], [.nonterminal "e", .terminal .plus, .nonterminal "t"],
       [.nonterminal "e", .terminal .plus, .terminal .plus], [.nonterminal "t"]]),
     ("t", [[.terminal .identifier],
       [.terminal .identifier, .terminal .openParen, .nonterminal "e", .terminal .closeParen]])] []

/-- `increments` without left recursion. -/
def incrementsWithTail : Grammar :=
  { assemble (some "e")
      [("e", [[.nonterminal "t", .nonterminal "__lr1"]]),
       ("t", [[.terminal .identifier],
         [.terminal .identifier, .terminal .openParen, .nonterminal "e", .terminal .closeParen]]),
       ("__lr1", [[.terminal .plus, .nonterminal "t", .nonterminal "__lr1"],
         [.terminal .plus, .terminal .plus, .nonterminal "__lr1"], []])]
      [("__lr1", ⟨.leftRecursion, "e"⟩)] with counter := 1 }

/-- `incrementsWithTail` factored: `__lr1` ends in the factoring tail `__lf3`, and that in `__lr1`. -/
def incrementsFactored : Grammar :=
  { assemble (some "e")
      [("e", [[.nonterminal "t", .nonterminal "__lr1"]]),
       ("t", [[.terminal .identifier, .nonterminal "__lf2"]]),
       ("__lr1", [[.terminal .plus, .nonterminal "__lf3"], []]),
       ("__lf2", [[], [.terminal .openParen, .nonterminal "e", .terminal .closeParen]]),
       ("__lf3", [[.nonterminal "t", .nonterminal "__lr1"],
         [.terminal .plus, .nonterminal "__lr1"]])]
      [("__lr1", ⟨.leftRecursion, "e"⟩), ("__lf2", ⟨.factor, "t"⟩),
       ("__lf3", ⟨.factor, "__lr1"⟩)] with counter := 3 }

theorem fold_bijOn_passes_increments :
    increments.origins = ∅ ∧ increments.Forward ∧
      increments.eliminateLeftRecursion.outcome = .ok incrementsWithTail ∧
      (leftFactor { FactorBudget.standard with expand := false } incrementsWithTail).outcome
        = .ok ⟨incrementsFactored, [], 1⟩ ∧
      Set.BijOn (fold incrementsFactored.origins)
        {t | t.IsDerivation incrementsFactored ∧ t.symbol = .nonterminal "e"}
        {t | t.IsDerivation increments ∧ t.LoopFree ∧ t.symbol = .nonterminal "e"} := by
  have unmade : increments.origins = ∅ := by rfl
  have forward : increments.Forward := by decide +kernel
  have eliminated : (increments.eliminateBelow expansionCeiling).outcome
      = .ok incrementsWithTail := by decide +kernel
  have factored : (leftFactorBelow expansionCeiling { FactorBudget.standard with expand := false }
      incrementsWithTail).outcome = .ok ⟨incrementsFactored, [], 1⟩ := by decide +kernel
  have plain : ({ FactorBudget.standard with expand := false } : FactorBudget).expand = false := rfl
  obtain ⟨result, returned, trees, -⟩ :=
    fold_bijOn_passes unmade forward eliminated plain expansionCeiling
  rw [factored, Except.ok.injEq] at returned
  subst returned
  exact ⟨unmade, forward, eliminated, factored, trees "e" (by decide)⟩

end Grammar

end TopDown
