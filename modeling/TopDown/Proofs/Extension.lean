import TopDown.Proofs.Conflicts
import TopDown.Proofs.FactoredForm

/-
  What the passes add to a grammar.

  A pass keeps the start symbol, the declared nonterminals in their places and what is on record of
  them. What it adds are made-up nonterminals, declared last, each on record with its purpose and
  with an owner that is declared before it (`Extends`). The counter travels with the grammar and
  only goes up, so a number is used once: an extension of an extension is one (`Extends.trans`).

  The changes that the passes are made of either leave names, record and counter alone, or make up
  one name (`extends_synthesize`). Where an expansion is undone, the grammar before it goes on with
  the counter it had, and has none of the names that were made since.
-/

namespace TopDown

/-- What the name of a nonterminal that was made up for a purpose, with a number, looks like. -/
inductive Origin.Sort.Names : Origin.Sort → Nat → String → Prop where
  | leftRecursion (number : Nat) : Names .leftRecursion number ("__lr" ++ toString number)
  | factor (number : Nat) : Names .factor number ("__lf" ++ toString number)

namespace Grammar

variable {g g' g₁ g₂ g₃ G G' last : Grammar} {name owner : String} {alts : List Alternative}
  {tails : List String} {ceiling : Nat} {sizeLimit : Int}

/-- `g'` is `g` with other rules and with further nonterminals that were made up. What is declared
keeps its place and its origin. A further nonterminal is named by its purpose and a number, of which
there is one for each; it is on record with its purpose and an owner that comes before it. -/
structure Extends (g g' : Grammar) : Prop where
  start : g'.start = g.start
  names : g.nonterminals <+: g'.nonterminals
  origins : ∀ n ∈ g.nonterminals, g'.origins.get? n = g.origins.get? n
  counter : g.counter ≤ g'.counter
  madeUp : ∀ n ∈ g'.nonterminals, n ∉ g.nonterminals → ∃ sort number owner,
    sort.Names number n ∧ g'.origins.get? n = some ⟨sort, owner⟩ ∧
      g'.nonterminals.idxOf owner < g'.nonterminals.idxOf n ∧
      g.counter < number ∧ number ≤ g'.counter
  apart : ∀ n ∈ g'.nonterminals, n ∉ g.nonterminals →
    ∀ n' ∈ g'.nonterminals, n' ∉ g.nonterminals →
      ∀ (sort sort' : Origin.Sort) (number : Nat),
        sort.Names number n → sort'.Names number n' → n = n'

/-! ## Numbers -/

/-- The number can be read off the name. -/
theorem number_unique {sort sort' : Origin.Sort} {number number' : Nat} (h : sort.Names number name)
    (h' : sort'.Names number' name) : number = number' := by
  have other : ∀ m n : Nat, "__lr" ++ toString m ≠ "__lf" ++ toString n := by
    intro m n same
    have letters := congrArg (fun text => text.toList[3]?) same
    simp at letters
  generalize same : name = name' at h'
  cases h with
  | leftRecursion =>
    cases h' with
    | leftRecursion =>
      have spelled : FreshName.spell "lr" number = FreshName.spell "lr" number' := same
      exact Int.ofNat.inj (FreshName.spell_injective "lr" spelled)
    | factor => exact absurd same (other _ _)
  | factor =>
    cases h' with
    | leftRecursion => exact absurd same.symm (other _ _)
    | factor =>
      have spelled : FreshName.spell "lf" number = FreshName.spell "lf" number' := same
      exact Int.ofNat.inj (FreshName.spell_injective "lf" spelled)

namespace Extends

theorem of_same (start : g'.start = g.start) (names : g'.nonterminals = g.nonterminals)
    (origins : g'.origins = g.origins) (counter : g'.counter = g.counter) : g.Extends g' where
  start := start
  names := names ▸ List.prefix_refl _
  origins n _ := by rw [origins]
  counter := Nat.le_of_eq counter.symm
  madeUp n declared new := absurd (names ▸ declared) new
  apart n declared new := absurd (names ▸ declared) new

theorem refl (g : Grammar) : g.Extends g :=
  of_same rfl rfl rfl rfl

theorem freeze (g : Grammar) : g.Extends g.freeze :=
  of_same rfl rfl rfl rfl

theorem thaw (g : Grammar) : g.Extends g.thaw :=
  of_same rfl rfl rfl rfl

theorem declared (h : g.Extends g') (declared : name ∈ g.nonterminals) : name ∈ g'.nonterminals :=
  h.names.subset declared

/-- A number is above the counter before it was used, and not above the counter after. -/
theorem number_bounds (h : g.Extends g') (declared : name ∈ g'.nonterminals)
    (new : name ∉ g.nonterminals) {sort : Origin.Sort} {number : Nat}
    (named : sort.Names number name) : g.counter < number ∧ number ≤ g'.counter := by
  obtain ⟨_, _, _, spelled, -, -, bounds⟩ := h.madeUp name declared new
  rwa [number_unique named spelled]

/-- Names keep their places. -/
theorem idxOf_eq (h : g.Extends g') (declared : name ∈ g.nonterminals) :
    g'.nonterminals.idxOf name = g.nonterminals.idxOf name := by
  obtain ⟨further, whole⟩ := h.names
  rw [← whole, List.idxOf_append_of_mem declared]

theorem trans (h₁ : g₁.Extends g₂) (h₂ : g₂.Extends g₃) : g₁.Extends g₃ where
  start := h₂.start.trans h₁.start
  names := h₁.names.trans h₂.names
  origins n hn := (h₂.origins n (h₁.declared hn)).trans (h₁.origins n hn)
  counter := h₁.counter.trans h₂.counter
  madeUp n declared new := by
    by_cases early : n ∈ g₂.nonterminals
    · obtain ⟨sort, number, owner, named, origin, before, above, below⟩ := h₁.madeUp n early new
      have known : owner ∈ g₂.nonterminals :=
        List.idxOf_lt_length_iff.1 (before.trans (List.idxOf_lt_length_of_mem early))
      refine ⟨sort, number, owner, named, (h₂.origins n early).trans origin, ?_, above,
        below.trans h₂.counter⟩
      rwa [h₂.idxOf_eq known, h₂.idxOf_eq early]
    · obtain ⟨sort, number, owner, named, origin, before, above, below⟩ :=
        h₂.madeUp n declared early
      exact ⟨sort, number, owner, named, origin, before, h₁.counter.trans_lt above, below⟩
  apart n declared new n' declared' new' sort sort' number named named' := by
    by_cases early : n ∈ g₂.nonterminals
    · by_cases early' : n' ∈ g₂.nonterminals
      · exact h₁.apart n early new n' early' new' sort sort' number named named'
      · -- an early number is not above the counter between the two, and a late one is
        have := h₁.number_bounds early new named
        have := h₂.number_bounds declared' early' named'
        omega
    · by_cases early' : n' ∈ g₂.nonterminals
      · have := h₁.number_bounds early' new' named'
        have := h₂.number_bounds declared early named
        omega
      · exact h₂.apart n declared early n' declared' early' sort sort' number named named'

/-- A nonterminal that is declared may be given any rule. -/
theorem setRule (h : g.Extends G) (declared : name ∈ G.nonterminals) :
    g.Extends (G.setRule name alts) :=
  h.trans (of_same rfl (nonterminals_setRule alts declared) rfl rfl)

end Extends

/-! ## Making up a name -/

theorem extends_synthesize {tag : String} {sort : Origin.Sort}
    (spelled : ∀ number : Nat, sort.Names number (FreshName.spell tag number))
    (declared : owner ∈ g.nonterminals) : g.Extends (g.synthesize tag ⟨sort, owner⟩).2 where
  start := rfl
  names := by
    rw [nonterminals_synthesize]
    exact List.prefix_append _ _
  origins n hn := by
    have fresh : (g.synthesize tag ⟨sort, owner⟩).1 ∉ g.nonterminals :=
      synthesize_notMem_nonterminals
    exact Catalog.get?_set_of_ne _ _ (ne_of_mem_of_not_mem hn fresh)
  counter := Nat.le_of_lt (FreshName.lt_toNat_next ..)
  madeUp n hn new := by
    obtain rfl := (mem_nonterminals_synthesize.1 hn).resolve_right new
    have named := spelled (FreshName.next g.counter tag g.usedNames).toNat
    rw [FreshName.toNat_next] at named
    refine ⟨sort, _, owner, named, Catalog.get?_set_self .., ?_,
      FreshName.lt_toNat_next .., Nat.le_refl _⟩
    rw [nonterminals_synthesize, List.idxOf_append_of_mem declared, List.idxOf_append_of_notMem new,
      List.idxOf_cons_self]
    exact List.idxOf_lt_length_of_mem declared
  apart n hn new n' hn' new' _ _ _ _ _ := by
    rw [mem_nonterminals_synthesize] at hn hn'
    rw [hn.resolve_right new, hn'.resolve_right new']

theorem extends_recursionTail (declared : owner ∈ g.nonterminals) :
    g.Extends (g.recursionTail owner).2 :=
  extends_synthesize .leftRecursion declared

theorem extends_factorTail (declared : owner ∈ g.nonterminals) :
    g.Extends (g.factorTail owner).2 :=
  extends_synthesize .factor declared

/-! ## Removing left recursion -/

theorem Extends.withTail (h : g.Extends G) (declared : name ∈ G.nonterminals) :
    g.Extends (G.withTail name alts) := by
  have made : G.Extends (G.recursionTail name).2 := extends_recursionTail declared
  have tail : (G.recursionTail name).1 ∈ (G.recursionTail name).2.nonterminals :=
    mem_nonterminals_synthesize.2 (Or.inl rfl)
  unfold Grammar.withTail
  refine ((h.trans made).setRule (made.declared declared)).setRule ?_
  exact mem_nonterminals_setRule.2 (Or.inr tail)

theorem Extends.splitRecursion (h : g.Extends G) (declared : name ∈ G.nonterminals)
    (split : (G.splitRecursion name alts).outcome = .ok G') : g.Extends G' := by
  obtain ⟨-, ⟨-, rfl⟩ | ⟨-, rfl⟩⟩ := splitRecursion_cases split
  · exact h.setRule declared
  · exact h.withTail declared

theorem eliminateBelow_extends (h : (g.eliminateBelow ceiling).outcome = .ok g') :
    g.Extends g' := by
  obtain ⟨last, pass, rfl⟩ := eliminateBelow_induction (P := fun G _ => g.Extends G) (.thaw g)
    (fun order so_far _ split =>
      so_far.splitRecursion (so_far.declared (mem_nonterminals_of_order order).1) split) h
  exact pass.trans (.freeze last)

/-! ## Factoring -/

theorem Extends.join {acc : Joined} {alt : Alternative} {group : List Alternative}
    (h : g.Extends acc.grammar) (declared : owner ∈ acc.grammar.nonterminals) :
    g.Extends (acc.join owner alt group).grammar :=
  (h.trans (extends_factorTail declared)).setRule (mem_nonterminals_synthesize.2 (Or.inl rfl))

theorem Extends.factorRule (h : g.Extends G) (declared : name ∈ G.nonterminals)
    (factored : (G.factorRule name).outcome = .ok (G', tails)) : g.Extends G' := by
  unfold Grammar.factorRule at factored
  obtain ⟨joined, hjoined, factored⟩ := Traced.outcome_bind_eq_ok.1 factored
  cases factored
  have whole : G.Extends joined.grammar :=
    joinAlternatives_induction (P := fun acc _ => G.Extends acc.grammar)
      (fun _ _ _ _ so_far => so_far)
      (fun _ _ _ _ _ so_far => so_far.join (so_far.declared declared)) (.refl G) hjoined
  exact (h.trans whole).setRule (whole.declared declared)

theorem factorAll_extends (h : g.factorAll.outcome = .ok last) : g.Extends last :=
  factorAll_induction (P := fun G _ => g.Extends G) (.refl g)
    (fun listed _ factored so_far =>
      so_far.factorRule (listed.declared _ List.mem_cons_self) factored) h

/-! ## Rounds -/

/-- Conflicts are expanded in declared nonterminals, and no name is made up for it. -/
theorem expandConflicts_extends (g : Grammar) : g.Extends (g.expandConflicts g.conflicts).1 := by
  have run : ∀ (names : List String) (state : Grammar × Bool),
      (∀ n ∈ names, n ∈ g.nonterminals) → g.Extends state.1 →
        g.Extends (names.foldl (expandConflictsOf g.conflicts) state).1 := by
    intro names
    induction names with
    | nil => exact fun _ _ so_far => so_far
    | cons name rest ih =>
      intro state declared so_far
      obtain ⟨here, later⟩ := List.forall_mem_cons.1 declared
      exact ih _ later (so_far.setRule (so_far.declared here))
  refine run _ (g, false) (fun n hn => ?_) (.refl g)
  obtain ⟨c, hc, rfl⟩ := List.mem_map.1 (List.mem_eraseDups.1 hn)
  exact declared_of_mem_conflicts hc

theorem repairRecursion_extends (h : (g.repairRecursion ceiling).outcome = .ok (.ok g')) :
    g.Extends g' := by
  rcases repairRecursion_eq_ok h with rfl | eliminated
  · exact .refl g'
  · exact eliminateBelow_extends eliminated

theorem expandRound_extends
    (h : (g.expandRound ceiling g.conflicts sizeLimit).outcome = .ok (some g')) :
    g.Extends g' := by
  obtain ⟨r, repaired, -, rfl⟩ := expandRound_eq_some h
  exact (expandConflicts_extends g).trans ((repairRecursion_extends repaired).trans (.thaw r))

/-- An expansion that is undone leaves no trace: every round begins with an extension. -/
theorem RoundStart.extends (start : RoundStart ceiling sizeLimit g G) : g.Extends G := by
  induction start with
  | first => exact .refl g
  | next _ returned expanded ih =>
    exact ih.trans ((factorAll_extends returned).trans (expandRound_extends expanded))

theorem leftFactorBelow_extends {budget : FactorBudget} {result : Factored}
    (h : (leftFactorBelow ceiling budget g).outcome = .ok result) : g.Extends result.grammar := by
  obtain ⟨-, G, last, start, returned, same⟩ := leftFactorBelow_exit h
  rw [same]
  have rounds : g.Extends G := (Extends.thaw g).trans start.extends
  exact rounds.trans ((factorAll_extends returned).trans (.freeze last))

/-- The passes extend a grammar, whatever the nesting ceiling and the budget. They keep the start
symbol, the declared nonterminals in their places and the record of these; every further
nonterminal is made up, with a number of its own that is above the counter before the pass and not
above the counter after it, and is on record with an owner that is declared before it. -/
theorem passes_extend (ceiling : Nat) (g : Grammar) :
    (∀ g', (g.eliminateBelow ceiling).outcome = .ok g' → g.Extends g') ∧
      ∀ budget result, (leftFactorBelow ceiling budget g).outcome = .ok result →
        g.Extends result.grammar :=
  ⟨fun _ returned => eliminateBelow_extends returned,
    fun _ _ returned => leftFactorBelow_extends returned⟩

theorem passes_extend_tails :
    sums.eliminateLeftRecursion.outcome = .ok sumsWithTails ∧ sums.Extends sumsWithTails ∧
      (leftFactor .standard dangling).outcome
        = .ok ⟨danglingFactored, [⟨"__lf1", .semicolon, [0, 1]⟩], 1⟩ ∧
      dangling.Extends danglingFactored := by
  have eliminated : (sums.eliminateBelow expansionCeiling).outcome = .ok sumsWithTails := by rfl
  have factored : (leftFactorBelow expansionCeiling .standard dangling).outcome
      = .ok ⟨danglingFactored, [⟨"__lf1", .semicolon, [0, 1]⟩], 1⟩ := by decide +kernel
  exact ⟨eliminated, (passes_extend expansionCeiling sums).1 _ eliminated, factored,
    (passes_extend expansionCeiling dangling).2 _ _ factored⟩

end Grammar

end TopDown
