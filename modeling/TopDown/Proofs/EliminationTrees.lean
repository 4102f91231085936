import TopDown.Proofs.Elimination
import TopDown.Proofs.RecursionTrees

/-
  What removing left recursion does to derivation trees where nothing is spliced.

  Nothing is spliced when no alternative begins with a nonterminal that is declared before its own
  (`Forward`). Dropping `A → A` then costs the trees in which a node stands over a node of its own
  nonterminal and nothing else, and moving the recursion into a tail costs nothing: `FoldsOnto` says
  that folding takes the trees that are there now one to one to the loop-free trees there were.
  `Unspliced` is what one nonterminal after the other keeps.
-/

namespace TopDown

namespace Tree

/-- No node stands over a node of its own nonterminal and nothing else. -/
inductive LoopFree : Tree → Prop where
  | leaf (token : Token) : LoopFree (.leaf token)
  | node {name : String} {children : List Tree} (other : children.map symbol ≠ [.nonterminal name])
      (below : ∀ t ∈ children, LoopFree t) : LoopFree (.node name children)

end Tree

namespace Grammar

open TopDown.Tree

variable {g G : Grammar} {name tail : String} {alts : List Alternative} {earlier : List String}
  {t : Tree}

/-! ## Trees of a grammar -/

/-- The alternatives of a grammar. -/
def rulesOf (g : Grammar) : Rules := fun name alt => alt ∈ g.alternatives name

/-- The alternatives of a grammar that are not of the form `A → A`. -/
def loopless (g : Grammar) : Rules := fun name alt =>
  alt ∈ g.alternatives name ∧ alt ≠ [.nonterminal name]

theorem over_rulesOf : t.Over g.rulesOf ↔ t.IsDerivation g := by
  constructor
  · intro h
    induction h with
    | leaf token => exact .leaf token
    | node alt below ih => exact .node alt ih
  · intro h
    induction h with
    | leaf token => exact .leaf token
    | node alt below ih => exact .node alt ih

theorem over_loopless : t.Over g.loopless ↔ t.IsDerivation g ∧ t.LoopFree := by
  constructor
  · intro h
    induction h with
    | leaf token => exact ⟨.leaf token, .leaf token⟩
    | node alt below ih =>
      exact ⟨.node alt.1 fun t ht => (ih t ht).1, .node alt.2 fun t ht => (ih t ht).2⟩
  · rintro ⟨derivation, free⟩
    induction derivation with
    | leaf token => exact .leaf token
    | node alt below ih =>
      cases free with
      | node other free => exact .node ⟨alt, other⟩ fun t ht => ih t ht (free t ht)

theorem loopless_eq_rulesOf (h : ∀ name, [.nonterminal name] ∉ g.alternatives name) :
    g.loopless = g.rulesOf := by
  funext n alt
  refine propext ⟨And.left, fun halt => ⟨halt, ?_⟩⟩
  rintro rfl
  exact h n halt

/-- Folding takes the trees over the rules one to one to the loop-free derivation trees of `g`, for
every nonterminal that `g` declares. -/
structure FoldsOnto (g G : Grammar) (rules : Rules) : Prop where
  declared : ∀ name ∈ g.nonterminals, name ∈ G.nonterminals
  recorded : ∀ name origin, G.origins.get? name = some origin →
    name ∈ G.nonterminals ∧ origin.owner ∈ G.nonterminals
  bijOn : ∀ name ∈ g.nonterminals,
    Set.BijOn (fold G.origins) (treesOf rules name) (treesOf g.loopless name)

/-! ## One nonterminal -/

/-- No alternative begins with a nonterminal that is declared before its own. -/
def Forward (g : Grammar) : Prop :=
  ∀ p ∈ g.productions, ∀ lead ∈ g.nonterminals, Alternative.startsWith lead p.2 = true →
    g.nonterminals.idxOf p.1 ≤ g.nonterminals.idxOf lead

instance : Decidable g.Forward :=
  inferInstanceAs (Decidable (∀ p ∈ g.productions, ∀ lead ∈ g.nonterminals, _))

theorem Forward.unled (h : g.Forward) {later : List String}
    (order : earlier ++ name :: later = g.nonterminals) :
    ∀ lead ∈ earlier, ∀ rest, .nonterminal lead :: rest ∉ g.alternatives name := by
  intro lead hlead rest halt
  have unmet := (mem_nonterminals_of_order order).2
  have le := h (name, _) (mem_productions.2 halt) lead (order ▸ List.mem_append_left _ hlead)
    (Alternative.startsWith_iff.2 ⟨rest, rfl⟩)
  rw [← order, List.idxOf_append_of_mem hlead, List.idxOf_append_of_notMem unmet] at le
  have lt := List.idxOf_lt_length_iff.2 hlead
  omega

/-- What holds of the grammar while left recursion is removed and nothing is spliced. -/
structure Unspliced (g G : Grammar) (earlier : List String) : Prop
    extends FoldsOnto g G G.loopless where
  start : G.start = g.start
  untouched : ∀ name ∈ g.nonterminals, name ∉ earlier → G.alternatives name = g.alternatives name
  recursions : ∀ name origin, G.origins.get? name = some origin →
    name ∉ g.nonterminals ∧ origin.sort = .leftRecursion ∧ origin.owner ∈ earlier
  loops : ∀ name, [.nonterminal name] ∈ G.alternatives name →
    name ∈ g.nonterminals ∧ name ∉ earlier
  defined : ∀ name, g.start = some name ∨ G.Mentions (.nonterminal name) →
    G.alternatives name ≠ []

theorem Unspliced.thaw (valid : g.validate = .ok ()) (unmade : g.origins = ∅) :
    Unspliced g g.thaw [] := by
  have never : ∀ name, g.thaw.origins.get? name = none := by
    intro name
    rw [Grammar.thaw, unmade]
    exact Catalog.get?_empty name
  have folded : fold g.thaw.origins = id := funext (fold_eq_self never)
  obtain ⟨start, hstart, present, defined⟩ := validate_eq_ok_iff.1 valid
  refine ⟨⟨fun _ h => h, ?_, ?_⟩, rfl, fun _ _ _ => rfl, ?_, ?_, ?_⟩
  · intro name origin h
    rw [never name] at h
    cases h
  · intro name _
    rw [folded]
    exact Set.bijOn_id _
  · intro name origin h
    rw [never name] at h
    cases h
  · exact fun name h => ⟨mem_nonterminals_of_mem_alternatives h, List.not_mem_nil⟩
  · rintro name (same | mentioned)
    · rw [hstart, Option.some.injEq] at same
      exact same ▸ present
    · exact defined name mentioned

section Step

variable (so_far : Unspliced g G earlier) (hname : name ∈ g.nonterminals) (unmet : name ∉ earlier)
  (same : ∀ alt, alt ∈ alts ↔ alt ∈ G.alternatives name)

/-- Self-loops do not count when two rules are compared. -/
theorem loopless_setRule
    (h : ∀ alt, alt ≠ [.nonterminal name] → (alt ∈ alts ↔ alt ∈ G.alternatives name)) :
    (G.setRule name alts).loopless = G.loopless := by
  funext n alt
  rw [loopless, loopless]
  by_cases hn : n = name
  · subst hn
    rw [alternatives_setRule_self]
    exact propext (and_congr_left (h alt))
  · rw [alternatives_setRule_of_ne hn]

include same in
/-- Self-loops are all that is lost where there are no repetitions. -/
theorem loopless_setRule_bases (none : repetitions name alts = []) :
    (G.setRule name (bases name alts)).loopless = G.loopless := by
  refine loopless_setRule fun alt other => ?_
  rw [mem_bases, ← same]
  refine ⟨And.left, fun halt => ?_⟩
  rcases mem_bases_or_repetitions halt with base | loop | ⟨b, hb, -⟩
  · exact mem_bases.1 base
  · exact absurd loop other
  · rw [none] at hb
    cases hb

include so_far same in
/-- What needs an alternative keeps one, when the alternatives that stay include a base. -/
theorem Unspliced.bases_ne_nil (based : alts ≠ [] → bases name alts ≠ [])
    (needed : g.start = some name ∨ G.Mentions (.nonterminal name)) : bases name alts ≠ [] := by
  obtain ⟨alt, halt⟩ := List.exists_mem_of_ne_nil _ (so_far.defined name needed)
  exact based (List.ne_nil_of_mem ((same alt).2 halt))

include so_far same in
theorem Unspliced.dropLoops (none : repetitions name alts = [])
    (based : alts ≠ [] → bases name alts ≠ []) :
    Unspliced g (G.setRule name (bases name alts)) (earlier ++ [name]) where
  declared n hn := mem_nonterminals_setRule.2 (Or.inr (so_far.declared n hn))
  recorded n origin h := by
    obtain ⟨hn, howner⟩ := so_far.recorded n origin h
    exact ⟨mem_nonterminals_setRule.2 (Or.inr hn), mem_nonterminals_setRule.2 (Or.inr howner)⟩
  bijOn n hn := by
    rw [loopless_setRule_bases same none]
    exact so_far.bijOn n hn
  start := so_far.start
  untouched n hn later := by
    rw [List.mem_append, List.mem_singleton, not_or] at later
    rw [alternatives_setRule_of_ne later.2]
    exact so_far.untouched n hn later.1
  recursions n origin h := by
    obtain ⟨new, sort, howner⟩ := so_far.recursions n origin h
    exact ⟨new, sort, List.mem_append_left _ howner⟩
  loops n h := by
    have hne : n ≠ name := by
      rintro rfl
      rw [alternatives_setRule_self] at h
      exact (mem_bases.1 h).2 (Alternative.startsWith_iff.2 ⟨[], rfl⟩)
    rw [alternatives_setRule_of_ne hne] at h
    obtain ⟨hn, later⟩ := so_far.loops n h
    exact ⟨hn, by simp [later, hne]⟩
  defined n needed := by
    have before : g.start = some n ∨ G.Mentions (.nonterminal n) := by
      refine needed.imp_right fun mentioned => ?_
      rcases mentioned.of_setRule with mentioned | ⟨alt, halt, hs⟩
      · exact mentioned
      · exact ⟨name, alt, (same alt).1 (mem_bases.1 halt).1, hs⟩
    by_cases hn : n = name
    · subst hn
      rw [alternatives_setRule_self]
      exact so_far.bases_ne_nil same based before
    · rw [alternatives_setRule_of_ne hn]
      exact so_far.defined n before

/-- Moving the recursion of one nonterminal into a tail, in terms of rules. -/
theorem recursionRules_withTail (mentions : ∀ alt ∈ alts, ∀ s ∈ alt, G.Mentions s)
    (declared : name ∈ G.nonterminals) :
    RecursionRules (G.setRule name alts).loopless (G.withTail name alts).loopless name
      (G.recursionTail name).1 := by
  have split := recursionSplit_withTail mentions declared
  have ne := recursionTail_ne declared
  have begins : ∀ alt : Alternative, Alternative.startsWith name alt = true ↔
      alt.head? = some (.nonterminal name) := by
    intro alt
    rw [Alternative.startsWith_iff, List.head?_eq_some_iff]
  refine ⟨?_, ?_, ?_, ne, ?_, ?_⟩
  · intro alt
    rw [loopless, split.owner_alts]
    simp only [loopless, alternatives_setRule_self, mem_bases, begins]
    constructor
    · rintro ⟨⟨base, ⟨halt, other⟩, rfl⟩, -⟩
      refine ⟨base, ⟨halt, ?_⟩, other, rfl⟩
      rintro rfl
      exact other rfl
    · rintro ⟨base, ⟨halt, -⟩, other, rfl⟩
      refine ⟨⟨base, ⟨halt, other⟩, rfl⟩, fun same => ?_⟩
      have last := congrArg List.getLast? same
      rw [List.getLast?_concat, List.getLast?_singleton, Option.some.injEq] at last
      exact ne (Symbol.nonterminal.inj last)
  · intro alt
    rw [loopless, split.tail_alts]
    simp only [loopless, alternatives_setRule_self, mem_repetitions, ne_eq, List.cons.injEq,
      true_and]
    constructor
    · rintro ⟨rfl | ⟨b, ⟨nonempty, halt⟩, rfl⟩, -⟩
      · exact Or.inl rfl
      · exact Or.inr ⟨b, ⟨halt, nonempty⟩, rfl⟩
    · rintro (rfl | ⟨more, ⟨halt, nonempty⟩, rfl⟩)
      · exact ⟨Or.inl rfl, List.cons_ne_nil _ _ ∘ Eq.symm⟩
      · exact ⟨Or.inr ⟨more, ⟨nonempty, halt⟩, rfl⟩, by simpa using nonempty⟩
  · intro n hn ht alt
    rw [loopless, loopless, split.same n hn ht]
  · exact fun alt halt => split.undeclared (mem_nonterminals_of_mem_alternatives halt.1)
  · exact fun n alt halt hs => split.unmentioned ⟨n, alt, halt.1, hs⟩

include so_far hname unmet in
/-- Folding with the new tail on record is folding it away first. -/
theorem Unspliced.fold_withTail :
    fold (G.withTail name alts).origins
      = fold G.origins ∘ unwindTail name (G.recursionTail name).1 := by
  have fresh : (G.recursionTail name).1 ∉ G.nonterminals := synthesize_notMem_nonterminals
  have unnamed : G.origins.get? (G.recursionTail name).1 = none := by
    rw [Option.eq_none_iff_forall_ne_some]
    exact fun origin h => fresh (so_far.recorded _ origin h).1
  have original : G.origins.get? name = none := by
    rw [Option.eq_none_iff_forall_ne_some]
    exact fun origin h => (so_far.recursions _ origin h).1 hname
  have unowned : ∀ inner origin, G.origins.get? inner = some origin →
      origin.owner ≠ (G.recursionTail name).1 ∧ origin.owner ≠ name := by
    intro inner origin h
    constructor
    · intro owned
      exact fresh (owned ▸ (so_far.recorded inner origin h).2)
    · intro owned
      exact unmet (owned ▸ (so_far.recursions inner origin h).2.2)
  have sorts := fun inner origin h => (so_far.recursions inner origin h).2.1
  have ne := recursionTail_ne (so_far.declared name hname)
  exact funext (fold_set_recursion sorts unnamed original unowned ne)

theorem RecursionSplit.ne_of_selfLoop {g₁ g₂ : Grammar} {others repeated : List Alternative}
    (split : RecursionSplit g₁ g₂ name tail others repeated) (nonempty : [] ∉ repeated)
    (ne : tail ≠ name) {n : String} (h : [.nonterminal n] ∈ g₂.alternatives n) :
    n ≠ name ∧ n ≠ tail := by
  constructor
  · rintro rfl
    obtain ⟨a, -, loop⟩ := (split.owner_alts _).1 h
    have last : n = tail := by simpa using congrArg List.getLast? loop
    exact ne last.symm
  · rintro rfl
    rcases (split.tail_alts _).1 h with empty | ⟨b, hb, loop⟩
    · cases empty
    · have none : b = [] := by simpa using loop
      exact nonempty (none ▸ hb)

include so_far hname unmet same in
theorem Unspliced.withTail (based : alts ≠ [] → bases name alts ≠ []) :
    Unspliced g (G.withTail name alts) (earlier ++ [name]) := by
  have declaredG := so_far.declared name hname
  have mentions : ∀ alt ∈ alts, ∀ s ∈ alt, G.Mentions s :=
    fun alt halt s hs => ⟨name, alt, (same alt).1 halt, hs⟩
  have split := recursionSplit_withTail mentions declaredG
  have rules := recursionRules_withTail mentions declaredG
  rw [loopless_setRule fun alt _ => same alt] at rules
  have fresh : (G.recursionTail name).1 ∉ G.nonterminals := synthesize_notMem_nonterminals
  have kept : ∀ n ∈ G.nonterminals, n ∈ (G.withTail name alts).nonterminals :=
    fun n hn => mem_nonterminals_withTail (mem_nonterminals_setRule.2 (Or.inr hn))
  have old : ∀ n ∈ g.nonterminals, n ≠ (G.recursionTail name).1 := by
    rintro n hn rfl
    exact fresh (so_far.declared _ hn)
  have others : ∀ n, n ≠ name → n ≠ (G.recursionTail name).1 →
      (G.withTail name alts).alternatives n = G.alternatives n := by
    intro n hn ht
    rw [split.same n hn ht, alternatives_setRule_of_ne hn]
  refine ⟨⟨fun n hn => kept n (so_far.declared n hn), ?_, ?_⟩, so_far.start, ?_, ?_, ?_, ?_⟩
  · intro n origin h
    rcases origin_withTail.1 h with ⟨rfl, rfl⟩ | ⟨-, h⟩
    · exact ⟨mem_nonterminals_setRule.2 (Or.inl rfl), kept name declaredG⟩
    · obtain ⟨hn, howner⟩ := so_far.recorded n origin h
      exact ⟨kept n hn, kept _ howner⟩
  · intro n hn
    rw [so_far.fold_withTail hname unmet]
    exact (so_far.bijOn n hn).comp (rules.bijOn_unwindTail (old n hn))
  · intro n hn later
    rw [List.mem_append, List.mem_singleton, not_or] at later
    rw [others n later.2 (old n hn)]
    exact so_far.untouched n hn later.1
  · intro n origin h
    rcases origin_withTail.1 h with ⟨rfl, rfl⟩ | ⟨-, h⟩
    · exact ⟨fun hn => old _ hn rfl, rfl, List.mem_append_right _ List.mem_cons_self⟩
    · obtain ⟨new, sort, howner⟩ := so_far.recursions n origin h
      exact ⟨new, sort, List.mem_append_left _ howner⟩
  · intro n h
    obtain ⟨hn, ht⟩ := split.ne_of_selfLoop (fun h => (mem_repetitions.1 h).1 rfl) rules.ne h
    rw [others n hn ht] at h
    obtain ⟨declared, later⟩ := so_far.loops n h
    exact ⟨declared, by simp [later, hn]⟩
  · intro n needed
    by_cases ht : n = (G.recursionTail name).1
    · exact ht ▸ List.ne_nil_of_mem ((split.tail_alts []).2 (Or.inl rfl))
    · have before : g.start = some n ∨ G.Mentions (.nonterminal n) := by
        refine needed.imp_right fun mentioned => ?_
        rcases split.mentions mentioned with new | mentioned
        · exact absurd (Symbol.nonterminal.inj new) ht
        · rcases mentioned.of_setRule with mentioned | ⟨alt, halt, hs⟩
          · exact mentioned
          · exact mentions alt halt _ hs
      by_cases hn : n = name
      · subst hn
        obtain ⟨a, ha⟩ := List.exists_mem_of_ne_nil _ (so_far.bases_ne_nil same based before)
        exact List.ne_nil_of_mem ((split.owner_alts _).2 ⟨a, ha, rfl⟩)
      · rw [others n hn ht]
        exact so_far.defined n before

end Step

/-! ## The whole pass -/

/-- Where nothing is spliced, removing left recursion leaves a valid grammar without self-loops,
whose trees fold to the loop-free trees there were. -/
theorem eliminateBelow_foldsOnto {ceiling : Nat} {g' : Grammar} (unmade : g.origins = ∅)
    (forward : g.Forward) (h : (g.eliminateBelow ceiling).outcome = .ok g') :
    FoldsOnto g g' g'.rulesOf ∧ g'.validate = .ok () := by
  have valid : g.validate = .ok () := by
    unfold eliminateBelow at h
    obtain ⟨⟨⟩, valid, -⟩ := Traced.outcome_bind_eq_ok.1 h
    exact valid
  have step : ∀ {G G' : Grammar} {earlier later : List String} {name : String}
      {alts : List Alternative}, earlier ++ name :: later = g.nonterminals →
      Unspliced g G earlier → G.expandedAlternatives ceiling earlier name = .ok alts →
      (G.splitRecursion name alts).outcome = .ok G' → Unspliced g G' (earlier ++ [name]) := by
    intro G G' earlier later name alts order so_far expanded split
    obtain ⟨hname, unmet⟩ := mem_nonterminals_of_order order
    have unled := forward.unled order
    rw [← so_far.untouched name hname unmet] at unled
    have same : ∀ alt, alt ∈ alts ↔ alt ∈ G.alternatives name :=
      fun alt => mem_expanded_iff expanded unled
    obtain ⟨based, ⟨none, rfl⟩ | ⟨-, rfl⟩⟩ := splitRecursion_cases split
    · exact so_far.dropLoops same none based
    · exact so_far.withTail hname unmet same based
  obtain ⟨last, pass, rfl⟩ := eliminateBelow_induction (.thaw valid unmade) step h
  have loops : ∀ name, [.nonterminal name] ∉ last.alternatives name :=
    fun name loop => (pass.loops name loop).2 (pass.loops name loop).1
  obtain ⟨start, hstart, -⟩ := validate_eq_ok_iff.1 valid
  refine ⟨⟨pass.declared, pass.recorded, ?_⟩, ?_⟩
  · intro name declared
    have same : last.freeze.rulesOf = last.loopless := (loopless_eq_rulesOf loops).symm
    rw [same]
    exact pass.bijOn name declared
  · refine validate_eq_ok_iff.2 ⟨start, pass.start.trans hstart, ?_, ?_⟩
    · exact pass.defined start (Or.inl hstart)
    · exact fun name mentioned => pass.defined name (Or.inr mentioned)

end Grammar

end TopDown
