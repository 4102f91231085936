import TopDown.Proofs.Factoring

/-
  When the passes hand on a valid grammar.

  Splicing cuts what it has met before, and a nonterminal all of whose alternatives are cut is left
  without any. It derives no word then, for the cuts keep its language. So nothing of the kind
  happens in a grammar whose start symbol and references all derive some word: `Productive` is kept
  by every change of either pass (`eliminateBelow_productive`, `keptByRounds_productive`), and what
  derives a word has an alternative.

  Without this the result may be refused: `hiddenLoop` is valid, and what removing its left
  recursion returns is not.
-/

namespace TopDown.Grammar

variable {g g' g₁ g₂ : Grammar} {name owner tail : String}

/-- The start symbol and every nonterminal that is referred to derive some word. -/
def Productive (g : Grammar) : Prop :=
  ∀ name, g.start = some name ∨ g.Mentions (.nonterminal name) →
    ∃ w : List Kind, g.Derives [.nonterminal name] (w.map .terminal)

namespace Productive

theorem validate (h : g.Productive) {start : String} (hstart : g.start = some start) :
    g.validate = .ok () := by
  have some_alternative : ∀ name, g.start = some name ∨ g.Mentions (.nonterminal name) →
      g.alternatives name ≠ [] := by
    intro name needed
    obtain ⟨w, hw⟩ := h name needed
    obtain ⟨alt, halt, -⟩ := exists_alternative hw
    exact List.ne_nil_of_mem halt
  refine validate_eq_ok_iff.2 ⟨start, hstart, some_alternative start (Or.inl hstart), ?_⟩
  exact fun name mentioned => some_alternative name (Or.inr mentioned)

/-- A conservative change keeps a grammar productive when all that it newly refers to derives some
word. -/
theorem of_conservative (h : g.Productive) (same : g.Conservative g')
    (new : ∀ name, g'.Mentions (.nonterminal name) →
      g.Mentions (.nonterminal name) ∨ ∃ w, w ∈ g'.language name) : g'.Productive := by
  have old : ∀ name, g.start = some name ∨ g.Mentions (.nonterminal name) →
      ∃ w, w ∈ g'.language name := by
    intro name needed
    obtain ⟨w, hw⟩ := h name needed
    obtain ⟨alt, halt, -⟩ := exists_alternative hw
    exact ⟨w, (same.language name (mem_nonterminals_of_mem_alternatives halt)).symm ▸ hw⟩
  rintro name (hstart | mentioned)
  · exact old name (Or.inl (same.start ▸ hstart))
  · rcases new name mentioned with mentioned | word
    · exact old name (Or.inr mentioned)
    · exact word

theorem freeze (h : g.Productive) : g.freeze.Productive :=
  h.of_conservative (.freeze g) fun _ mentioned => Or.inl mentioned

theorem thaw (h : g.Productive) : g.thaw.Productive :=
  h.of_conservative (.thaw g) fun _ mentioned => Or.inl mentioned

/-- Symbols that occur in a productive grammar derive some word one after the other. -/
theorem exists_word (h : g.Productive) {s : List Symbol} (mentioned : ∀ a ∈ s, g.Mentions a) :
    ∃ w, w ∈ Alternative.language g.language s := by
  induction s with
  | nil => exact ⟨[], rfl⟩
  | cons a s ih =>
    obtain ⟨v, hv⟩ := ih fun b hb => mentioned b (List.mem_cons_of_mem a hb)
    have first : ∃ u, u ∈ a.language g.language := by
      cases a with
      | terminal kind => exact ⟨[kind], rfl⟩
      | nonterminal name => exact h name (Or.inr (mentioned _ List.mem_cons_self))
    obtain ⟨u, hu⟩ := first
    exact ⟨u ++ v, Alternative.language_cons a s ▸ Language.append_mem_mul hu hv⟩

end Productive

/-! ## Removing left recursion -/

section Elimination

variable {alts : List Alternative} {earlier : List String} {ceiling : Nat}

theorem productive_expanded (h : g.Productive)
    (expanded : g.expandedAlternatives ceiling earlier name = .ok alts) (unmet : name ∉ earlier) :
    (g.setRule name alts).Productive := by
  refine h.of_conservative (conservative_expanded expanded unmet) fun n mentioned => Or.inl ?_
  rcases mentioned.of_setRule with mentioned | ⟨alt, halt, hs⟩
  · exact mentioned
  · exact mentions_of_mem_expanded expanded alt halt _ hs

theorem productive_splitRecursion (h : (g.setRule name alts).Productive)
    (mentions : ∀ alt ∈ alts, ∀ s ∈ alt, g.Mentions s) (declared : name ∈ g.nonterminals)
    (split : (g.splitRecursion name alts).outcome = .ok g₂) : g₂.Productive := by
  refine h.of_conservative (conservative_splitRecursion mentions declared split) ?_
  intro n mentioned
  obtain ⟨-, ⟨-, rfl⟩ | ⟨-, rfl⟩⟩ := splitRecursion_cases split
  · obtain ⟨user, alt, halt, hs⟩ := mentioned
    refine Or.inl ⟨user, alt, ?_, hs⟩
    by_cases hu : user = name
    · subst hu
      rw [alternatives_setRule_self] at halt ⊢
      exact (mem_bases.1 halt).1
    · rwa [alternatives_setRule_of_ne hu] at halt ⊢
  · have tailed := recursionSplit_withTail mentions declared
    rcases tailed.mentions mentioned with same | mentioned
    · obtain rfl := Symbol.nonterminal.inj same
      exact Or.inr ⟨[], tailed.nil_mem⟩
    · exact Or.inl mentioned

theorem eliminateBelow_productive (h : g.Productive)
    (returned : (g.eliminateBelow ceiling).outcome = .ok g') : g'.Productive := by
  let P : Grammar → List String → Prop := fun G _ => g.Conservative G ∧ G.Productive
  have step : ∀ {G G' : Grammar} {earlier later : List String} {name : String}
      {alts : List Alternative}, earlier ++ name :: later = g.nonterminals → P G earlier →
      G.expandedAlternatives ceiling earlier name = .ok alts →
      (G.splitRecursion name alts).outcome = .ok G' → P G' (earlier ++ [name]) := by
    rintro G G' earlier later name alts order ⟨so_far, productive⟩ expanded split
    obtain ⟨declared, unmet⟩ := mem_nonterminals_of_order order
    refine ⟨so_far.eliminate order expanded split, ?_⟩
    exact productive_splitRecursion (productive_expanded productive expanded unmet)
      (mentions_of_mem_expanded expanded) (so_far.declared name declared) split
  obtain ⟨last, ⟨-, productive⟩, rfl⟩ := eliminateBelow_induction (P := P) ⟨.thaw g, h.thaw⟩ step returned
  exact productive.freeze

end Elimination

/-! ## Left factoring -/

/-- The remainders of joined alternatives are made of symbols that derive some word. -/
theorem PrefixSplit.exists_tail_word {common : Alternative} {remainders : List Alternative}
    (split : PrefixSplit g₁ g₂ owner tail common remainders) (h : g₁.Productive) :
    ∃ w, w ∈ g₂.language tail := by
  obtain ⟨r, hr⟩ := List.exists_mem_of_ne_nil remainders split.nonempty
  have mentioned : ∀ a ∈ r, g₁.Mentions a :=
    fun a ha => ⟨owner, _, split.remainder_mem r hr, List.mem_append_right _ ha⟩
  obtain ⟨w, hw⟩ := h.exists_word mentioned
  have old_le_new := Alternative.language_mono (language_le_of_closed split.forward) r
  exact ⟨w, mem_language_of_alternative ((split.tail_alts r).2 hr) (old_le_new hw)⟩

theorem mentions_expandRule {indices : List Nat} {s : Symbol}
    (h : (g.setRule owner (g.expandRule owner indices).1).Mentions s) : g.Mentions s := by
  rcases h.of_setRule with h | ⟨alt, halt, hs⟩
  · exact h
  · rcases mem_expandRule_cases halt with halt | ⟨lead, rest, front, hold, hfront, rfl⟩
    · exact ⟨owner, alt, halt, hs⟩
    · rcases List.mem_append.1 hs with hs | hs
      · exact ⟨lead, front, hfront, hs⟩
      · exact ⟨owner, _, hold, List.mem_cons_of_mem _ hs⟩

/-- Every change of a round keeps a grammar productive. -/
theorem keptByRounds_productive (ceiling : Nat) (expand : Bool) :
    KeptByRounds ceiling expand Productive where
  distinct g name h := by
    refine h.of_conservative (conservative_distinct g name) fun n mentioned => Or.inl ?_
    rcases mentioned.of_setRule with mentioned | ⟨alt, halt, hs⟩
    · exact mentioned
    · exact ⟨name, alt, Alternative.mem_distinct.1 halt, hs⟩
  join owner acc alt rest _ known h := by
    refine h.of_conservative known.conservative_join fun n mentioned => ?_
    rcases known.prefixSplit.mentions mentioned with same | mentioned
    · obtain rfl := Symbol.nonterminal.inj same
      exact Or.inr (known.prefixSplit.exists_tail_word h)
    · exact Or.inl mentioned
  freeze _ h := h.freeze
  thaw _ h := h.thaw
  splice _ g owner indices h :=
    h.of_conservative (conservative_expandRule g owner indices)
      fun _ mentioned => Or.inl (mentions_expandRule mentioned)
  eliminate _ _ _ h returned := eliminateBelow_productive h returned

/-! ## Both passes -/

/-- Both passes hand on a valid grammar when the start symbol and all references of the given one
derive some word. -/
theorem passes_validate (valid : g.validate = .ok ()) (productive : g.Productive) :
    (∀ ceiling g', (g.eliminateBelow ceiling).outcome = .ok g' → g'.validate = .ok ()) ∧
      ∀ ceiling budget result, (leftFactorBelow ceiling budget g).outcome = .ok result →
        result.grammar.validate = .ok () := by
  obtain ⟨start, hstart, -⟩ := exists_start_of_validate valid
  refine ⟨?_, ?_⟩
  · intro ceiling g' returned
    have same := eliminateBelow_conservative returned
    exact (eliminateBelow_productive productive returned).validate (same.start.trans hstart)
  · intro ceiling budget result returned
    have same := leftFactorBelow_conservative returned
    have kept := (keptByRounds_productive ceiling budget.expand).leftFactorBelow productive returned
    exact kept.validate (same.start.trans hstart)

theorem passes_validate_sums :
    sums.validate = .ok () ∧ sums.Productive ∧
      sums.eliminateLeftRecursion.outcome = .ok sumsWithTails ∧ sumsWithTails.validate = .ok () := by
  have valid : sums.validate = .ok () := by rfl
  have product : sums.Derives [.nonterminal "t"] ([.integer].map .terminal) := by
    have base : [.terminal .integer] ∈ sums.alternatives "t" := by decide
    exact derives_of_alternative base .refl
  have sum : sums.Derives [.nonterminal "e"] ([.integer].map .terminal) := by
    have base : [.nonterminal "t"] ∈ sums.alternatives "e" := by decide
    exact derives_of_alternative base product
  have productive : sums.Productive := by
    have names : ∀ name ∈ sums.usedNames, name = "e" ∨ name = "t" := by decide
    rintro name (hstart | mentioned)
    · obtain rfl : "e" = name := Option.some.inj hstart
      exact ⟨_, sum⟩
    · rcases names name (mem_usedNames.2 (Or.inr mentioned)) with rfl | rfl
      · exact ⟨_, sum⟩
      · exact ⟨_, product⟩
  have returned : (sums.eliminateBelow expansionCeiling).outcome = .ok sumsWithTails := by rfl
  exact ⟨valid, productive, returned, (passes_validate valid productive).1 _ _ returned⟩

/-- A rule that comes back to itself behind an empty beginning, and a rule that leads into it. -/
def hiddenLoop : Grammar :=
  assemble (some "a")
    [("x", [[.nonterminal "y", .nonterminal "x"]]), ("y", [[]]), ("a", [[.nonterminal "x"]])] []

/-- `hiddenLoop` after the pass: splicing has met every form of `a` before. -/
def hiddenLoopCut : Grammar :=
  assemble (some "a") [("x", [[.nonterminal "y", .nonterminal "x"]]), ("y", [[]]), ("a", [])] []

theorem validate_eliminate_hiddenLoop :
    hiddenLoop.validate = .ok () ∧
      hiddenLoop.eliminateLeftRecursion.outcome = .ok hiddenLoopCut ∧
      hiddenLoopCut.validate = .error (.undefined "a" none) := by
  refine ⟨?_, ?_, ?_⟩ <;> rfl

end TopDown.Grammar
