import TopDown.Grammar.Build
import TopDown.Proofs.Expansion

/-
  Removing left recursion keeps the language of every declared nonterminal.

  The rewrite of one directly recursive nonterminal,

      A → A β₁ | … | α₁ | …      becomes      A → α₁ T | …     T → β₁ T | … | ε,

  is judged on the languages of the two grammars. The old rules hold in the new languages because a
  repetition can be added at the end of a tail (`RecursionSplit.append_mem`). The new rules hold in
  the old languages when `T` means the words that can be put after any word of `A`.

  `Grammar.eliminateBelow_conservative` puts this together with the splicing of earlier
  nonterminals, one nonterminal after the other.
-/

namespace TopDown

namespace Alternative

theorem startsWith_iff {name : String} {alt : Alternative} :
    startsWith name alt = true ↔ ∃ rest, alt = .nonterminal name :: rest := by
  unfold startsWith
  cases alt with
  | nil => simp
  | cons a rest => simp

theorem mem_distinct {alt : Alternative} {alts : List Alternative} :
    alt ∈ distinct alts ↔ alt ∈ alts := by
  induction alts with
  | nil => rfl
  | cons a rest ih =>
    rw [distinct, List.mem_cons, List.mem_cons, List.mem_filter, ih]
    by_cases h : alt = a <;> simp [h]

theorem nodup_distinct (alts : List Alternative) : (distinct alts).Nodup := by
  induction alts with
  | nil => exact List.nodup_nil
  | cons a rest ih =>
    rw [distinct, List.nodup_cons]
    exact ⟨by simp, ih.filter _⟩

end Alternative

namespace Grammar

variable {g g₁ g₂ : Grammar} {name tail : String} {alts others repeated : List Alternative}

/-! ## Dropping self-loops -/

/-- Alternatives `A → A` may be dropped. -/
theorem conservative_of_selfLoops (name : String) (start : g₂.start = g₁.start)
    (declared : ∀ n ∈ g₁.nonterminals, n ∈ g₂.nonterminals)
    (kept : ∀ alt ∈ g₂.alternatives name, alt ∈ g₁.alternatives name)
    (dropped : ∀ alt ∈ g₁.alternatives name,
      alt ∈ g₂.alternatives name ∨ alt = [.nonterminal name])
    (same : ∀ n, n ≠ name → g₂.alternatives n = g₁.alternatives n) : g₁.Conservative g₂ := by
  have sub : ∀ n, ∀ alt ∈ g₂.alternatives n, alt ∈ g₁.alternatives n := by
    intro n alt halt
    by_cases hn : n = name
    · subst hn
      exact kept alt halt
    · rwa [same n hn] at halt
  refine Conservative.of_closed start declared ?_ ?_ (?_ : g₂.Closed g₁.language) fun _ _ => rfl
  · rintro kind ⟨n, alt, halt, hk⟩
    exact ⟨n, alt, sub n alt halt, hk⟩
  · intro n alt halt
    by_cases hn : n = name
    · subst hn
      rcases dropped alt halt with halt | rfl
      · exact g₂.language_closed n alt halt
      · rw [Alternative.language_singleton]
    · rw [← same n hn] at halt
      exact g₂.language_closed n alt halt
  · exact fun n alt halt => g₁.language_closed n alt (sub n alt halt)

/-! ## Splitting off a tail -/

/-- `g₂` is `g₁` with the direct recursion of `name` moved into the tail. -/
structure RecursionSplit (g₁ g₂ : Grammar) (name tail : String)
    (others repeated : List Alternative) : Prop where
  others_mem : ∀ alt ∈ others, alt ∈ g₁.alternatives name
  repeated_mem : ∀ alt ∈ repeated, .nonterminal name :: alt ∈ g₁.alternatives name
  cover : ∀ alt ∈ g₁.alternatives name,
    alt ∈ others ∨ alt = [.nonterminal name] ∨ ∃ b ∈ repeated, alt = .nonterminal name :: b
  owner_alts : ∀ alt, alt ∈ g₂.alternatives name ↔ ∃ a ∈ others, alt = a ++ [.nonterminal tail]
  tail_alts : ∀ alt, alt ∈ g₂.alternatives tail ↔
    alt = [] ∨ ∃ b ∈ repeated, alt = b ++ [.nonterminal tail]
  same : ∀ n, n ≠ name → n ≠ tail → g₂.alternatives n = g₁.alternatives n
  undeclared : tail ∉ g₁.nonterminals
  unmentioned : ¬ g₁.Mentions (.nonterminal tail)

namespace RecursionSplit

variable (split : RecursionSplit g₁ g₂ name tail others repeated)

include split

theorem nil_mem : [] ∈ g₂.language tail :=
  mem_language_of_alternative ((split.tail_alts []).2 (Or.inl rfl)) rfl

theorem repeat_mem {b : Alternative} (hb : b ∈ repeated) {u v : List Kind}
    (hu : u ∈ Alternative.language g₂.language b) (hv : v ∈ g₂.language tail) :
    u ++ v ∈ g₂.language tail := by
  refine mem_language_of_alternative ((split.tail_alts _).2 (Or.inr ⟨b, hb, rfl⟩)) ?_
  rw [Alternative.language_append, Alternative.language_singleton]
  exact Language.append_mem_mul hu hv

/-- A repetition can also be added at the end of a tail. -/
theorem append_mem {b : Alternative} (hb : b ∈ repeated) {u v : List Kind}
    (hu : u ∈ g₂.language tail) (hv : v ∈ Alternative.language g₂.language b) :
    u ++ v ∈ g₂.language tail := by
  refine language_induction (P := fun u => u ++ v ∈ g₂.language tail) ?_ hu
  intro alt halt w hw
  rcases (split.tail_alts alt).1 halt with rfl | ⟨c, hc, rfl⟩
  · rw [Alternative.language_nil, Language.mem_one] at hw
    subst hw
    simpa using split.repeat_mem hb hv split.nil_mem
  · rw [Alternative.language_append, Alternative.language_singleton, languageWith_self] at hw
    obtain ⟨x, hx, y, ⟨-, hy⟩, rfl⟩ := Language.mem_mul.1 hw
    rw [List.append_assoc]
    exact split.repeat_mem hc (Alternative.language_mono (g₂.languageWith_le tail _) c hx) hy

theorem other_mem {a : Alternative} (ha : a ∈ others) {u v : List Kind}
    (hu : u ∈ Alternative.language g₂.language a) (hv : v ∈ g₂.language tail) :
    u ++ v ∈ g₂.language name := by
  refine mem_language_of_alternative ((split.owner_alts _).2 ⟨a, ha, rfl⟩) ?_
  rw [Alternative.language_append, Alternative.language_singleton]
  exact Language.append_mem_mul hu hv

/-- The old rules hold in the new languages. -/
theorem forward : g₁.Closed g₂.language := by
  intro n alt halt
  by_cases hn : n = name
  · subst hn
    rw [language_le_iff]
    intro w hw
    rcases split.cover alt halt with halt | rfl | ⟨b, hb, rfl⟩
    · simpa using split.other_mem halt hw split.nil_mem
    · rwa [Alternative.language_singleton] at hw
    · rw [Alternative.language_cons] at hw
      obtain ⟨u, hu, v, hv, rfl⟩ := Language.mem_mul.1 hw
      -- the word of the nonterminal ends in a tail, and the repetition goes to the end of it
      obtain ⟨alt, halt, hu⟩ := exists_alternative hu
      obtain ⟨a, ha, rfl⟩ := (split.owner_alts alt).1 halt
      rw [Alternative.language_append, Alternative.language_singleton] at hu
      obtain ⟨x, hx, y, hy, rfl⟩ := Language.mem_mul.1 hu
      rw [List.append_assoc]
      exact split.other_mem ha hx (split.append_mem hb hy hv)
  · have ht : n ≠ tail := by
      rintro rfl
      exact split.undeclared (mem_nonterminals_of_mem_alternatives halt)
    rw [← split.same n hn ht] at halt
    exact g₂.language_closed n alt halt

/-- The new rules hold in the old languages. -/
theorem backward : g₂.Closed (g₁.tailMeaning tail name (g₁.language name)) := by
  intro n alt halt
  rw [language_le_iff]
  intro w hw
  by_cases ht : n = tail
  · subst ht
    rw [mem_tailMeaning_self]
    intro u hu
    rcases (split.tail_alts alt).1 halt with rfl | ⟨b, hb, rfl⟩
    · rw [Alternative.language_nil, Language.mem_one] at hw
      rwa [hw, List.append_nil]
    · have hmem := split.repeated_mem b hb
      rw [Alternative.language_append, Alternative.language_singleton,
        language_tailMeaning split.unmentioned hmem fun a ha => List.mem_cons_of_mem _ ha] at hw
      obtain ⟨x, hx, y, hy, rfl⟩ := Language.mem_mul.1 hw
      rw [← List.append_assoc]
      refine mem_tailMeaning_self.1 hy (u ++ x) (mem_language_of_alternative hmem ?_)
      rw [Alternative.language_cons]
      exact Language.append_mem_mul hu hx
  · rw [tailMeaning_of_ne ht]
    by_cases hn : n = name
    · subst hn
      obtain ⟨a, ha, rfl⟩ := (split.owner_alts alt).1 halt
      have hmem := split.others_mem a ha
      rw [Alternative.language_append, Alternative.language_singleton,
        language_tailMeaning split.unmentioned hmem fun _ h => h] at hw
      obtain ⟨x, hx, y, hy, rfl⟩ := Language.mem_mul.1 hw
      exact mem_tailMeaning_self.1 hy x (mem_language_of_alternative hmem hx)
    · rw [split.same n hn ht] at halt
      rw [language_tailMeaning split.unmentioned halt fun _ h => h] at hw
      exact mem_language_of_alternative halt hw

/-- The tail is the only symbol that was not there before. -/
theorem mentions {s : Symbol} (h : g₂.Mentions s) : s = .nonterminal tail ∨ g₁.Mentions s := by
  have before : ∀ a : Alternative, s ∈ a ++ [.nonterminal tail] → s = .nonterminal tail ∨ s ∈ a := by
    intro a hs
    rwa [List.mem_append, List.mem_singleton, or_comm] at hs
  obtain ⟨n, alt, halt, hs⟩ := h
  by_cases ht : n = tail
  · subst ht
    rcases (split.tail_alts alt).1 halt with rfl | ⟨b, hb, rfl⟩
    · cases hs
    · refine (before b hs).imp_right fun hs => ?_
      exact ⟨name, _, split.repeated_mem b hb, List.mem_cons_of_mem _ hs⟩
  · by_cases hn : n = name
    · subst hn
      obtain ⟨a, ha, rfl⟩ := (split.owner_alts alt).1 halt
      exact (before a hs).imp_right fun hs => ⟨n, a, split.others_mem a ha, hs⟩
    · rw [split.same n hn ht] at halt
      exact Or.inr ⟨n, alt, halt, hs⟩

theorem conservative (start : g₂.start = g₁.start)
    (declared : ∀ n ∈ g₁.nonterminals, n ∈ g₂.nonterminals) : g₁.Conservative g₂ := by
  refine Conservative.of_closed start declared ?_ split.forward split.backward ?_
  · exact fun kind h => (split.mentions h).resolve_left fun same => by cases same
  · intro n hn
    refine tailMeaning_of_ne ?_
    rintro rfl
    exact split.undeclared hn

end RecursionSplit

/-! ## One nonterminal -/

/-- The alternatives that do not begin with the nonterminal. -/
def bases (name : String) (alts : List Alternative) : List Alternative :=
  alts.filter (! Alternative.startsWith name ·)

/-- What follows the nonterminal in the alternatives that begin with it, self-loops left out. -/
def repetitions (name : String) (alts : List Alternative) : List Alternative :=
  ((alts.filter (Alternative.startsWith name)).map List.tail).filter (· ≠ [])

theorem mem_bases {alt : Alternative} :
    alt ∈ bases name alts ↔ alt ∈ alts ∧ ¬ Alternative.startsWith name alt = true := by
  simp [bases]

theorem mem_repetitions {alt : Alternative} :
    alt ∈ repetitions name alts ↔ alt ≠ [] ∧ .nonterminal name :: alt ∈ alts := by
  simp only [repetitions, List.mem_filter, List.mem_map, decide_eq_true_eq]
  constructor
  · rintro ⟨⟨whole, ⟨hmem, hstart⟩, rfl⟩, hne⟩
    obtain ⟨rest, rfl⟩ := Alternative.startsWith_iff.1 hstart
    exact ⟨hne, hmem⟩
  · rintro ⟨hne, hmem⟩
    exact ⟨⟨_, ⟨hmem, Alternative.startsWith_iff.2 ⟨alt, rfl⟩⟩, rfl⟩, hne⟩

/-- Every alternative is a base, a self-loop, or the nonterminal before a repetition. -/
theorem mem_bases_or_repetitions {alt : Alternative} (h : alt ∈ alts) :
    alt ∈ bases name alts ∨ alt = [.nonterminal name] ∨
      ∃ b ∈ repetitions name alts, alt = .nonterminal name :: b := by
  by_cases hstart : Alternative.startsWith name alt = true
  · obtain ⟨rest, rfl⟩ := Alternative.startsWith_iff.1 hstart
    by_cases hrest : rest = []
    · subst hrest
      exact Or.inr (Or.inl rfl)
    · exact Or.inr (Or.inr ⟨rest, mem_repetitions.2 ⟨hrest, h⟩, rfl⟩)
  · exact Or.inl (mem_bases.2 ⟨h, hstart⟩)

/-- The grammar with the recursion of `name` in a tail. -/
def withTail (g : Grammar) (name : String) (alts : List Alternative) : Grammar :=
  let (tail, g) := g.recursionTail name
  let close := fun alt => alt ++ [Symbol.nonterminal tail]
  (g.setRule name ((bases name alts).map close)).setRule tail
    (Alternative.distinct ((repetitions name alts).map close) ++ [[]])

/-- What `splitRecursion` can return. It fails where alternatives are left without a base, and a
tail is made where there are repetitions. -/
theorem splitRecursion_cases (h : (g.splitRecursion name alts).outcome = .ok g₂) :
    (alts ≠ [] → bases name alts ≠ []) ∧
      ((repetitions name alts = [] ∧ g₂ = g.setRule name (bases name alts)) ∨
        (repetitions name alts ≠ [] ∧ g₂ = g.withTail name alts)) := by
  unfold splitRecursion at h
  rw [List.partition_eq_filter_filter] at h
  dsimp only at h
  split at h
  · next plain =>
    have all : bases name alts = alts := by
      refine List.filter_eq_self.2 fun alt halt => ?_
      simpa using List.filter_eq_nil_iff.1 plain alt halt
    have none : repetitions name alts = [] := by rw [repetitions, plain]; rfl
    rw [all]
    exact ⟨id, Or.inl ⟨none, (Except.ok.inj h).symm⟩⟩
  · split at h
    · cases h
    · next based =>
      refine ⟨fun _ => based, ?_⟩
      split at h
      · next hrep => exact Or.inl ⟨hrep, (Except.ok.inj h).symm⟩
      · next hrep => exact Or.inr ⟨hrep, (Except.ok.inj h).symm⟩

section WithTail

variable (mentions : ∀ alt ∈ alts, ∀ s ∈ alt, g.Mentions s) (hname : name ∈ g.nonterminals)

include hname in
theorem recursionTail_ne : (g.recursionTail name).1 ≠ name := by
  intro h
  have fresh : (g.recursionTail name).1 ∉ g.nonterminals := synthesize_notMem_nonterminals
  exact fresh (h ▸ hname)

include hname in
theorem alternatives_withTail_owner :
    (g.withTail name alts).alternatives name
      = (bases name alts).map (· ++ [.nonterminal (g.recursionTail name).1]) := by
  rw [withTail, alternatives_setRule_of_ne (recursionTail_ne hname).symm, alternatives_setRule_self]

theorem alternatives_withTail_tail :
    (g.withTail name alts).alternatives (g.recursionTail name).1
      = Alternative.distinct ((repetitions name alts).map
          (· ++ [.nonterminal (g.recursionTail name).1])) ++ [[]] := by
  rw [withTail, alternatives_setRule_self]

theorem alternatives_withTail_of_ne {n : String} (hn : n ≠ name)
    (ht : n ≠ (g.recursionTail name).1) :
    (g.withTail name alts).alternatives n = g.alternatives n := by
  rw [withTail, alternatives_setRule_of_ne ht, alternatives_setRule_of_ne hn]
  exact alternatives_synthesize

include mentions hname in
theorem recursionSplit_withTail :
    RecursionSplit (g.setRule name alts) (g.withTail name alts) name (g.recursionTail name).1
      (bases name alts) (repetitions name alts) where
  others_mem alt h := by
    rw [alternatives_setRule_self]
    exact (mem_bases.1 h).1
  repeated_mem alt h := by
    rw [alternatives_setRule_self]
    exact (mem_repetitions.1 h).2
  cover alt h := by
    rw [alternatives_setRule_self] at h
    exact mem_bases_or_repetitions h
  owner_alts alt := by
    rw [alternatives_withTail_owner hname, List.mem_map]
    exact exists_congr fun a => and_congr_right fun _ => eq_comm
  tail_alts alt := by
    rw [alternatives_withTail_tail, List.mem_append, Alternative.mem_distinct, List.mem_map,
      List.mem_singleton, or_comm]
    exact or_congr_right (exists_congr fun b => and_congr_right fun _ => eq_comm)
  same n hn ht := by
    rw [alternatives_withTail_of_ne hn ht, alternatives_setRule_of_ne hn]
  undeclared h := by
    rcases mem_nonterminals_setRule.1 h with h | h
    · exact recursionTail_ne hname h
    · exact synthesize_notMem_nonterminals h
  unmentioned h := by
    rcases h.of_setRule with h | ⟨alt, halt, hs⟩
    · exact synthesize_not_mentions h
    · exact synthesize_not_mentions (mentions alt halt _ hs)

/-- A tail comes last in the order. -/
theorem nonterminals_withTail (alts : List Alternative) (h : name ∈ g.nonterminals) :
    (g.withTail name alts).nonterminals = g.nonterminals ++ [(g.recursionTail name).1] := by
  have made : (g.recursionTail name).2.nonterminals
      = g.nonterminals ++ [(g.recursionTail name).1] := nonterminals_synthesize
  rw [withTail]
  dsimp only
  rw [nonterminals_setRule, nonterminals_setRule, made]
  · rw [made]
    exact List.mem_append_left _ h
  · rw [nonterminals_setRule, made]
    · exact List.mem_append_right _ List.mem_cons_self
    · rw [made]
      exact List.mem_append_left _ h

/-- The tail is put on record, and nothing else changes there. -/
theorem origin_withTail {n : String} {origin : Origin} :
    (g.withTail name alts).origins.get? n = some origin ↔
      n = (g.recursionTail name).1 ∧ origin = ⟨.leftRecursion, name⟩ ∨
        n ≠ (g.recursionTail name).1 ∧ g.origins.get? n = some origin :=
  Catalog.get?_set_eq_some

theorem mem_nonterminals_withTail {n : String} (h : n ∈ (g.setRule name alts).nonterminals) :
    n ∈ (g.withTail name alts).nonterminals := by
  refine mem_nonterminals_setRule.2 (Or.inr (mem_nonterminals_setRule.2 ?_))
  rcases mem_nonterminals_setRule.1 h with h | h
  · exact Or.inl h
  · exact Or.inr (mem_nonterminals_synthesize.2 (Or.inr h))

/-- Moving the recursion of a nonterminal into a tail keeps every language. -/
theorem conservative_splitRecursion (mentions : ∀ alt ∈ alts, ∀ s ∈ alt, g.Mentions s)
    (hname : name ∈ g.nonterminals) (h : (g.splitRecursion name alts).outcome = .ok g₂) :
    (g.setRule name alts).Conservative g₂ := by
  obtain ⟨-, ⟨hrep, rfl⟩ | ⟨-, rfl⟩⟩ := splitRecursion_cases h
  · refine conservative_of_selfLoops name rfl ?_ ?_ ?_ ?_
    · intro n hn
      exact mem_nonterminals_setRule.2 (mem_nonterminals_setRule.1 hn)
    · intro alt halt
      rw [alternatives_setRule_self] at halt ⊢
      exact (mem_bases.1 halt).1
    · intro alt halt
      rw [alternatives_setRule_self] at halt ⊢
      rcases mem_bases_or_repetitions halt with h | h | ⟨b, hb, -⟩
      · exact Or.inl h
      · exact Or.inr h
      · rw [hrep] at hb
        cases hb
    · intro n hn
      rw [alternatives_setRule_of_ne hn, alternatives_setRule_of_ne hn]
  · exact (recursionSplit_withTail mentions hname).conservative rfl
      fun n hn => mem_nonterminals_withTail hn

end WithTail

/-! ## The whole pass -/

section Pass

variable {ceiling : Nat}

/-- What dealing with one nonterminal after the other keeps holds at the end of the pass. The
nonterminals dealt with before are those declared before. -/
theorem eliminateBelow_induction {P : Grammar → List String → Prop} (start : P g.thaw [])
    (step : ∀ {G G' : Grammar} {earlier later : List String} {name : String}
      {alts : List Alternative}, earlier ++ name :: later = g.nonterminals → P G earlier →
      G.expandedAlternatives ceiling earlier name = .ok alts →
      (G.splitRecursion name alts).outcome = .ok G' → P G' (earlier ++ [name]))
    (h : (g.eliminateBelow ceiling).outcome = .ok g₂) :
    ∃ last, P last g.nonterminals ∧ g₂ = last.freeze := by
  have run : ∀ (order : List String) (G : Grammar) (earlier : List String)
      (result : Grammar × List String), earlier ++ order = g.nonterminals → P G earlier →
      (order.foldlM (eliminateIn ceiling) (G, earlier)).outcome = .ok result →
      P result.1 g.nonterminals := by
    intro order
    induction order with
    | nil =>
      intro G earlier result whole so_far hfold
      cases hfold
      rwa [← whole, List.append_nil]
    | cons name rest ih =>
      intro G earlier result whole so_far hfold
      rw [List.foldlM_cons] at hfold
      obtain ⟨mid, hmid, hfold⟩ := Traced.outcome_bind_eq_ok.1 hfold
      unfold eliminateIn at hmid
      obtain ⟨alts, expanded, hmid⟩ := Traced.outcome_bind_eq_ok.1 hmid
      obtain ⟨G', split, hmid⟩ := Traced.outcome_bind_eq_ok.1 hmid
      cases hmid
      refine ih G' (earlier ++ [name]) result ?_ (step whole so_far expanded split) hfold
      rw [List.append_assoc]
      exact whole
  unfold eliminateBelow at h
  obtain ⟨-, -, h⟩ := Traced.outcome_bind_eq_ok.1 h
  obtain ⟨⟨last, earlier⟩, hfold, h⟩ := Traced.outcome_bind_eq_ok.1 h
  obtain ⟨-, -, h⟩ := Traced.outcome_bind_eq_ok.1 h
  cases h
  exact ⟨last, run _ g.thaw [] _ rfl start hfold, rfl⟩

/-- The nonterminal at hand is declared, and is not one of those dealt with before. -/
theorem mem_nonterminals_of_order {earlier later : List String}
    (order : earlier ++ name :: later = g.nonterminals) :
    name ∈ g.nonterminals ∧ name ∉ earlier := by
  have nodup : (earlier ++ name :: later).Nodup := order ▸ g.rules.nodup_names
  refine ⟨order ▸ List.mem_append_right _ List.mem_cons_self, fun h => ?_⟩
  exact (List.nodup_append.1 nodup).2.2 name h name List.mem_cons_self rfl

/-- Dealing with one more nonterminal keeps every language. -/
theorem Conservative.eliminate {G : Grammar} {earlier later : List String}
    (so_far : g.Conservative G) (order : earlier ++ name :: later = g.nonterminals)
    (expanded : G.expandedAlternatives ceiling earlier name = .ok alts)
    (split : (G.splitRecursion name alts).outcome = .ok g₂) : g.Conservative g₂ := by
  obtain ⟨declared, unmet⟩ := mem_nonterminals_of_order order
  have first := conservative_expanded expanded unmet
  have second := conservative_splitRecursion (mentions_of_mem_expanded expanded)
    (so_far.declared name declared) split
  exact so_far.trans (first.trans second)

theorem eliminateBelow_conservative (h : (g.eliminateBelow ceiling).outcome = .ok g₂) :
    g.Conservative g₂ := by
  obtain ⟨last, pass, rfl⟩ := eliminateBelow_induction (P := fun G _ => g.Conservative G)
    (.thaw g) (fun order so_far expanded split => so_far.eliminate order expanded split) h
  exact pass.trans (.freeze last)

end Pass

/-- Removing left recursion keeps the words of every declared nonterminal, whatever the nesting
ceiling under which the pass comes to an end. -/
theorem eliminateBelow_derives_iff {ceiling : Nat} {g g' : Grammar}
    (h : (g.eliminateBelow ceiling).outcome = .ok g') {name : String}
    (declared : name ∈ g.nonterminals) (w : List Kind) :
    g.Derives [.nonterminal name] (w.map .terminal) ↔
      g'.Derives [.nonterminal name] (w.map .terminal) := by
  have same := (eliminateBelow_conservative h).language name declared
  rw [← mem_language, ← mem_language, same]

/-- Sums and products; both nonterminals are left recursive, also through each other. -/
def sums : Grammar :=
  assemble (some "e")
    [("e", [[.nonterminal "e", .terminal .plus, .nonterminal "t"], [.nonterminal "t"]]),
     ("t", [[.nonterminal "t", .terminal .star, .terminal .integer], [.nonterminal "e"],
       [.terminal .integer]])] []

/-- `sums` without left recursion. -/
def sumsWithTails : Grammar :=
  { assemble (some "e")
      [("e", [[.nonterminal "t", .nonterminal "__lr1"]]),
       ("t", [[.terminal .integer, .nonterminal "__lr2"]]),
       ("__lr1", [[.terminal .plus, .nonterminal "t", .nonterminal "__lr1"], []]),
       ("__lr2", [[.terminal .star, .terminal .integer, .nonterminal "__lr2"],
         [.nonterminal "__lr1", .nonterminal "__lr2"], []])]
      [("__lr1", ⟨.leftRecursion, "e"⟩), ("__lr2", ⟨.leftRecursion, "t"⟩)] with counter := 2 }

theorem eliminateBelow_derives_iff_sums :
    sums.eliminateLeftRecursion.outcome = .ok sumsWithTails ∧ "t" ∈ sums.nonterminals ∧
      (sums.Derives [.nonterminal "t"] ([.integer, .plus, .integer].map .terminal) ↔
        sumsWithTails.Derives [.nonterminal "t"] ([.integer, .plus, .integer].map .terminal)) := by
  have returned : (sums.eliminateBelow expansionCeiling).outcome = .ok sumsWithTails := by rfl
  have declared : "t" ∈ sums.nonterminals := by decide
  exact ⟨returned, declared, eliminateBelow_derives_iff returned declared _⟩

end Grammar

end TopDown
