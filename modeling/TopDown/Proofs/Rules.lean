import TopDown.Grammar.Fresh
import TopDown.Proofs.Derivation
import TopDown.Proofs.FreshName

/-
  What changes of a grammar do to its alternatives, and when a change is harmless.

  Every question about a grammar is put in terms of `alternatives`: the productions, the names in
  use and the terminals are read off it (`mem_productions`, `mem_usedNames`, `mem_terminals`).

  A grammar is conservative over another when it declares what the other declares, with the same
  languages, and uses no further terminals. `Conservative.of_closed` is the one way in which this
  is shown for a change of rules: the new languages are closed under the old rules, and the old
  languages, with a meaning for the names that were made up, are closed under the new ones.
-/

namespace TopDown

theorem Catalog.mem_entries_iff {β : Type} {c : Catalog β} {name : String} {value : β} :
    (name, value) ∈ c.entries ↔ c.get? name = some value := by
  obtain ⟨entries, nodup⟩ := c
  show (name, value) ∈ entries ↔ entries.lookup name = some value
  induction entries with
  | nil => simp
  | cons e rest ih =>
    obtain ⟨k, v⟩ := e
    rw [List.map_cons, List.nodup_cons] at nodup
    rw [Catalog.lookup_pair, List.mem_cons, Prod.mk.injEq, ih nodup.2]
    by_cases h : name = k
    · subst h
      have absent : rest.lookup name = none := Catalog.lookup_eq_none_iff.2 nodup.1
      simp [absent, eq_comm]
    · simp [h]

namespace Grammar

variable {g : Grammar} {name other : String} {alt : Alternative} {alts : List Alternative}

/-! ## Reading a grammar through its alternatives -/

theorem mem_alternatives_iff :
    alt ∈ g.alternatives name ↔ ∃ alts, g.rules.get? name = some alts ∧ alt ∈ alts := by
  unfold alternatives
  cases g.rules.get? name <;> simp

theorem mem_productions : (name, alt) ∈ g.productions ↔ alt ∈ g.alternatives name := by
  rw [mem_alternatives_iff]
  simp only [productions, List.mem_flatMap, List.mem_map, Prod.mk.injEq, Prod.exists]
  constructor
  · rintro ⟨n, alts, hmem, a, ha, rfl, rfl⟩
    exact ⟨alts, Catalog.mem_entries_iff.1 hmem, ha⟩
  · rintro ⟨alts, hget, ha⟩
    exact ⟨name, alts, Catalog.mem_entries_iff.2 hget, alt, ha, rfl, rfl⟩

/-- A nonterminal with an alternative is declared. -/
theorem mem_nonterminals_of_mem_alternatives (h : alt ∈ g.alternatives name) :
    name ∈ g.nonterminals := by
  obtain ⟨alts, hget, -⟩ := mem_alternatives_iff.1 h
  exact Catalog.isSome_get?_iff.1 (by rw [hget]; rfl)

theorem nodup_nonterminals (g : Grammar) : g.nonterminals.Nodup :=
  g.rules.nodup_names

theorem alternatives_eq_nil (h : name ∉ g.nonterminals) : g.alternatives name = [] := by
  unfold alternatives
  rw [Catalog.get?_eq_none_iff.2 h]
  rfl

/-- The symbol occurs in some alternative. -/
def Mentions (g : Grammar) (s : Symbol) : Prop :=
  ∃ name, ∃ alt ∈ g.alternatives name, s ∈ alt

theorem mem_occurrences {user : String} :
    (user, name) ∈ g.occurrences ↔ ∃ alt ∈ g.alternatives user, .nonterminal name ∈ alt := by
  simp only [occurrences, List.mem_flatMap, List.mem_map, List.mem_filterMap, Prod.exists,
    mem_productions, Prod.mk.injEq]
  constructor
  · rintro ⟨_, alt, halt, _, ⟨s, hs, hname⟩, rfl, rfl⟩
    cases s with
    | terminal kind => simp [Symbol.name?] at hname
    | nonterminal n =>
      rw [Symbol.name?, Option.some.injEq] at hname
      exact ⟨alt, halt, hname ▸ hs⟩
  · rintro ⟨alt, halt, hs⟩
    exact ⟨user, alt, halt, name, ⟨.nonterminal name, hs, rfl⟩, rfl, rfl⟩

theorem mem_usedNames :
    name ∈ g.usedNames ↔ name ∈ g.nonterminals ∨ g.Mentions (.nonterminal name) := by
  unfold usedNames
  rw [List.mem_append, List.mem_map]
  refine or_congr_right ?_
  constructor
  · rintro ⟨⟨user, _⟩, hmem, rfl⟩
    exact ⟨user, mem_occurrences.1 hmem⟩
  · rintro ⟨user, mentioned⟩
    exact ⟨(user, name), mem_occurrences.2 mentioned, rfl⟩

theorem mem_terminals {kind : Kind} : kind ∈ g.terminals ↔ g.Mentions (.terminal kind) := by
  simp only [terminals, KindSet.mem_ofList, List.mem_flatMap, List.mem_filterMap, Prod.exists,
    mem_productions, Mentions]
  constructor
  · rintro ⟨user, alt, halt, s, hs, hkind⟩
    cases s with
    | terminal k =>
      rw [Symbol.kind?, Option.some.injEq] at hkind
      exact ⟨user, alt, halt, hkind ▸ hs⟩
    | nonterminal n => simp [Symbol.kind?] at hkind
  · rintro ⟨user, alt, halt, hs⟩
    exact ⟨user, alt, halt, .terminal kind, hs, rfl⟩

/-- A grammar is valid when its start symbol and all that is referred to have an alternative. -/
theorem validate_eq_ok_iff :
    g.validate = .ok () ↔ ∃ start, g.start = some start ∧ g.alternatives start ≠ [] ∧
      ∀ name, g.Mentions (.nonterminal name) → g.alternatives name ≠ [] := by
  unfold validate
  cases g.start with
  | none => simp
  | some start =>
    dsimp only
    split
    · next missing => simp [missing]
    · next present =>
      split
      · next user name found =>
        have missing : g.alternatives name = [] := by simpa using List.find?_some found
        obtain ⟨alt, halt, hs⟩ := mem_occurrences.1 (List.mem_of_find?_eq_some found)
        simp only [reduceCtorEq, false_iff, not_exists, not_and]
        intro _ _ _ defined
        exact defined name ⟨user, alt, halt, hs⟩ missing
      · next none_missing =>
        rw [List.find?_eq_none] at none_missing
        refine iff_of_true rfl ⟨start, rfl, present, ?_⟩
        rintro name ⟨user, alt, halt, hs⟩ missing
        exact none_missing (user, name) (mem_occurrences.2 ⟨alt, halt, hs⟩) (decide_eq_true missing)

/-- The start symbol of a valid grammar is declared. -/
theorem exists_start_of_validate (h : g.validate = .ok ()) :
    ∃ start, g.start = some start ∧ start ∈ g.nonterminals := by
  obtain ⟨start, hstart, present, -⟩ := validate_eq_ok_iff.1 h
  obtain ⟨alt, halt⟩ := List.exists_mem_of_ne_nil _ present
  exact ⟨start, hstart, mem_nonterminals_of_mem_alternatives halt⟩

/-- So is everything that a valid grammar refers to. -/
theorem declared_of_validate (valid : g.validate = .ok ()) (h : g.Mentions (.nonterminal name)) :
    name ∈ g.nonterminals := by
  obtain ⟨_, -, -, defined⟩ := validate_eq_ok_iff.1 valid
  obtain ⟨alt, halt⟩ := List.exists_mem_of_ne_nil _ (defined name h)
  exact mem_nonterminals_of_mem_alternatives halt

/-! ## Setting a rule -/

@[simp] theorem alternatives_setRule_self : (g.setRule name alts).alternatives name = alts := by
  simp [alternatives, setRule]

theorem alternatives_setRule_of_ne (h : other ≠ name) :
    (g.setRule name alts).alternatives other = g.alternatives other := by
  simp [alternatives, setRule, Catalog.get?_set_of_ne _ _ h]

theorem nonterminals_setRule (alts : List Alternative) (h : name ∈ g.nonterminals) :
    (g.setRule name alts).nonterminals = g.nonterminals := by
  unfold nonterminals setRule
  rw [Catalog.names_set]
  exact if_pos h

theorem mem_nonterminals_setRule :
    other ∈ (g.setRule name alts).nonterminals ↔ other = name ∨ other ∈ g.nonterminals := by
  unfold nonterminals setRule
  rw [Catalog.names_set]
  split
  · next h =>
    constructor
    · exact Or.inr
    · rintro (rfl | hother)
      · exact h
      · exact hother
  · rw [List.mem_append, List.mem_singleton, or_comm]

theorem Mentions.of_setRule {s : Symbol} (h : (g.setRule name alts).Mentions s) :
    g.Mentions s ∨ ∃ alt ∈ alts, s ∈ alt := by
  obtain ⟨user, alt, halt, hs⟩ := h
  by_cases hu : user = name
  · subst hu
    rw [alternatives_setRule_self] at halt
    exact Or.inr ⟨alt, halt, hs⟩
  · rw [alternatives_setRule_of_ne hu] at halt
    exact Or.inl ⟨user, alt, halt, hs⟩

/-! ## Making up a name -/

section Synthesize

variable {tag : String} {origin : Origin}

/-- A made-up name is neither declared nor referred to. -/
theorem synthesize_notMem : (g.synthesize tag origin).1 ∉ g.usedNames :=
  FreshName.spell_next_notMem g.counter tag g.usedNames

theorem synthesize_notMem_nonterminals : (g.synthesize tag origin).1 ∉ g.nonterminals :=
  fun h => synthesize_notMem (mem_usedNames.2 (Or.inl h))

theorem synthesize_not_mentions : ¬ g.Mentions (.nonterminal (g.synthesize tag origin).1) :=
  fun h => synthesize_notMem (mem_usedNames.2 (Or.inr h))

/-- It is declared last. -/
theorem nonterminals_synthesize :
    (g.synthesize tag origin).2.nonterminals = g.nonterminals ++ [(g.synthesize tag origin).1] := by
  show (g.rules.set (g.synthesize tag origin).1 []).names = _
  rw [Catalog.names_set]
  exact if_neg synthesize_notMem_nonterminals

theorem mem_nonterminals_synthesize :
    other ∈ (g.synthesize tag origin).2.nonterminals ↔
      other = (g.synthesize tag origin).1 ∨ other ∈ g.nonterminals :=
  mem_nonterminals_setRule (g := g)

/-- The new name has no alternatives yet, as before it was declared. -/
@[simp] theorem alternatives_synthesize :
    (g.synthesize tag origin).2.alternatives other = g.alternatives other := by
  by_cases h : other = (g.synthesize tag origin).1
  · have absent : other ∉ g.nonterminals := h ▸ synthesize_notMem_nonterminals
    rw [alternatives_eq_nil absent]
    exact h ▸ alternatives_setRule_self (g := g)
  · exact alternatives_setRule_of_ne (g := g) h

end Synthesize

/-! ## Conservative changes -/

/-- `g'` declares what `g` declares, with the same languages, and uses no further terminals. -/
structure Conservative (g g' : Grammar) : Prop where
  start : g'.start = g.start
  declared : ∀ name ∈ g.nonterminals, name ∈ g'.nonterminals
  terminals : ∀ kind, g'.Mentions (.terminal kind) → g.Mentions (.terminal kind)
  language : ∀ name ∈ g.nonterminals, g'.language name = g.language name

namespace Conservative

variable {g₁ g₂ g₃ : Grammar}

theorem trans (h₁ : g₁.Conservative g₂) (h₂ : g₂.Conservative g₃) : g₁.Conservative g₃ where
  start := h₂.start.trans h₁.start
  declared name h := h₂.declared name (h₁.declared name h)
  terminals kind h := h₁.terminals kind (h₂.terminals kind h)
  language name h := (h₂.language name (h₁.declared name h)).trans (h₁.language name h)

/-- Grammars with the same alternatives; their order, the record of origins, the counter and the
seal do not matter. -/
theorem of_alternatives (start : g₂.start = g₁.start)
    (declared : ∀ name ∈ g₁.nonterminals, name ∈ g₂.nonterminals)
    (same : ∀ name alt, alt ∈ g₂.alternatives name ↔ alt ∈ g₁.alternatives name) :
    g₁.Conservative g₂ where
  start := start
  declared := declared
  terminals := by
    rintro kind ⟨name, alt, halt, hk⟩
    exact ⟨name, alt, (same name alt).1 halt, hk⟩
  language name _ := language_congr same name

theorem refl (g : Grammar) : g.Conservative g :=
  of_alternatives rfl (fun _ h => h) fun _ _ => Iff.rfl

theorem freeze (g : Grammar) : g.Conservative g.freeze :=
  of_alternatives rfl (fun _ h => h) fun _ _ => Iff.rfl

theorem thaw (g : Grammar) : g.Conservative g.thaw :=
  of_alternatives rfl (fun _ h => h) fun _ _ => Iff.rfl

theorem of_closed {meaning : String → Language Kind} (start : g₂.start = g₁.start)
    (declared : ∀ name ∈ g₁.nonterminals, name ∈ g₂.nonterminals)
    (terminals : ∀ kind, g₂.Mentions (.terminal kind) → g₁.Mentions (.terminal kind))
    (forward : g₁.Closed g₂.language) (backward : g₂.Closed meaning)
    (agree : ∀ name ∈ g₁.nonterminals, meaning name = g₁.language name) :
    g₁.Conservative g₂ where
  start := start
  declared := declared
  terminals := terminals
  language name h := by
    refine le_antisymm ?_ (language_le_of_closed forward name)
    rw [← agree name h]
    exact language_le_of_closed backward name

/-- A new rule for one nonterminal: the new alternatives say nothing new, and what the old ones
say is said by the new grammar too. -/
theorem setRule {g : Grammar} {name : String} {alts : List Alternative}
    (terminals : ∀ alt ∈ alts, ∀ kind, Symbol.terminal kind ∈ alt → g.Mentions (.terminal kind))
    (forward : ∀ alt ∈ g.alternatives name,
      Alternative.language (g.setRule name alts).language alt ≤ (g.setRule name alts).language name)
    (backward : ∀ alt ∈ alts, Alternative.language g.language alt ≤ g.language name) :
    g.Conservative (g.setRule name alts) := by
  refine of_closed rfl ?_ ?_ ?_ (?_ : Grammar.Closed _ g.language) fun _ _ => rfl
  · intro other h
    exact mem_nonterminals_setRule.2 (Or.inr h)
  · intro kind h
    rcases h.of_setRule with h | ⟨alt, halt, hk⟩
    · exact h
    · exact terminals alt halt kind hk
  · intro other alt halt
    by_cases ho : other = name
    · subst ho
      exact forward alt halt
    · have halt' : alt ∈ (g.setRule name alts).alternatives other := by
        rwa [alternatives_setRule_of_ne ho]
      exact language_closed _ other alt halt'
  · intro other alt halt
    by_cases ho : other = name
    · subst ho
      rw [alternatives_setRule_self] at halt
      exact backward alt halt
    · rw [alternatives_setRule_of_ne ho] at halt
      exact g.language_closed other alt halt

end Conservative

/-! ## The meaning of a tail -/

section TailMeaning

variable {tail owner : String} {before : Language Kind}

/-- The languages of a grammar, with a new name for the words that complete any word of `before` to
a word of `owner`. -/
def tailMeaning (g : Grammar) (tail owner : String) (before : Language Kind) :
    String → Language Kind :=
  Function.update g.language tail (wordsWith fun v => ∀ u ∈ before, u ++ v ∈ g.language owner)

theorem mem_tailMeaning_self {v : List Kind} :
    v ∈ g.tailMeaning tail owner before tail ↔ ∀ u ∈ before, u ++ v ∈ g.language owner := by
  rw [tailMeaning, Function.update_self, mem_wordsWith]

theorem tailMeaning_of_ne (h : name ≠ tail) :
    g.tailMeaning tail owner before name = g.language name :=
  Function.update_of_ne h ..

/-- Where the new name does not occur, nothing changes. -/
theorem language_tailMeaning (unmentioned : ¬ g.Mentions (.nonterminal tail)) {s : List Symbol}
    (halt : alt ∈ g.alternatives name) (hs : ∀ a ∈ s, a ∈ alt) :
    Alternative.language (g.tailMeaning tail owner before) s
      = Alternative.language g.language s := by
  refine Alternative.language_congr fun n hn => tailMeaning_of_ne ?_
  rintro rfl
  exact unmentioned ⟨name, alt, halt, hs _ hn⟩

end TailMeaning

end Grammar

end TopDown
