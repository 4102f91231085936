import TopDown.Proofs.KindTable
import TopDown.Proofs.Rules

/-
  The analyses miss nothing, and first kinds are terminals of the grammar.

  Each of `nullable`, `first` and `follow` is a fixed point of its step, so it is closed under the
  rules of the grammar. For the first two this means that the words which a lookahead foresees are
  a closed meaning, and every derived word is foreseen (`foresees_of_mem`). For the third it is
  used as it stands: what can begin the symbols after an occurrence follows it
  (`mem_follow_of_first`), and where they can be left out, so does what follows the owner
  (`mem_follow_of_owner`).
-/

namespace TopDown

/-! ## Nullable nonterminals -/

theorem Symbol.isNullable_mono {known more : List String} (h : ∀ name ∈ known, name ∈ more)
    {a : Symbol} (ha : a.isNullable known = true) : a.isNullable more = true := by
  cases a with
  | terminal kind => cases ha
  | nonterminal name =>
    simp only [Symbol.isNullable, decide_eq_true_eq] at ha ⊢
    exact h name ha

theorem Alternative.isNullable_mono {known more : List String} (h : ∀ name ∈ known, name ∈ more)
    {s : Alternative} (hs : Alternative.isNullable known s = true) :
    Alternative.isNullable more s = true := by
  unfold Alternative.isNullable at hs ⊢
  rw [List.all_eq_true] at hs ⊢
  exact fun a ha => Symbol.isNullable_mono h (hs a ha)

namespace Grammar

variable {g : Grammar} {name owner : String} {alt rest : Alternative} {kind : Kind}

theorem mem_nullableStep {known : List String} :
    name ∈ g.nullableStep known ↔
      ∃ alt ∈ g.alternatives name, Alternative.isNullable known alt = true := by
  simp only [nullableStep, List.mem_map, List.mem_filter, List.any_eq_true, Prod.exists,
    Catalog.mem_entries_iff]
  constructor
  · rintro ⟨_, alts, ⟨hget, alt, halt, hnull⟩, rfl⟩
    exact ⟨alt, mem_alternatives_iff.2 ⟨alts, hget, halt⟩, hnull⟩
  · rintro ⟨alt, halt, hnull⟩
    obtain ⟨alts, hget, halt⟩ := mem_alternatives_iff.1 halt
    exact ⟨name, alts, ⟨hget, alt, halt, hnull⟩, rfl⟩

theorem nullableStep_mono {known more : List String} (h : ∀ name ∈ known, name ∈ more) :
    (g.nullableStep known).Sublist (g.nullableStep more) := by
  refine (List.monotone_filter_right g.rules.entries ?_).map Prod.fst
  rintro ⟨name, alts⟩ hany
  simp only [List.any_eq_true] at hany ⊢
  obtain ⟨alt, halt, hnull⟩ := hany
  exact ⟨alt, halt, Alternative.isNullable_mono h hnull⟩

theorem length_nullableStep_le (g : Grammar) (known : List String) :
    (g.nullableStep known).length ≤ g.nonterminals.length := by
  unfold nullableStep nonterminals Catalog.names
  rw [List.length_map, List.length_map]
  exact List.length_filter_le ..

/-- Nothing is missing from `nullable`. -/
theorem nullableStep_nullable (g : Grammar) : g.nullableStep g.nullable = g.nullable := by
  let Grows (known : List String) : Prop := known.Sublist (g.nullableStep known)
  have kept : ∀ known, Grows known → Grows (g.nullableStep known) :=
    fun known h => nullableStep_mono fun name hname => h.subset hname
  have bounded : ∀ known, Grows known → known.length ≤ g.nonterminals.length :=
    fun known h => h.length_le.trans (length_nullableStep_le g known)
  have grows : ∀ known, Grows known → g.nullableStep known ≠ known →
      known.length < (g.nullableStep known).length :=
    fun known h changed =>
      Nat.lt_of_le_of_ne h.length_le fun hlen => changed (h.eq_of_length hlen).symm
  exact step_stabilize List.length g.nonterminals.length kept bounded grows _ []
    (List.nil_sublist _) (Nat.le_add_left _ _)

theorem mem_nullable_iff :
    name ∈ g.nullable ↔
      ∃ alt ∈ g.alternatives name, Alternative.isNullable g.nullable alt = true := by
  rw [← mem_nullableStep, nullableStep_nullable]

end Grammar

/-! ## First kinds -/

theorem Alternative.first_mono {nullable : List String} {t t' : Catalog KindSet}
    (h : ∀ name, ∀ k ∈ t.kinds name, k ∈ t'.kinds name) (s : Alternative) :
    ∀ k ∈ Alternative.first nullable t s, k ∈ Alternative.first nullable t' s := by
  induction s with
  | nil => exact fun k hk => hk
  | cons a s ih =>
    intro k hk
    cases a with
    | terminal kind => exact hk
    | nonterminal name =>
      unfold Alternative.first at hk ⊢
      split
      · next hnull =>
        rw [if_pos hnull, KindSet.mem_union] at hk
        rw [KindSet.mem_union]
        exact hk.imp (h name k) (ih k)
      · next hnull =>
        rw [if_neg hnull] at hk
        exact h name k hk

theorem Alternative.mem_first_cons {nullable : List String} {t : Catalog KindSet} {kind : Kind}
    {name : String} {s : Alternative} :
    kind ∈ Alternative.first nullable t (.nonterminal name :: s) ↔
      kind ∈ t.kinds name ∨ name ∈ nullable ∧ kind ∈ Alternative.first nullable t s := by
  rw [Alternative.first]
  split
  · next hnull => simp [hnull]
  · next hnull => simp [hnull]

/-- What a sequence can begin with stands in it, or is a first kind of one of its nonterminals. -/
theorem Alternative.mem_first_cases {nullable : List String} {t : Catalog KindSet} {kind : Kind}
    {s : Alternative} (h : kind ∈ Alternative.first nullable t s) :
    .terminal kind ∈ s ∨ ∃ name, .nonterminal name ∈ s ∧ kind ∈ t.kinds name := by
  induction s with
  | nil => exact absurd h (KindSet.not_mem_empty kind)
  | cons a s ih =>
    cases a with
    | terminal k =>
      rw [Alternative.first, KindSet.mem_singleton] at h
      exact Or.inl (h ▸ List.mem_cons_self)
    | nonterminal name =>
      rcases Alternative.mem_first_cons.1 h with h | ⟨-, h⟩
      · exact Or.inr ⟨name, List.mem_cons_self, h⟩
      · refine (ih h).imp (List.mem_cons_of_mem _) ?_
        rintro ⟨inner, hs, hk⟩
        exact ⟨inner, List.mem_cons_of_mem _ hs, hk⟩

namespace Grammar

variable {g : Grammar} {name owner : String} {alt rest : Alternative} {kind : Kind}

theorem mem_firstStep {nullable : List String} {t : Catalog KindSet} :
    kind ∈ (g.firstStep nullable t).kinds name ↔
      ∃ alt ∈ g.alternatives name, kind ∈ Alternative.first nullable t alt := by
  unfold Catalog.kinds firstStep alternatives
  rw [Catalog.get?_map]
  cases g.rules.get? name with
  | none => simp
  | some alts => simp [KindSet.mem_unions]

/-- The search for first kinds starts from a table without any. -/
theorem not_mem_kinds_blank : kind ∉ (g.rules.map fun _ _ => (∅ : KindSet)).kinds name := by
  unfold Catalog.kinds
  rw [Catalog.get?_map]
  cases g.rules.get? name <;> simp

/-- Only terminals of the grammar are first kinds. -/
theorem mentions_of_mem_first (h : kind ∈ g.lookahead.first.kinds name) :
    g.Mentions (.terminal kind) := by
  let Known (t : Catalog KindSet) : Prop :=
    ∀ name, ∀ kind ∈ t.kinds name, g.Mentions (.terminal kind)
  have kept : ∀ t, Known t → Known (g.firstStep g.nullable t) := by
    intro t known name kind hkind
    obtain ⟨alt, halt, hkind⟩ := mem_firstStep.1 hkind
    rcases Alternative.mem_first_cases hkind with here | ⟨inner, -, hkind⟩
    · exact ⟨name, alt, halt, here⟩
    · exact known inner kind hkind
  have start : Known (g.rules.map fun _ _ => ∅) :=
    fun name kind hkind => absurd hkind not_mem_kinds_blank
  exact stabilize_induction kept _ _ start name kind h

/-- Nothing is missing from the table of first kinds. -/
theorem firstStep_firstTable (g : Grammar) (nullable : List String) :
    g.firstStep nullable (g.firstTable nullable) = g.firstTable nullable := by
  let Grows (t : Catalog KindSet) : Prop :=
    t.names = g.nonterminals ∧ ∀ name, ∀ k ∈ t.kinds name, k ∈ (g.firstStep nullable t).kinds name
  have kept : ∀ t, Grows t → Grows (g.firstStep nullable t) := by
    rintro t ⟨-, grows⟩
    refine ⟨Catalog.names_map .., ?_⟩
    intro name k hk
    obtain ⟨alt, halt, hk⟩ := mem_firstStep.1 hk
    exact mem_firstStep.2 ⟨alt, halt, Alternative.first_mono grows alt k hk⟩
  have start : Grows (g.rules.map fun _ _ => ∅) :=
    ⟨Catalog.names_map .., fun name k hk => absurd hk not_mem_kinds_blank⟩
  exact step_stabilize_kinds kept (fun t h => h.1) (fun t h => h.2) start

theorem mem_first_iff :
    kind ∈ g.lookahead.first.kinds name ↔
      ∃ alt ∈ g.alternatives name, kind ∈ g.lookahead.firstOf alt := by
  have fixed : g.firstStep g.nullable g.lookahead.first = g.lookahead.first :=
    firstStep_firstTable g g.nullable
  rw [← fixed, mem_firstStep]
  rfl

end Grammar

/-! ## Foreseen words -/

namespace Lookahead

variable {l : Lookahead}

/-- A word is foreseen for some symbols when they can begin with its first kind, or be left out
when it is empty. -/
def Foresees (l : Lookahead) (s : List Symbol) : List Kind → Prop
  | [] => l.isNullable s = true
  | kind :: _ => kind ∈ l.firstOf s

theorem isNullable_nonterminal {name : String} :
    l.isNullable [.nonterminal name] = true ↔ name ∈ l.nullable := by
  simp [isNullable, Alternative.isNullable, Symbol.isNullable]

theorem mem_firstOf_nonterminal {name : String} {kind : Kind} :
    kind ∈ l.firstOf [.nonterminal name] ↔ kind ∈ l.first.kinds name := by
  unfold firstOf Alternative.first
  split <;> simp [Alternative.first]

theorem Foresees.cons {a : Symbol} {s : List Symbol} {u v : List Kind} (hu : l.Foresees [a] u)
    (hv : l.Foresees s v) : l.Foresees (a :: s) (u ++ v) := by
  cases a with
  | terminal kind =>
    cases u with
    | nil => cases hu
    | cons k u => exact hu
  | nonterminal name =>
    cases u with
    | nil =>
      have hname : name ∈ l.nullable := isNullable_nonterminal.1 hu
      cases v with
      | nil =>
        show l.isNullable (.nonterminal name :: s) = true
        unfold Foresees isNullable Alternative.isNullable at hv
        simp [isNullable, Alternative.isNullable, Symbol.isNullable, hname, hv]
      | cons k v =>
        exact Alternative.mem_first_cons.2 (Or.inr ⟨hname, hv⟩)
    | cons k u => exact Alternative.mem_first_cons.2 (Or.inl (mem_firstOf_nonterminal.1 hu))

theorem isNullable_cons {a : Symbol} {s : List Symbol} :
    l.isNullable (a :: s) = true ↔ l.isNullable [a] = true ∧ l.isNullable s = true := by
  simp [isNullable, Alternative.isNullable]

theorem isNullable_append {s t : List Symbol} :
    l.isNullable (s ++ t) = true ↔ l.isNullable s = true ∧ l.isNullable t = true := by
  simp [isNullable, Alternative.isNullable, List.all_append]

theorem mem_firstOf_cons {name : String} {s : List Symbol} {kind : Kind} :
    kind ∈ l.firstOf (.nonterminal name :: s) ↔
      kind ∈ l.first.kinds name ∨ name ∈ l.nullable ∧ kind ∈ l.firstOf s :=
  Alternative.mem_first_cons

theorem mem_firstOf_append {s t : List Symbol} {kind : Kind} :
    kind ∈ l.firstOf (s ++ t) ↔
      kind ∈ l.firstOf s ∨ l.isNullable s = true ∧ kind ∈ l.firstOf t := by
  induction s with
  | nil => simp [firstOf, Alternative.first, isNullable, Alternative.isNullable]
  | cons a s ih =>
    cases a with
    | terminal k => simp [firstOf, Alternative.first, isNullable, Alternative.isNullable,
        Symbol.isNullable]
    | nonterminal name =>
      rw [List.cons_append, mem_firstOf_cons, mem_firstOf_cons, ih, isNullable_cons,
        isNullable_nonterminal]
      tauto

/-- Symbols are foreseen to give what their nonterminals are foreseen to give. -/
theorem foresees_of_mem_language {meaning : String → Language Kind}
    (foreseen : ∀ name, ∀ w ∈ meaning name, l.Foresees [.nonterminal name] w) {s : List Symbol}
    {w : List Kind} (h : w ∈ Alternative.language meaning s) : l.Foresees s w := by
  induction s generalizing w with
  | nil =>
    rw [Alternative.language_nil, Language.mem_one] at h
    subst h
    rfl
  | cons a s ih =>
    rw [Alternative.language_cons] at h
    obtain ⟨u, hu, v, hv, rfl⟩ := Language.mem_mul.1 h
    refine Foresees.cons ?_ (ih hv)
    cases a with
    | terminal kind =>
      rw [Symbol.mem_language_terminal.1 hu]
      exact KindSet.mem_singleton.2 rfl
    | nonterminal name => exact foreseen name u hu

end Lookahead

namespace Grammar

variable {g : Grammar} {name owner : String} {alt before rest : Alternative} {kind : Kind}

/-- Every derived word is foreseen. -/
theorem foresees_of_mem {s : List Symbol} {w : List Kind}
    (h : w ∈ Alternative.language g.language s) : g.lookahead.Foresees s w := by
  have closed : g.Closed fun name => wordsWith (g.lookahead.Foresees [.nonterminal name]) := by
    intro name alt halt
    rw [language_le_iff]
    intro w hw
    have foreseen := Lookahead.foresees_of_mem_language (fun _ _ h => h) hw
    cases w with
    | nil => exact Lookahead.isNullable_nonterminal.2 (mem_nullable_iff.2 ⟨alt, halt, foreseen⟩)
    | cons k w => exact Lookahead.mem_firstOf_nonterminal.2 (mem_first_iff.2 ⟨alt, halt, foreseen⟩)
  exact Lookahead.foresees_of_mem_language (fun name w hw => language_le_of_closed closed name hw) h

/-! ## Following kinds -/

theorem mem_sitesIn (owner name : String) (before rest : Alternative) :
    ⟨name, owner, rest⟩ ∈ sitesIn owner (before ++ .nonterminal name :: rest) := by
  induction before with
  | nil => exact List.mem_cons_self
  | cons a before ih =>
    cases a with
    | terminal kind => exact ih
    | nonterminal other => exact List.mem_cons_of_mem _ ih

theorem mem_sites (halt : before ++ .nonterminal name :: rest ∈ g.alternatives owner) :
    ⟨name, owner, rest⟩ ∈ g.sites := by
  unfold sites
  rw [List.mem_flatMap]
  exact ⟨(owner, _), mem_productions.2 halt, mem_sitesIn owner name before rest⟩

/-- What is declared or referred to has its occurrences on file. -/
theorem get?_siteTable (used : name ∈ g.usedNames) :
    g.siteTable.get? name = some (g.sites.filter (·.name = name)) := by
  refine Catalog.get?_ofList_map (f := fun name => g.sites.filter (·.name = name)) ?_
  unfold usedNames at used
  rw [List.mem_append] at used ⊢
  by_cases hd : name ∈ g.nonterminals
  · exact Or.inl hd
  · refine Or.inr (List.mem_filter.2 ⟨?_, by simpa using hd⟩)
    unfold references
    exact List.mem_eraseDups.2 (used.resolve_left hd)

theorem mem_usedNames_of_occurrence
    (halt : before ++ .nonterminal name :: rest ∈ g.alternatives owner) : name ∈ g.usedNames :=
  mem_usedNames.2 (Or.inr ⟨owner, _, halt, by simp⟩)

theorem kinds_followStep {owners : Catalog (List String)} {t : Catalog KindSet}
    (h : name ∈ t.names) :
    (followStep owners t).kinds name
      = t.kinds name ∪ KindSet.unions (((owners.get? name).getD []).map t.kinds) := by
  rw [Catalog.kinds, followStep, Catalog.get?_map, Catalog.get?_eq_some_kinds h]
  rfl

theorem mem_followStep {owners : Catalog (List String)} {t : Catalog KindSet}
    (hk : kind ∈ t.kinds name) : kind ∈ (followStep owners t).kinds name := by
  by_cases h : name ∈ t.names
  · rw [kinds_followStep h, KindSet.mem_union]
    exact Or.inl hk
  · rw [Catalog.kinds_eq_empty h] at hk
    exact absurd hk (KindSet.not_mem_empty kind)

theorem names_follow (g : Grammar) : g.lookahead.follow.names = g.siteTable.names := by
  refine stabilize_induction (P := fun t : Catalog KindSet => t.names = g.siteTable.names) ?_ _ _ ?_
  · intro t ht
    exact (Catalog.names_map ..).trans ht
  · exact Catalog.names_map ..

/-- Nothing is missing from the table of following kinds. -/
theorem followStep_follow (g : Grammar) :
    followStep (g.siteTable.map fun _ here => followOwners g.nullable here) g.lookahead.follow
      = g.lookahead.follow := by
  refine step_stabilize_kinds (P := fun t => t.names = g.siteTable.names) ?_ (fun t h => h) ?_ ?_
  · intro t ht
    exact (Catalog.names_map ..).trans ht
  · intro t _ name k hk
    exact mem_followStep hk
  · exact Catalog.names_map ..

/-- The end of input follows a declared start symbol. -/
theorem endOfInput_mem_follow {start : String} (hstart : g.start = some start)
    (declared : start ∈ g.nonterminals) : .endOfInput ∈ g.lookahead.follow.kinds start := by
  refine stabilize_induction (P := fun t : Catalog KindSet => .endOfInput ∈ t.kinds start) ?_ _ _ ?_
  · intro t ht
    exact mem_followStep ht
  · have onFile := get?_siteTable (mem_usedNames.2 (Or.inl declared))
    unfold Catalog.kinds followSeed
    rw [Catalog.get?_map, onFile, Option.map_some, Option.getD_some]
    dsimp only
    rw [if_pos ⟨hstart, declared⟩]
    exact KindSet.mem_insert.2 (Or.inl rfl)

/-- What can begin the symbols after an occurrence follows the nonterminal. -/
theorem mem_follow_of_first (halt : before ++ .nonterminal name :: rest ∈ g.alternatives owner)
    (hk : kind ∈ g.lookahead.firstOf rest) : kind ∈ g.lookahead.follow.kinds name := by
  refine stabilize_induction (P := fun t : Catalog KindSet => kind ∈ t.kinds name) ?_ _ _ ?_
  · intro t ht
    exact mem_followStep ht
  · unfold Catalog.kinds
    rw [Catalog.get?_map, get?_siteTable (mem_usedNames_of_occurrence halt), Option.map_some, Option.getD_some]
    have here : (⟨name, owner, rest⟩ : Site) ∈ g.sites.filter (·.name = name) :=
      List.mem_filter.2 ⟨mem_sites halt, by simp⟩
    have direct : kind ∈ KindSet.unions ((g.sites.filter (·.name = name)).map
        fun site => site.rest.first g.nullable (g.firstTable g.nullable)) :=
      KindSet.mem_unions.2 ⟨_, List.mem_map.2 ⟨_, here, rfl⟩, hk⟩
    unfold followSeed
    dsimp only
    split
    · exact KindSet.mem_insert.2 (Or.inr direct)
    · exact direct

/-- Where the symbols after an occurrence can be left out, what follows the owner follows the
nonterminal. -/
theorem mem_follow_of_owner (halt : before ++ .nonterminal name :: rest ∈ g.alternatives owner)
    (hnull : g.lookahead.isNullable rest = true) (hk : kind ∈ g.lookahead.follow.kinds owner) :
    kind ∈ g.lookahead.follow.kinds name := by
  have onFile := get?_siteTable (mem_usedNames_of_occurrence halt)
  have known : name ∈ g.lookahead.follow.names := by
    rw [names_follow, ← Catalog.isSome_get?_iff, onFile]
    rfl
  have here : (⟨name, owner, rest⟩ : Site) ∈ g.sites.filter (·.name = name) :=
    List.mem_filter.2 ⟨mem_sites halt, by simp⟩
  have owned : owner ∈ followOwners g.nullable (g.sites.filter (·.name = name)) := by
    unfold followOwners
    refine List.mem_eraseDups.2 (List.mem_map.2 ⟨_, List.mem_filter.2 ⟨here, hnull⟩, rfl⟩)
  rw [← followStep_follow, kinds_followStep known, Catalog.get?_map, onFile, KindSet.mem_union]
  exact Or.inr (KindSet.mem_unions.2 ⟨_, List.mem_map.2 ⟨owner, owned, rfl⟩, hk⟩)

end Grammar

end TopDown
