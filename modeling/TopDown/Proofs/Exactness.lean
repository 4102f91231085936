import TopDown.Grammar.Build
import TopDown.Proofs.Frontier

/-
  The lookahead is exact, for every grammar, with undeclared nonterminals and useless rules.

  Everything is measured against `Derives`, that is against sentential forms and not only against
  words: a nonterminal that derives no word still has first kinds.

  What the three searches find is derived, because every round of a search adds only what is
  derived (`derives_nil_of_mem_nullable`, `begins_of_mem_first`, `follows_of_mem_follow`). What is
  derived is found, because the finished tables cannot tell a step of a derivation from its result:
  a step backwards keeps what can begin or be left out (`Rewrites.mem_firstOf`,
  `Rewrites.isNullable`), and it keeps track of the nonterminal after which a kind stands
  (`Rewrites.exposes`).
-/

namespace TopDown

/-- A name is filed with the value made for it. -/
theorem Catalog.eq_of_get?_ofList_map {β : Type} {f : String → β} {names : List String}
    {name : String} {value : β}
    (h : (Catalog.ofList (names.map fun n => (n, f n))).get? name = some value) :
    value = f name := by
  refine List.foldlRecOn (motive := fun c : Catalog β => ∀ value, c.get? name = some value →
    value = f name) (names.map fun n => (n, f n)) _ ?_ ?_ value h
  · intro value h
    cases h
  · intro c so_far e he value h
    obtain ⟨n, -, rfl⟩ := List.mem_map.1 he
    rcases Catalog.get?_set_eq_some.1 h with ⟨rfl, rfl⟩ | ⟨-, h⟩
    · rfl
    · exact so_far value h

/-- An element of a list in two parts stands in one of them. -/
theorem append_eq_append_cons {α : Type} {left right before after : List α} {a : α}
    (h : left ++ right = before ++ a :: after) :
    (∃ mid, left = before ++ a :: mid ∧ after = mid ++ right) ∨
      ∃ mid, before = left ++ mid ∧ right = mid ++ a :: after := by
  rcases List.append_eq_append_iff.1 h with ⟨mid, hbefore, hright⟩ | ⟨mid, hleft, hafter⟩
  · exact Or.inr ⟨mid, hbefore, hright⟩
  · cases mid with
    | nil =>
      refine Or.inr ⟨[], ?_, ?_⟩
      · rw [hleft, List.append_nil, List.append_nil]
      · rw [List.nil_append, hafter, List.nil_append]
    | cons b mid =>
      rw [List.cons_append, List.cons.injEq] at hafter
      obtain ⟨rfl, rfl⟩ := hafter
      exact Or.inl ⟨mid, hleft, rfl⟩

namespace Grammar

variable {g : Grammar} {name owner : String} {alt : Alternative} {s t before after : List Symbol}
  {kind : Kind}

/-! ## Derivations inside a form -/

/-- A step from a single nonterminal takes one of its alternatives. -/
theorem Rewrites.of_singleton (step : g.Rewrites [.nonterminal name] t) :
    t ∈ g.alternatives name := by
  generalize hs : [Symbol.nonterminal name] = s at step
  obtain @⟨before, after, owner, alt, halt⟩ := step
  rcases List.singleton_eq_append_iff.1 hs with ⟨rfl, single⟩ | ⟨-, none⟩
  · obtain ⟨same, rfl⟩ := List.cons.inj single
    obtain rfl := Symbol.nonterminal.inj same
    simpa using halt
  · cases none

theorem Derives.append_left (before : List Symbol) (h : g.Derives s t) :
    g.Derives (before ++ s) (before ++ t) :=
  Derives.append .refl h

theorem Derives.append_right (h : g.Derives s t) (after : List Symbol) :
    g.Derives (s ++ after) (t ++ after) :=
  Derives.append h .refl

/-! ## What is found is derived -/

/-- The names derive the empty sequence. -/
def NullableOnly (g : Grammar) (known : List String) : Prop :=
  ∀ name ∈ known, g.Derives [.nonterminal name] []

theorem derives_nil_of_isNullable {known : List String} (sound : g.NullableOnly known)
    (h : Alternative.isNullable known s = true) : g.Derives s [] := by
  induction s with
  | nil => exact Relation.ReflTransGen.refl
  | cons a s ih =>
    unfold Alternative.isNullable at h ih
    rw [List.all_cons, Bool.and_eq_true] at h
    cases a with
    | terminal kind => cases h.1
    | nonterminal name =>
      have first : g.Derives [.nonterminal name] [] := sound name (of_decide_eq_true h.1)
      exact first.append (ih h.2)

theorem derives_nil_of_mem_nullable (h : name ∈ g.nullable) : g.Derives [.nonterminal name] [] := by
  have kept : ∀ known, g.NullableOnly known → g.NullableOnly (g.nullableStep known) := by
    intro known sound name hname
    obtain ⟨alt, halt, null⟩ := mem_nullableStep.1 hname
    exact derives_of_alternative halt (derives_nil_of_isNullable sound null)
  have start : g.NullableOnly [] := fun _ hname => absurd hname List.not_mem_nil
  exact stabilize_induction kept _ _ start name h

/-- The symbols derive something that begins with the kind. -/
def Begins (g : Grammar) (s : List Symbol) (kind : Kind) : Prop :=
  ∃ rest, g.Derives s (.terminal kind :: rest)

theorem Begins.append (h : g.Begins s kind) (t : List Symbol) : g.Begins (s ++ t) kind := by
  obtain ⟨rest, derived⟩ := h
  exact ⟨rest ++ t, derived.append_right t⟩

theorem Begins.cons (h : g.Begins s kind) (null : g.Derives [.nonterminal name] []) :
    g.Begins (.nonterminal name :: s) kind := by
  obtain ⟨rest, derived⟩ := h
  exact ⟨rest, null.append derived⟩

/-- What the table has for a name begins something derived from it. -/
def BeginsOnly (g : Grammar) (table : Catalog KindSet) : Prop :=
  ∀ name, ∀ kind ∈ table.kinds name, g.Begins [.nonterminal name] kind

theorem begins_of_mem_alternative {table : Catalog KindSet} (sound : g.BeginsOnly table)
    (h : kind ∈ Alternative.first g.nullable table s) : g.Begins s kind := by
  induction s with
  | nil => exact absurd h (KindSet.not_mem_empty kind)
  | cons a s ih =>
    cases a with
    | terminal k =>
      obtain rfl : kind = k := KindSet.mem_singleton.1 h
      exact ⟨s, .refl⟩
    | nonterminal name =>
      unfold Alternative.first at h
      split at h
      · next null =>
        rcases KindSet.mem_union.1 h with here | later
        · exact (sound name kind here).append s
        · exact (ih later).cons (derives_nil_of_mem_nullable null)
      · exact (sound name kind h).append s

theorem begins_of_mem_first (h : kind ∈ g.lookahead.first.kinds name) :
    g.Begins [.nonterminal name] kind := by
  have kept : ∀ table, g.BeginsOnly table → g.BeginsOnly (g.firstStep g.nullable table) := by
    intro table sound name kind hkind
    obtain ⟨alt, halt, first⟩ := mem_firstStep.1 hkind
    obtain ⟨rest, derived⟩ := begins_of_mem_alternative sound first
    exact ⟨rest, derives_of_alternative halt derived⟩
  have start : g.BeginsOnly (g.rules.map fun _ _ => ∅) :=
    fun name kind hkind => absurd hkind not_mem_kinds_blank
  exact stabilize_induction kept _ _ start name kind h

/-! ## What is derived is found -/

theorem Rewrites.isNullable (step : g.Rewrites s t) (h : g.lookahead.isNullable t = true) :
    g.lookahead.isNullable s = true := by
  obtain ⟨before, after, halt⟩ := step
  rw [Lookahead.isNullable_append] at h ⊢
  exact ⟨h.1, isNullable_of_alternative halt h.2⟩

theorem Rewrites.mem_firstOf (step : g.Rewrites s t) (h : kind ∈ g.lookahead.firstOf t) :
    kind ∈ g.lookahead.firstOf s := by
  obtain ⟨before, after, halt⟩ := step
  rw [Lookahead.mem_firstOf_append] at h ⊢
  rcases h with here | ⟨null, later⟩
  · exact Or.inl here
  · exact Or.inr ⟨null, mem_firstOf_of_alternative halt later⟩

/-- A sequence can be left out exactly when it derives the empty sequence. -/
theorem isNullable_iff_derives : g.lookahead.isNullable s = true ↔ g.Derives s [] := by
  constructor
  · exact derives_nil_of_isNullable fun _ null => derives_nil_of_mem_nullable null
  · intro derived
    induction derived using Relation.ReflTransGen.head_induction_on with
    | refl => rfl
    | head step _ ih => exact step.isNullable ih

/-- The first kinds of a sequence are exactly those that begin it. -/
theorem mem_firstOf_iff_begins : kind ∈ g.lookahead.firstOf s ↔ g.Begins s kind := by
  constructor
  · exact begins_of_mem_alternative fun _ _ first => begins_of_mem_first first
  · rintro ⟨rest, derived⟩
    induction derived using Relation.ReflTransGen.head_induction_on with
    | refl => exact KindSet.mem_singleton.2 rfl
    | head step _ ih => exact step.mem_firstOf ih

/-- `nullable` and `first` are exact: for every nonterminal, and for every sequence of symbols. -/
theorem nullable_first_exact (g : Grammar) :
    (∀ name, name ∈ g.lookahead.nullable ↔ g.Derives [.nonterminal name] []) ∧
      (∀ name kind, kind ∈ g.lookahead.first.kinds name ↔
        ∃ rest, g.Derives [.nonterminal name] (.terminal kind :: rest)) ∧
      ∀ s : List Symbol,
        (∀ kind, kind ∈ g.lookahead.firstOf s ↔ ∃ rest, g.Derives s (.terminal kind :: rest)) ∧
        (g.lookahead.isNullable s = true ↔ g.Derives s []) := by
  refine ⟨?_, ?_, ?_⟩
  · intro name
    rw [← Lookahead.isNullable_nonterminal, isNullable_iff_derives]
  · intro name kind
    rw [← Lookahead.mem_firstOf_nonterminal, mem_firstOf_iff_begins, Begins]
  · intro s
    exact ⟨fun kind => mem_firstOf_iff_begins, isNullable_iff_derives⟩

/-! ## What is found to follow does follow -/

/-- Every site is an occurrence in an alternative of its owner. -/
theorem exists_before_of_mem_sitesIn {site : Site} (h : site ∈ sitesIn owner alt) :
    site.owner = owner ∧ ∃ before, alt = before ++ .nonterminal site.name :: site.rest := by
  induction alt with
  | nil => cases h
  | cons a alt ih =>
    have later : site ∈ sitesIn owner alt →
        site.owner = owner ∧
          ∃ before, a :: alt = before ++ .nonterminal site.name :: site.rest := by
      intro h
      obtain ⟨same, before, rfl⟩ := ih h
      exact ⟨same, a :: before, rfl⟩
    cases a with
    | terminal kind => exact later h
    | nonterminal name =>
      rcases List.mem_cons.1 h with rfl | h
      · exact ⟨rfl, [], rfl⟩
      · exact later h

/-- What is on file for a name are occurrences of it. -/
theorem exists_before_of_mem_siteTable {here : List Site} {site : Site}
    (onFile : g.siteTable.get? name = some here) (h : site ∈ here) :
    ∃ before, before ++ .nonterminal name :: site.rest ∈ g.alternatives site.owner := by
  obtain rfl : here = g.sites.filter (·.name = name) :=
    Catalog.eq_of_get?_ofList_map (f := fun n => g.sites.filter fun site : Site => site.name = n)
      onFile
  obtain ⟨listed, same⟩ := List.mem_filter.1 h
  obtain rfl : site.name = name := of_decide_eq_true same
  obtain ⟨⟨owner, alt⟩, halt, inside⟩ := List.mem_flatMap.1 listed
  obtain ⟨rfl, before, rfl⟩ := exists_before_of_mem_sitesIn inside
  exact ⟨before, mem_productions.1 halt⟩

/-- The kind can stand directly after the nonterminal in what a declared nonterminal derives. The
end of input stands after what comes last in something that the start symbol derives. -/
inductive Follows (g : Grammar) (name : String) : Kind → Prop where
  | last {start : String} {before : List Symbol} (hstart : g.start = some start)
      (h : g.Derives [.nonterminal start] (before ++ [.nonterminal name])) :
      Follows g name .endOfInput
  | inside {owner : String} {kind : Kind} {before after : List Symbol}
      (declared : owner ∈ g.nonterminals)
      (h : g.Derives [.nonterminal owner]
        (before ++ .nonterminal name :: .terminal kind :: after)) : Follows g name kind

/-- The owner of an occurrence derives the occurrence with anything that the symbols after it
derive. -/
theorem derives_occurrence {rest : Alternative}
    (halt : before ++ .nonterminal name :: rest ∈ g.alternatives owner) (h : g.Derives rest t) :
    g.Derives [.nonterminal owner] (before ++ .nonterminal name :: t) := by
  exact derives_of_alternative halt ((h.append_left [.nonterminal name]).append_left before)

theorem follows_of_begins {rest : Alternative}
    (halt : before ++ .nonterminal name :: rest ∈ g.alternatives owner) (h : g.Begins rest kind) :
    g.Follows name kind := by
  obtain ⟨after, derived⟩ := h
  exact .inside (mem_nonterminals_of_mem_alternatives halt) (derives_occurrence halt derived)

theorem Follows.of_owner {rest : Alternative}
    (halt : before ++ .nonterminal name :: rest ∈ g.alternatives owner) (null : g.Derives rest [])
    (h : g.Follows owner kind) : g.Follows name kind := by
  have ends : g.Derives [.nonterminal owner] (before ++ [.nonterminal name]) :=
    derives_occurrence halt null
  cases h with
  | @last start front hstart h =>
    have next : g.Derives (front ++ [.nonterminal owner])
        (front ++ before ++ [.nonterminal name]) := by
      simpa using ends.append_left front
    exact .last hstart (h.trans next)
  | @inside user _ front after declared h =>
    have next : g.Derives (front ++ Symbol.nonterminal owner :: Symbol.terminal kind :: after)
        (front ++ before ++ Symbol.nonterminal name :: Symbol.terminal kind :: after) := by
      simpa using (ends.append_right (.terminal kind :: after)).append_left front
    exact .inside declared (h.trans next)

/-- What the table has for a name follows it. -/
def FollowsOnly (g : Grammar) (table : Catalog KindSet) : Prop :=
  ∀ name, ∀ kind ∈ table.kinds name, g.Follows name kind

/-- One round hands on what follows the owners of sites at the end of their alternatives. -/
theorem FollowsOnly.followStep {table : Catalog KindSet} (sound : g.FollowsOnly table) :
    g.FollowsOnly (followStep (g.siteTable.map fun _ here => followOwners g.nullable here)
      table) := by
  intro name kind hkind
  by_cases listed : name ∈ table.names
  · rw [kinds_followStep listed, KindSet.mem_union] at hkind
    rcases hkind with old | new
    · exact sound name kind old
    · obtain ⟨_, hset, hkind⟩ := KindSet.mem_unions.1 new
      obtain ⟨owner, howner, rfl⟩ := List.mem_map.1 hset
      rw [Catalog.get?_map] at howner
      cases onFile : g.siteTable.get? name with
      | none => simp [onFile] at howner
      | some here =>
        rw [onFile, Option.map_some, Option.getD_some, followOwners, List.mem_eraseDups] at howner
        obtain ⟨site, hsite, rfl⟩ := List.mem_map.1 howner
        obtain ⟨hsite, null⟩ := List.mem_filter.1 hsite
        obtain ⟨before, halt⟩ := exists_before_of_mem_siteTable onFile hsite
        exact (sound site.owner kind hkind).of_owner halt (isNullable_iff_derives.1 null)
  · rw [Catalog.kinds_eq_empty] at hkind
    · exact absurd hkind (KindSet.not_mem_empty kind)
    · rwa [Grammar.followStep, Catalog.names_map]

/-- The search begins with the kinds that open what stands after a site. -/
theorem followsOnly_seed :
    g.FollowsOnly (g.siteTable.map fun name here =>
      g.followSeed g.nullable (g.firstTable g.nullable) name here) := by
  intro name kind hkind
  unfold Catalog.kinds at hkind
  rw [Catalog.get?_map] at hkind
  cases onFile : g.siteTable.get? name with
  | none => simp [onFile] at hkind
  | some here =>
    rw [onFile, Option.map_some, Option.getD_some] at hkind
    have direct : kind ∈ KindSet.unions (here.map fun site =>
        site.rest.first g.nullable (g.firstTable g.nullable)) → g.Follows name kind := by
      intro hkind
      obtain ⟨_, hset, hkind⟩ := KindSet.mem_unions.1 hkind
      obtain ⟨site, hsite, rfl⟩ := List.mem_map.1 hset
      obtain ⟨before, halt⟩ := exists_before_of_mem_siteTable onFile hsite
      exact follows_of_begins halt (mem_firstOf_iff_begins.1 hkind)
    unfold followSeed at hkind
    dsimp only at hkind
    split at hkind
    · next starts =>
      rcases KindSet.mem_insert.1 hkind with rfl | hkind
      · have itself : g.Derives [.nonterminal name] ([] ++ [.nonterminal name]) := .refl
        exact .last starts.1 itself
      · exact direct hkind
    · exact direct hkind

theorem follows_of_mem_follow (h : kind ∈ g.lookahead.follow.kinds name) : g.Follows name kind := by
  have kept : ∀ table, g.FollowsOnly table → g.FollowsOnly
      (followStep (g.siteTable.map fun _ here => followOwners g.nullable here) table) :=
    fun _ sound => sound.followStep
  exact stabilize_induction kept _ _ followsOnly_seed name kind h

/-! ## What follows is found to follow -/

/-- The kind is found to follow the nonterminal already, or `s` holds a nonterminal that hands what
follows it on to the nonterminal, and after it stands something that opens with the kind. -/
def Exposes (g : Grammar) (name : String) (kind : Kind) (s : List Symbol) : Prop :=
  kind ∈ g.lookahead.follow.kinds name ∨ ∃ before lead after,
    s = before ++ .nonterminal lead :: after ∧ g.lookahead.Opens after kind ∧
      (kind ∈ g.lookahead.follow.kinds lead → kind ∈ g.lookahead.follow.kinds name)

theorem opens_append_alternative (halt : alt ∈ g.alternatives owner)
    (h : g.lookahead.Opens (before ++ (alt ++ after)) kind) :
    g.lookahead.Opens (before ++ .nonterminal owner :: after) kind := by
  have step : g.Rewrites (before ++ .nonterminal owner :: after) (before ++ (alt ++ after)) :=
    .replace before after halt
  exact h.imp step.mem_firstOf (And.imp_right step.isNullable)

/-- A step backwards keeps track of the nonterminal after which the kind stands. -/
theorem Rewrites.exposes (step : g.Rewrites s t) (h : g.Exposes name kind t) :
    g.Exposes name kind s := by
  obtain @⟨before, after, owner, alt, halt⟩ := step
  rcases h with found | ⟨front, lead, back, whole, opens, handed⟩
  · exact Or.inl found
  · rcases append_eq_append_cons whole with ⟨mid, rfl, rfl⟩ | ⟨mid, rfl, split⟩
    · -- the nonterminal stands before the replaced one
      refine Or.inr ⟨front, lead, mid ++ .nonterminal owner :: after, ?_, ?_, handed⟩
      · rw [List.append_assoc, List.cons_append]
      · exact opens_append_alternative halt opens
    · rcases append_eq_append_cons split with ⟨inner, rfl, rfl⟩ | ⟨inner, rfl, rfl⟩
      · -- it stands in the alternative: the kind follows it there, or else follows the owner
        rcases opens with first | ⟨rfl, null⟩
        · rcases Lookahead.mem_firstOf_append.1 first with here | ⟨null, later⟩
          · exact Or.inl (handed (mem_follow_of_first halt here))
          · exact Or.inr ⟨before, owner, after, rfl, Or.inl later,
              fun follows => handed (mem_follow_of_owner halt null follows)⟩
        · obtain ⟨nullInner, nullAfter⟩ := Lookahead.isNullable_append.1 null
          exact Or.inr ⟨before, owner, after, rfl, Or.inr ⟨rfl, nullAfter⟩,
            fun follows => handed (mem_follow_of_owner halt nullInner follows)⟩
      · -- it stands after the replaced one
        refine Or.inr ⟨before ++ .nonterminal owner :: inner, lead, back, ?_, opens, handed⟩
        rw [List.append_assoc, List.cons_append]

theorem Derives.exposes (derived : g.Derives s t) (h : g.Exposes name kind t) :
    g.Exposes name kind s := by
  induction derived using Relation.ReflTransGen.head_induction_on with
  | refl => exact h
  | head step _ ih => exact step.exposes ih

/-- Where a single nonterminal derives `name` with something after it that opens with the kind, the
kind is found to follow `name`, or nothing stands after and it does if it follows that
nonterminal. -/
theorem mem_follow_of_derives
    (derived : g.Derives [.nonterminal owner] (before ++ .nonterminal name :: after))
    (opens : g.lookahead.Opens after kind) :
    kind ∈ g.lookahead.follow.kinds name ∨
      kind = .endOfInput ∧ (kind ∈ g.lookahead.follow.kinds owner →
        kind ∈ g.lookahead.follow.kinds name) := by
  have start : g.Exposes name kind (before ++ .nonterminal name :: after) :=
    Or.inr ⟨before, name, after, rfl, opens, id⟩
  rcases derived.exposes start with found | ⟨front, lead, back, whole, opens, handed⟩
  · exact Or.inl found
  · obtain ⟨rfl, rfl⟩ : owner = lead ∧ back = [] := by
      rcases List.singleton_eq_append_iff.1 whole with ⟨-, single⟩ | ⟨-, none⟩
      · obtain ⟨same, rest⟩ := List.cons.inj single
        exact ⟨(Symbol.nonterminal.inj same).symm, rest⟩
      · cases none
    rcases opens with first | ⟨rfl, -⟩
    · exact absurd first (KindSet.not_mem_empty kind)
    · exact Or.inr ⟨rfl, handed⟩

/-- Every symbol of what is derived was there before or occurs in the grammar. -/
theorem Derives.mentions (derived : g.Derives s t) {a : Symbol} (h : a ∈ t) :
    a ∈ s ∨ g.Mentions a := by
  induction derived with
  | refl => exact Or.inl h
  | tail _ step ih =>
    obtain @⟨before, after, owner, alt, halt⟩ := step
    rw [List.mem_append, List.mem_append] at h
    rcases h with h | h | h
    · exact ih (List.mem_append_left _ h)
    · exact Or.inr ⟨owner, alt, halt, h⟩
    · exact ih (List.mem_append_right _ (List.mem_cons_of_mem _ h))

/-- `follow` is exact: a kind is in it when some declared nonterminal derives a form in which it
stands directly after the nonterminal, and the end of input is when the start symbol derives a form
that ends with the nonterminal. -/
theorem follow_exact {start : String} (hstart : g.start = some start)
    (declared : start ∈ g.nonterminals) (plain : .endOfInput ∉ g.terminals) (name : String) :
    (∀ kind, kind ≠ .endOfInput → (kind ∈ g.lookahead.follow.kinds name ↔
      ∃ owner ∈ g.nonterminals, ∃ before after : List Symbol, g.Derives [.nonterminal owner]
        (before ++ .nonterminal name :: .terminal kind :: after))) ∧
      (.endOfInput ∈ g.lookahead.follow.kinds name ↔
        ∃ before : List Symbol,
          g.Derives [.nonterminal start] (before ++ [.nonterminal name])) := by
  refine ⟨?_, ?_, ?_⟩
  · intro kind proper
    constructor
    · intro h
      cases follows_of_mem_follow h with
      | last => exact absurd rfl proper
      | inside declared derived => exact ⟨_, declared, _, _, derived⟩
    · rintro ⟨owner, -, before, after, derived⟩
      have opens : g.lookahead.Opens (.terminal kind :: after) kind :=
        Or.inl (KindSet.mem_singleton.2 rfl)
      exact (mem_follow_of_derives derived opens).resolve_right fun ends => proper ends.1
  · intro h
    cases follows_of_mem_follow h with
    | last same derived =>
      rw [hstart, Option.some.injEq] at same
      exact ⟨_, same ▸ derived⟩
    | inside _ derived =>
      -- the end of input is no terminal, so it stands in nothing that is derived
      have mentioned := derived.mentions (a := .terminal .endOfInput) (by simp)
      exact absurd (mem_terminals.2 (mentioned.resolve_left (by simp))) plain
  · rintro ⟨before, derived⟩
    rcases mem_follow_of_derives derived (Or.inr ⟨rfl, rfl⟩) with found | ⟨-, handed⟩
    · exact found
    · exact handed (endOfInput_mem_follow hstart declared)

/-- Names with commas between them; each of the names may be missing. -/
def gapped : Grammar :=
  assemble (some "list")
    [("list", [[.nonterminal "item", .nonterminal "more"]]),
     ("item", [[.terminal .identifier], []]),
     ("more", [[.terminal .comma, .nonterminal "item", .nonterminal "more"], []])] []

/-- A comma can follow an item, which can also come last; no comma follows the rest of a list. -/
theorem follow_exact_gapped :
    gapped.start = some "list" ∧ "list" ∈ gapped.nonterminals ∧ .endOfInput ∉ gapped.terminals ∧
      (∃ owner ∈ gapped.nonterminals, ∃ before after : List Symbol,
        gapped.Derives [.nonterminal owner]
          (before ++ .nonterminal "item" :: .terminal .comma :: after)) ∧
      (∃ before : List Symbol,
        gapped.Derives [.nonterminal "list"] (before ++ [.nonterminal "item"])) ∧
      ¬ ∃ owner ∈ gapped.nonterminals, ∃ before after : List Symbol,
        gapped.Derives [.nonterminal owner]
          (before ++ .nonterminal "more" :: .terminal .comma :: after) := by
  have hstart : gapped.start = some "list" := rfl
  have declared : "list" ∈ gapped.nonterminals := by decide
  have plain : .endOfInput ∉ gapped.terminals := by decide
  have items := follow_exact hstart declared plain "item"
  have rests := follow_exact hstart declared plain "more"
  refine ⟨hstart, declared, plain, ?_, ?_, ?_⟩
  · exact (items.1 .comma (by decide)).1 (by decide +kernel)
  · exact items.2.1 (by decide +kernel)
  · rw [← rests.1 .comma (by decide)]
    decide +kernel

end Grammar

end TopDown
