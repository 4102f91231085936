import TopDown.Proofs.RoundTrip

/-
  What the items of a description stand for.

  `Denotes declared face symbol` says what one item stands for where the names `declared` have
  rules, and `Means declared items alt` what the items between two bars do. Reading answers with
  exactly that, when the items are `Acceptable`: a word or sign for the empty alternative stands
  alone, and a name in capitals is declared or a word for a kind.
-/

namespace TopDown

/-! ## Words for kinds -/

/-- The word stands for the kind: its spelling, or an alias. No word stands for the end of input. -/
def Kind.WrittenAs (kind : Kind) (word : String) : Prop :=
  kind ≠ .endOfInput ∧ kind.spelling = word ∨ (word, kind) ∈ Kind.aliases

namespace Description

variable {source : List Char} {declared : List String} {word : String} {kind : Kind} {p : Piece}
  {s : Symbol} {alt : Alternative}

/-! ### Related lists -/

theorem forall₂_congr_left {α β : Type} {R S : α → β → Prop} {l : List α} {l' : List β}
    (h : ∀ x ∈ l, ∀ y, R x y ↔ S x y) : List.Forall₂ R l l' ↔ List.Forall₂ S l l' := by
  induction l generalizing l' with
  | nil => simp
  | cons x l ih =>
    rw [List.forall_mem_cons] at h
    simp only [List.forall₂_cons_left_iff, h.1, ih h.2]

theorem exists_forall₂ {α β : Type} {R : α → β → Prop} {l : List α} (h : ∀ x ∈ l, ∃ y, R x y) :
    ∃ l', List.Forall₂ R l l' := by
  induction l with
  | nil => exact ⟨[], .nil⟩
  | cons x l ih =>
    rw [List.forall_mem_cons] at h
    obtain ⟨y, hxy⟩ := h.1
    obtain ⟨l', hl⟩ := ih h.2
    exact ⟨y :: l', .cons hxy hl⟩

/-! ### Spellings and aliases -/

theorem named?_eq_some_iff : Kind.named? word = some kind ↔ kind.WrittenAs word := by
  constructor
  · intro h
    unfold Kind.named? at h
    split at h
    · cases h
    · next other hspelling =>
      cases h
      exact Or.inl ⟨other, Kind.ofSpelling?_eq_some_iff.1 hspelling⟩
    · obtain ⟨before, after, haliases, -⟩ := List.lookup_eq_some_iff.1 h
      refine Or.inr ?_
      rw [haliases]
      exact List.mem_append_right before List.mem_cons_self
  · rintro (⟨other, rfl⟩ | further)
    · exact named?_spelling other
    · have all : ∀ e ∈ Kind.aliases, Kind.named? e.1 = some e.2 := by decide
      exact all (word, kind) further

theorem named?_eq_none_iff : Kind.named? word = none ↔ ∀ kind : Kind, ¬ kind.WrittenAs word := by
  simp only [← named?_eq_some_iff, Option.eq_none_iff_forall_ne_some, ne_eq]

/-! ## Items and alternatives -/

/-- The face of a word or sign for the empty alternative. -/
def Face.IsEpsilon (f : Face) : Prop :=
  f.1 = .epsilon ∨ f.1 = .identifier ∧ f.2 ∈ epsilonWords

/-- A name that is neither declared nor a word for a kind is not in capitals. -/
def Face.Known (declared : List String) (f : Face) : Prop :=
  f.1 = .identifier → f.2 ∉ declared → (∀ kind : Kind, ¬ kind.WrittenAs f.2) →
    Text.isUpperText f.2 = false

/-- The symbol an item stands for where the names `declared` have rules. -/
inductive Denotes (declared : List String) : Face → Symbol → Prop where
  | sign {kind : Kind} {text : String} : Denotes declared (.punctuation kind, text) (.terminal kind)
  | declared {name : String} (h : name ∈ declared) :
      Denotes declared (.identifier, name) (.nonterminal name)
  | kind {name : String} {kind : Kind} (other : name ∉ declared) (h : kind.WrittenAs name) :
      Denotes declared (.identifier, name) (.terminal kind)
  | undeclared {name : String} (other : name ∉ declared)
      (no_kind : ∀ kind : Kind, ¬ kind.WrittenAs name) :
      Denotes declared (.identifier, name) (.nonterminal name)

/-- The alternative that the items between two bars stand for. -/
def Means (declared : List String) (items : List Face) (alt : Alternative) : Prop :=
  (∃ f, items = [f] ∧ f.IsEpsilon ∧ alt = []) ∨
    (∀ f ∈ items, ¬ f.IsEpsilon) ∧ List.Forall₂ (Denotes declared) items alt

theorem isEpsilon_eq_true_iff : p.isEpsilon = true ↔ p.face.IsEpsilon := by
  simp [Piece.isEpsilon, Face.IsEpsilon, Piece.face]

theorem readSymbol_eq_ok_iff (item : p.isItem = true) (filled : ¬ p.face.IsEpsilon) :
    readSymbol source declared p = .ok s ↔ p.face.Known declared ∧ Denotes declared p.face s := by
  obtain ⟨kind, text, place⟩ := p
  cases kind with
  | punctuation kind =>
    constructor
    · intro h
      cases h
      exact ⟨fun name => PieceKind.noConfusion name, .sign⟩
    · rintro ⟨-, denotes⟩
      cases denotes
      rfl
  | identifier =>
    constructor
    · intro h
      unfold readSymbol at h
      dsimp only at h
      split at h
      · next hdeclared =>
        cases h
        exact ⟨fun _ other => absurd hdeclared other, .declared hdeclared⟩
      · next other =>
        split at h
        · next kind hkind =>
          cases h
          have written := named?_eq_some_iff.1 hkind
          exact ⟨fun _ _ no_kind => absurd written (no_kind kind), .kind other written⟩
        · next no_kind =>
          split at h
          · cases h
          · next lower =>
            cases h
            exact ⟨fun _ _ _ => Bool.eq_false_iff.2 lower,
              .undeclared other (named?_eq_none_iff.1 no_kind)⟩
    · rintro ⟨known, denotes⟩
      cases denotes with
      | declared h => simp [readSymbol, h]
      | kind other h => simp [readSymbol, other, named?_eq_some_iff.2 h]
      | undeclared other no_kind =>
        have lower : Text.isUpperText text = false := known rfl other no_kind
        simp [readSymbol, other, named?_eq_none_iff.2 no_kind, lower]
  | epsilon => exact absurd (Or.inl rfl) filled
  | _ => cases item

/-- Items that make an alternative where the names `declared` have rules. -/
structure Acceptable (declared : List String) (items : List Face) : Prop where
  alone : ∀ f ∈ items, f.IsEpsilon → items = [f]
  known : ∀ f ∈ items, ¬ f.IsEpsilon → f.Known declared

section Filled

variable {items : List Face} (filled : ∀ f ∈ items, ¬ f.IsEpsilon)

include filled

theorem acceptable_of_filled : Acceptable declared items ↔ ∀ f ∈ items, f.Known declared := by
  constructor
  · exact fun h f hf => h.known f hf (filled f hf)
  · exact fun h => ⟨fun f hf epsilon => absurd epsilon (filled f hf), fun f hf _ => h f hf⟩

theorem means_of_filled : Means declared items alt ↔ List.Forall₂ (Denotes declared) items alt := by
  constructor
  · rintro (⟨f, rfl, epsilon, -⟩ | h)
    · exact absurd epsilon (filled f List.mem_cons_self)
    · exact h.2
  · exact fun h => Or.inr ⟨filled, h⟩

end Filled

theorem acceptable_of_epsilon {f : Face} (epsilon : f.IsEpsilon) : Acceptable declared [f] where
  alone := by simp
  known := by simp [epsilon]

theorem means_of_epsilon {f : Face} (epsilon : f.IsEpsilon) : Means declared [f] alt ↔ alt = [] := by
  constructor
  · rintro (⟨_, -, -, rfl⟩ | ⟨filled, -⟩)
    · rfl
    · exact absurd epsilon (filled f List.mem_cons_self)
  · exact fun h => Or.inl ⟨f, rfl, epsilon, h⟩

theorem readAlternative_eq_ok_iff {pieces : List Piece} (items : ∀ p ∈ pieces, p.isItem = true) :
    readAlternative source declared pieces = .ok alt ↔
      Acceptable declared (pieces.map Piece.face) ∧ Means declared (pieces.map Piece.face) alt := by
  unfold readAlternative
  split
  · next p hp =>
    have epsilon : p.face.IsEpsilon := isEpsilon_eq_true_iff.1 (List.find?_some hp)
    have mem : p ∈ pieces := List.mem_of_find?_eq_some hp
    by_cases alone : pieces = [p]
    · subst alone
      rw [List.map_singleton, means_of_epsilon epsilon]
      simp [acceptable_of_epsilon epsilon, eq_comm]
    · have crowded : 1 < pieces.length := by
        by_contra few
        have := List.length_pos_of_mem mem
        obtain ⟨q, rfl⟩ := List.length_eq_one_iff.1 (by omega : pieces.length = 1)
        exact alone (by rw [List.mem_singleton.1 mem])
      refine iff_of_false (by simp [crowded]) fun h => ?_
      have single := h.1.alone p.face (List.mem_map_of_mem mem) epsilon
      have := congrArg List.length single
      simp at this
      omega
  · next hnone =>
    have filled : ∀ p ∈ pieces, ¬ p.face.IsEpsilon := by
      intro p hp epsilon
      exact List.find?_eq_none.1 hnone p hp (isEpsilon_eq_true_iff.2 epsilon)
    have faces : ∀ f ∈ pieces.map Piece.face, ¬ f.IsEpsilon := List.forall_mem_map.2 filled
    rw [mapM_eq_ok_iff, acceptable_of_filled faces, means_of_filled faces, List.forall_mem_map,
      List.forall₂_map_left_iff, ← List.forall₂_and_left]
    exact forall₂_congr_left fun p hp s => readSymbol_eq_ok_iff (items p hp) (filled p hp)

theorem exists_denotes {f : Face} (item : f.isItem = true) (filled : ¬ f.IsEpsilon) :
    ∃ s, Denotes declared f s := by
  obtain ⟨kind, text⟩ := f
  cases kind with
  | punctuation kind => exact ⟨_, .sign⟩
  | identifier =>
    by_cases hdeclared : text ∈ declared
    · exact ⟨_, .declared hdeclared⟩
    · by_cases written : ∃ kind : Kind, kind.WrittenAs text
      · obtain ⟨kind, written⟩ := written
        exact ⟨_, .kind hdeclared written⟩
      · exact ⟨_, .undeclared hdeclared (not_exists.1 written)⟩
  | epsilon => exact absurd (Or.inl rfl) filled
  | _ => cases item

theorem exists_means {items : List Face} (item : ∀ f ∈ items, f.isItem = true)
    (acceptable : Acceptable declared items) : ∃ alt, Means declared items alt := by
  by_cases epsilon : ∃ f ∈ items, f.IsEpsilon
  · obtain ⟨f, hf, epsilon⟩ := epsilon
    exact ⟨[], Or.inl ⟨f, acceptable.alone f hf epsilon, epsilon, rfl⟩⟩
  · have filled : ∀ f ∈ items, ¬ f.IsEpsilon := fun f hf h => epsilon ⟨f, hf, h⟩
    have denoted : ∀ f ∈ items, ∃ s, Denotes declared f s :=
      fun f hf => exists_denotes (item f hf) (filled f hf)
    obtain ⟨alt, denotes⟩ := exists_forall₂ denoted
    exact ⟨alt, Or.inr ⟨filled, denotes⟩⟩

/-! ## Left-hand sides -/

/-- A name that may have rules. -/
structure Declarable (name : String) : Prop where
  unreserved : ¬ "__".toList <+: name.toList
  no_kind : ∀ kind : Kind, ¬ kind.WrittenAs name
  no_epsilon : name ∉ epsilonWords

theorem checkName_iff_declarable (hname : p.kind = .identifier) :
    checkName source p = .ok () ↔ Declarable p.text := by
  have mark : isReserved p.text = true ↔ "__".toList <+: p.text.toList :=
    List.isPrefixOf_iff_prefix
  rw [checkName_eq_ok_iff hname, named?_eq_none_iff, Bool.eq_false_iff, ne_eq, mark]
  constructor
  · exact fun h => ⟨h.1, h.2.1, h.2.2⟩
  · exact fun h => ⟨h.unreserved, h.no_kind, h.no_epsilon⟩

end Description

end TopDown
