import TopDown.Proofs.Lookahead
import TopDown.Token.Basic

/-
  Where tokens leave the language, and what could have come there.

  A list of symbols still to be matched, at a position, can be blocked in several places, depending
  on the alternatives chosen on the way: `Wants` says at which place and by which missing kind, and
  `Reaches` how far one can get. A parse fails at a frontier, which is a position with the kinds
  wanted there. Frontiers are ordered by their position first and by their kinds only where the
  positions are the same, so a failure speaks for all that is wanted when it lies above it.

  What is wanted at once is foreseen by the lookahead, and what is wanted later is wanted after a
  token that is (`Wants.foreseen`).
-/

namespace TopDown

/-! ## Frontiers -/

/-- A position, and kinds that are wanted there. -/
structure Frontier where
  place : Nat
  kinds : KindSet

namespace Frontier

/-- A later position outweighs all that is wanted at an earlier one. -/
instance : Preorder Frontier where
  le f f' := f.place < f'.place ∨ f.place = f'.place ∧ ∀ kind ∈ f.kinds, kind ∈ f'.kinds
  le_refl f := Or.inr ⟨rfl, fun _ h => h⟩
  le_trans f₁ f₂ f₃ h₁ h₂ := by
    rcases h₁ with h₁ | ⟨h₁, sub₁⟩
    · rcases h₂ with h₂ | ⟨h₂, -⟩
      · exact Or.inl (h₁.trans h₂)
      · exact Or.inl (h₂ ▸ h₁)
    · rcases h₂ with h₂ | ⟨h₂, sub₂⟩
      · exact Or.inl (h₁ ▸ h₂)
      · exact Or.inr ⟨h₁.trans h₂, fun kind h => sub₂ kind (sub₁ kind h)⟩

/-- One kind that is wanted at a position. -/
def want (place : Nat) (kind : Kind) : Frontier := ⟨place, KindSet.singleton kind⟩

variable {f f' : Frontier} {place : Nat} {kind : Kind}

theorem le_iff :
    f ≤ f' ↔ f.place < f'.place ∨ f.place = f'.place ∧ ∀ kind ∈ f.kinds, kind ∈ f'.kinds :=
  Iff.rfl

theorem want_le_iff : want place kind ≤ f ↔ place < f.place ∨ place = f.place ∧ kind ∈ f.kinds := by
  rw [le_iff]
  simp [want]

theorem place_le (h : f ≤ f') : f.place ≤ f'.place := by
  rcases h with h | ⟨h, -⟩
  · exact Nat.le_of_lt h
  · exact Nat.le_of_eq h

/-- The frontier with one more kind that is wanted somewhere. -/
def note (f : Frontier) (place : Nat) (kind : Kind) : Frontier :=
  if f.place < place then want place kind
  else if f.place = place then ⟨f.place, f.kinds.insert kind⟩
  else f

theorem note_of_lt (later : f.place < place) : f.note place kind = want place kind :=
  if_pos later

theorem note_of_eq (here : f.place = place) :
    f.note place kind = ⟨f.place, f.kinds.insert kind⟩ := by
  rw [note, if_neg (Nat.not_lt_of_le (Nat.le_of_eq here.symm)), if_pos here]

theorem note_of_gt (earlier : place < f.place) : f.note place kind = f := by
  rw [note, if_neg (Nat.not_lt_of_lt earlier), if_neg (Nat.ne_of_gt earlier)]

theorem le_note (f : Frontier) (place : Nat) (kind : Kind) : f ≤ f.note place kind := by
  rcases Nat.lt_trichotomy f.place place with later | here | earlier
  · exact note_of_lt later ▸ Or.inl later
  · exact note_of_eq here ▸ Or.inr ⟨rfl, fun k hk => KindSet.mem_insert.2 (Or.inr hk)⟩
  · rw [note_of_gt earlier]

theorem want_le_note (f : Frontier) (place : Nat) (kind : Kind) :
    want place kind ≤ f.note place kind := by
  rcases Nat.lt_trichotomy f.place place with later | here | earlier
  · rw [note_of_lt later]
  · rw [note_of_eq here, want_le_iff]
    exact Or.inr ⟨here.symm, KindSet.mem_insert.2 (Or.inl rfl)⟩
  · rw [note_of_gt earlier, want_le_iff]
    exact Or.inl earlier

theorem note_le {bound : Frontier} (below : f ≤ bound) (wanted : want place kind ≤ bound) :
    f.note place kind ≤ bound := by
  rcases Nat.lt_trichotomy f.place place with later | here | earlier
  · rwa [note_of_lt later]
  · rw [note_of_eq here]
    rcases below with further | ⟨level, known⟩
    · exact Or.inl further
    · refine Or.inr ⟨level, fun k hk => ?_⟩
      rcases KindSet.mem_insert.1 hk with rfl | hk
      · rcases want_le_iff.1 wanted with beyond | ⟨-, hk⟩
        · omega
        · exact hk
      · exact known k hk
  · rwa [note_of_gt earlier]

theorem note_eq_or_mem : f.note place kind = f ∨ kind ∈ (f.note place kind).kinds := by
  rcases Nat.lt_or_ge place f.place with earlier | here
  · exact Or.inl (note_of_gt earlier)
  · right
    rcases Nat.lt_or_eq_of_le here with later | here
    · exact note_of_lt later ▸ KindSet.mem_singleton.2 rfl
    · exact note_of_eq here ▸ KindSet.mem_insert.2 (Or.inl rfl)

/-- After a note, the kinds are those of before, or the new one is among them. -/
theorem mem_note {k : Kind} (h : k ∈ (f.note place kind).kinds) :
    k ∈ f.kinds ∧ (f.note place kind).place = f.place ∨
      k = kind ∧ (f.note place kind).place = place := by
  rcases Nat.lt_trichotomy f.place place with later | here | earlier
  · rw [note_of_lt later] at h ⊢
    exact Or.inr ⟨KindSet.mem_singleton.1 h, rfl⟩
  · rw [note_of_eq here] at h ⊢
    rcases KindSet.mem_insert.1 h with rfl | known
    · exact Or.inr ⟨rfl, here⟩
    · exact Or.inl ⟨known, rfl⟩
  · rw [note_of_gt earlier] at h ⊢
    exact Or.inl ⟨h, rfl⟩

end Frontier

/-! ## What is wanted, and how far one gets -/

/-- With `symbols` to be matched from `pos` to the last token, some choice of alternatives is
blocked at `place`, where it wants `kind`. -/
inductive Wants (g : Grammar) (tokens : Array Token) : List Symbol → Nat → Nat → Kind → Prop where
  | unfinished {pos : Nat} (more : pos ≠ tokens.size) : Wants g tokens [] pos pos .endOfInput
  | refused {kind : Kind} {rest : List Symbol} {pos : Nat}
      (other : ∀ token, tokens[pos]? = some token → token.kind ≠ kind) :
      Wants g tokens (.terminal kind :: rest) pos pos kind
  | taken {token : Token} {rest : List Symbol} {pos place : Nat} {kind : Kind}
      (here : tokens[pos]? = some token) (later : Wants g tokens rest (pos + 1) place kind) :
      Wants g tokens (.terminal token.kind :: rest) pos place kind
  | entered {name : String} {alt : Alternative} {rest : List Symbol} {pos place : Nat} {kind : Kind}
      (halt : alt ∈ g.alternatives name) (later : Wants g tokens (alt ++ rest) pos place kind) :
      Wants g tokens (.nonterminal name :: rest) pos place kind

/-- Some choice of alternatives for `symbols` takes all tokens from `pos` up to `place`. -/
inductive Reaches (g : Grammar) (tokens : Array Token) : List Symbol → Nat → Nat → Prop where
  | here {symbols : List Symbol} {pos : Nat} : Reaches g tokens symbols pos pos
  | taken {token : Token} {rest : List Symbol} {pos place : Nat} (here : tokens[pos]? = some token)
      (later : Reaches g tokens rest (pos + 1) place) :
      Reaches g tokens (.terminal token.kind :: rest) pos place
  | entered {name : String} {alt : Alternative} {rest : List Symbol} {pos place : Nat}
      (halt : alt ∈ g.alternatives name) (later : Reaches g tokens (alt ++ rest) pos place) :
      Reaches g tokens (.nonterminal name :: rest) pos place

/-- The symbols can begin with the kind, or end the input when they can be left out. -/
def Lookahead.Opens (l : Lookahead) (symbols : List Symbol) (kind : Kind) : Prop :=
  kind ∈ l.firstOf symbols ∨ kind = .endOfInput ∧ l.isNullable symbols = true

variable {g : Grammar} {tokens : Array Token} {name owner : String} {alt : Alternative}
  {symbols rest : List Symbol} {pos place : Nat} {kind : Kind}

theorem Grammar.mem_firstOf_of_alternative (halt : alt ∈ g.alternatives name)
    (h : kind ∈ g.lookahead.firstOf (alt ++ rest)) :
    kind ∈ g.lookahead.firstOf (.nonterminal name :: rest) := by
  rw [Lookahead.mem_firstOf_append] at h
  rw [Lookahead.mem_firstOf_cons]
  refine h.imp ?_ ?_
  · exact fun first => Grammar.mem_first_iff.2 ⟨alt, halt, first⟩
  · exact fun ⟨null, first⟩ => ⟨Grammar.mem_nullable_iff.2 ⟨alt, halt, null⟩, first⟩

theorem Grammar.isNullable_of_alternative (halt : alt ∈ g.alternatives name)
    (h : g.lookahead.isNullable (alt ++ rest) = true) :
    g.lookahead.isNullable (.nonterminal name :: rest) = true := by
  obtain ⟨null, nullRest⟩ := Lookahead.isNullable_append.1 h
  rw [Lookahead.isNullable_cons, Lookahead.isNullable_nonterminal]
  exact ⟨Grammar.mem_nullable_iff.2 ⟨alt, halt, null⟩, nullRest⟩

/-- What is wanted at once is foreseen; where something is wanted only later, the next token is. -/
theorem Wants.foreseen (h : Wants g tokens symbols pos place kind) :
    place = pos ∧ g.lookahead.Opens symbols kind ∨
      pos < place ∧ ∃ token, tokens[pos]? = some token ∧
        token.kind ∈ g.lookahead.firstOf symbols := by
  induction h with
  | unfinished more => exact Or.inl ⟨rfl, Or.inr ⟨rfl, rfl⟩⟩
  | refused other => exact Or.inl ⟨rfl, Or.inl (KindSet.mem_singleton.2 rfl)⟩
  | taken here later ih =>
    refine Or.inr ⟨?_, _, here, KindSet.mem_singleton.2 rfl⟩
    rcases ih with ⟨rfl, -⟩ | ⟨further, -⟩
    · exact Nat.lt_succ_self _
    · exact Nat.lt_of_succ_lt further
  | entered halt later ih =>
    refine ih.imp ?_ ?_
    · rintro ⟨rfl, first | ⟨rfl, null⟩⟩
      · exact ⟨rfl, Or.inl (Grammar.mem_firstOf_of_alternative halt first)⟩
      · exact ⟨rfl, Or.inr ⟨rfl, Grammar.isNullable_of_alternative halt null⟩⟩
    · rintro ⟨further, token, here, first⟩
      exact ⟨further, token, here, Grammar.mem_firstOf_of_alternative halt first⟩

theorem Wants.le (h : Wants g tokens symbols pos place kind) : pos ≤ place := by
  rcases h.foreseen with ⟨rfl, -⟩ | ⟨later, -⟩
  · exact le_rfl
  · exact Nat.le_of_lt later

end TopDown
