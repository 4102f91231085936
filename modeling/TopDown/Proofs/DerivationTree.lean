import TopDown.Proofs.Derivation
import TopDown.Tree.Basic

/-
  Derivation trees and the stretches of a list that they cover.

  A tree is a derivation tree of a grammar when every node stands over one of the alternatives of
  its nonterminal. Its leaves then spell a word of the symbol at its root
  (`IsDerivation.mem_language`).

  `Segment l pos stop w` says that `w` is the part of `l` between two positions. Parsers move from
  position to position and never look at a word as a whole, so what they cover is put together from
  segments (`segment_append`).
-/

namespace TopDown

/-! ## Segments -/

/-- The part of `l` from `pos` to `stop` is `w`. -/
def Segment {α : Type} (l : List α) (pos stop : Nat) (w : List α) : Prop :=
  w <+: l.drop pos ∧ pos + w.length = stop

section

variable {α β : Type} {l u v w : List α} {pos stop : Nat}

theorem segment_nil : Segment l pos stop [] ↔ stop = pos := by
  simp [Segment, eq_comm]

theorem segment_cons {a : α} :
    Segment l pos stop (a :: w) ↔ l[pos]? = some a ∧ Segment l (pos + 1) stop w := by
  unfold Segment
  rw [List.cons_prefix_iff, ← List.head?_drop, List.head?_eq_some_iff, List.length_cons]
  constructor
  · rintro ⟨⟨rest, hrest, hw⟩, hstop⟩
    have tail : l.drop (pos + 1) = rest := by rw [← List.tail_drop, hrest, List.tail_cons]
    exact ⟨⟨rest, hrest⟩, tail ▸ hw, by omega⟩
  · rintro ⟨⟨rest, hrest⟩, hw, hstop⟩
    have tail : l.drop (pos + 1) = rest := by rw [← List.tail_drop, hrest, List.tail_cons]
    exact ⟨⟨rest, hrest, tail ▸ hw⟩, by omega⟩

theorem segment_append :
    Segment l pos stop (u ++ v) ↔ ∃ mid, Segment l pos mid u ∧ Segment l mid stop v := by
  induction u generalizing pos with
  | nil => simp [segment_nil]
  | cons a u ih =>
    simp only [List.cons_append, segment_cons, ih]
    constructor
    · rintro ⟨ha, mid, hu, hv⟩
      exact ⟨mid, ⟨ha, hu⟩, hv⟩
    · rintro ⟨mid, ⟨ha, hu⟩, hv⟩
      exact ⟨ha, mid, hu, hv⟩

theorem Segment.unique (h₁ : Segment l pos stop u) (h₂ : Segment l pos stop v) : u = v := by
  refine List.prefix_of_prefix_length_le h₁.1 h₂.1 ?_ |>.eq_of_length ?_
  · have := h₁.2
    have := h₂.2
    omega
  · have := h₁.2
    have := h₂.2
    omega

theorem Segment.le (h : Segment l pos stop w) : pos ≤ stop := by
  have := h.2
  omega

theorem Segment.le_length (h : Segment l pos stop w) (hpos : pos ≤ l.length) :
    stop ≤ l.length := by
  have hlen := h.1.length_le
  have hstop := h.2
  rw [List.length_drop] at hlen
  omega

theorem segment_whole : Segment l 0 l.length w ↔ w = l := by
  constructor
  · intro h
    exact h.1.eq_of_length (by simpa using h.2)
  · rintro rfl
    exact ⟨List.prefix_rfl, by simp⟩

theorem Segment.map (f : α → β) (h : Segment l pos stop w) :
    Segment (l.map f) pos stop (w.map f) := by
  refine ⟨?_, ?_⟩
  · rw [← List.map_drop]
    exact h.1.map f
  · rw [List.length_map]
    exact h.2

theorem segment_map_whole (f : α → β) (l : List α) :
    Segment (l.map f) 0 l.length (l.map f) := by
  have whole := segment_whole.2 (rfl : l.map f = l.map f)
  rwa [List.length_map] at whole

end

/-! ## Trees -/

namespace Tree

/-- Every node stands over one of the alternatives of its nonterminal. -/
inductive IsDerivation (g : Grammar) : Tree → Prop where
  | leaf (token : Token) : IsDerivation g (.leaf token)
  | node {name : String} {children : List Tree}
      (alt : children.map symbol ∈ g.alternatives name)
      (below : ∀ t ∈ children, IsDerivation g t) : IsDerivation g (.node name children)

theorem leavesOf_singleton (t : Tree) : leavesOf [t] = t.leaves := by
  rw [leavesOf, leavesOf, List.append_nil]

/-- The kinds of the leaves, from left to right. -/
def word (t : Tree) : List Kind :=
  t.leaves.map Token.kind

/-- The kinds of the leaves of several trees. -/
def wordOf (ts : List Tree) : List Kind :=
  (leavesOf ts).map Token.kind

theorem wordOf_cons (t : Tree) (ts : List Tree) : wordOf (t :: ts) = t.word ++ wordOf ts := by
  rw [wordOf, leavesOf, List.map_append]
  rfl

/-- Trees side by side spell a word of the symbols at their roots when each of them does. -/
theorem wordOf_mem_language {meaning : String → Language Kind} {ts : List Tree}
    (h : ∀ t ∈ ts, t.word ∈ t.symbol.language meaning) :
    wordOf ts ∈ Alternative.language meaning (ts.map symbol) := by
  induction ts with
  | nil => exact rfl
  | cons t ts ih =>
    rw [wordOf_cons, List.map_cons, Alternative.language_cons]
    refine Language.append_mem_mul (h t List.mem_cons_self) (ih ?_)
    exact fun t' ht' => h t' (List.mem_cons_of_mem t ht')

/-- The leaves of a derivation tree spell a word of the symbol at its root. -/
theorem IsDerivation.mem_language {g : Grammar} {t : Tree} (h : t.IsDerivation g) :
    t.word ∈ t.symbol.language g.language := by
  induction h with
  | leaf token => exact rfl
  | node alt _ ih => exact Grammar.mem_language_of_alternative alt (wordOf_mem_language ih)

/-- The leaves of a derivation tree of the start symbol spell a word of the language. -/
theorem IsDerivation.mem_language_start {g : Grammar} {tree : Tree} {start : String}
    {tokens : List Token} (derivation : tree.IsDerivation g)
    (symbol : tree.symbol = .nonterminal start) (leaves : tree.leaves = tokens) :
    tokens.map Token.kind ∈ g.language start := by
  have word := derivation.mem_language
  rwa [symbol, Tree.word, leaves] at word

end Tree

/-- The derivation trees of the tokens. -/
def derivationTrees (g : Grammar) (start : String) (tokens : List Token) : Set Tree :=
  {tree | tree.IsDerivation g ∧ tree.symbol = .nonterminal start ∧ tree.leaves = tokens}

end TopDown
