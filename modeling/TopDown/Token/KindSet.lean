import TopDown.Token.Kind

/-
  Finite sets of token kinds, one bit for each kind. Two sets with the same members are equal
  (`KindSet.ext`), so a set can be compared, and the analyses can stop when nothing changes.
  `toList` lists the members in the order of their spellings, the order in which they are shown.
-/

namespace TopDown

structure KindSet where
  bits : BitVec 19
  deriving DecidableEq

namespace KindSet

/-- The bit of a kind. -/
def bit (k : Kind) : Nat := k.ctorIdx

instance : Membership Kind KindSet where
  mem s k := s.bits.getLsbD (bit k) = true

instance (k : Kind) (s : KindSet) : Decidable (k ∈ s) :=
  inferInstanceAs (Decidable (s.bits.getLsbD (bit k) = true))

def empty : KindSet := ⟨0#19⟩

instance : EmptyCollection KindSet := ⟨empty⟩

def insert (k : Kind) (s : KindSet) : KindSet :=
  ⟨s.bits ||| BitVec.twoPow 19 (bit k)⟩

def singleton (k : Kind) : KindSet := insert k ∅

def union (s t : KindSet) : KindSet := ⟨s.bits ||| t.bits⟩

instance : Union KindSet := ⟨union⟩

/-- The members, ordered by spelling. -/
def toList (s : KindSet) : List Kind :=
  Kind.bySpelling.filter (· ∈ s)

def ofList (ks : List Kind) : KindSet :=
  ks.foldr insert ∅

/-- The members that pass a test. -/
def filter (p : Kind → Bool) (s : KindSet) : KindSet :=
  ofList (s.toList.filter p)

/-- The union of several sets. -/
def unions (sets : List KindSet) : KindSet :=
  sets.foldr union ∅

/-- The spellings of the members between braces. -/
def text (s : KindSet) : String :=
  "\x7b" ++ ", ".intercalate (s.toList.map Kind.spelling) ++ "\x7d"

theorem mem_def {k : Kind} {s : KindSet} : k ∈ s ↔ s.bits.getLsbD (bit k) = true := Iff.rfl

theorem bit_lt (k : Kind) : bit k < 19 := by
  cases k <;> decide

theorem bit_injective {a b : Kind} (h : bit a = bit b) : a = b := by
  have all : ∀ a ∈ Kind.bySpelling, ∀ b ∈ Kind.bySpelling, bit a = bit b → a = b := by decide
  exact all a (Kind.mem_bySpelling a) b (Kind.mem_bySpelling b) h

theorem exists_bit {i : Nat} (h : i < 19) : ∃ k, bit k = i := by
  have all : ∀ j : Fin 19, ∃ k ∈ Kind.bySpelling, bit k = j.val := by decide
  obtain ⟨k, _, hk⟩ := all ⟨i, h⟩
  exact ⟨k, hk⟩

@[ext] theorem ext {s t : KindSet} (h : ∀ k, k ∈ s ↔ k ∈ t) : s = t := by
  obtain ⟨s⟩ := s
  obtain ⟨t⟩ := t
  congr 1
  apply BitVec.eq_of_getLsbD_eq
  intro i hi
  obtain ⟨k, rfl⟩ := exists_bit hi
  exact Bool.eq_iff_iff.2 (h k)

@[simp] theorem not_mem_empty (k : Kind) : k ∉ (∅ : KindSet) := by
  simp [mem_def, EmptyCollection.emptyCollection, empty]

@[simp] theorem mem_insert {k a : Kind} {s : KindSet} : k ∈ insert a s ↔ k = a ∨ k ∈ s := by
  simp only [mem_def, insert, BitVec.getLsbD_or, BitVec.getLsbD_twoPow, Bool.or_eq_true,
    Bool.and_eq_true, decide_eq_true_eq, bit_lt, true_and]
  constructor
  · rintro (h | h)
    · exact Or.inr h
    · exact Or.inl (bit_injective h.symm)
  · rintro (h | h)
    · exact Or.inr (h ▸ rfl)
    · exact Or.inl h

@[simp] theorem mem_singleton {k a : Kind} : k ∈ singleton a ↔ k = a := by
  simp [singleton]

@[simp] theorem mem_union {k : Kind} {s t : KindSet} : k ∈ s ∪ t ↔ k ∈ s ∨ k ∈ t := by
  simp [mem_def, Union.union, union]

@[simp] theorem mem_ofList {k : Kind} {ks : List Kind} : k ∈ ofList ks ↔ k ∈ ks := by
  induction ks with
  | nil => simp [ofList]
  | cons a ks ih => simpa [ofList] using or_congr_right ih

@[simp] theorem mem_toList {k : Kind} {s : KindSet} : k ∈ s.toList ↔ k ∈ s := by
  simp [toList, Kind.mem_bySpelling]

@[simp] theorem mem_filter {k : Kind} {p : Kind → Bool} {s : KindSet} :
    k ∈ s.filter p ↔ k ∈ s ∧ p k = true := by
  simp [filter]

theorem mem_unions {k : Kind} {sets : List KindSet} : k ∈ unions sets ↔ ∃ s ∈ sets, k ∈ s := by
  induction sets with
  | nil => simp [unions]
  | cons a rest ih =>
    have : unions (a :: rest) = a ∪ unions rest := rfl
    simp [this, ih]

end KindSet

end TopDown
