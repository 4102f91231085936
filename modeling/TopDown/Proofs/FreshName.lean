import Mathlib
import TopDown.Grammar.Fresh

/-
  The search for a made-up name ends at the least free number.

  `firstFree` looks at one number after the other and passes over taken names only. If the last name
  it may come to were taken too, the names it has seen would be pairwise different, all taken, and
  more than there are names taken. So it ends at a free name, and more tries change nothing
  (`firstFree_eq_next`). Each search begins above the number that the one before it ended at, so
  names that are drawn one after the other are different, whatever each of them had to avoid
  (`draw_least`).
-/

namespace TopDown

namespace FreshName

theorem spell_injective (tag : String) {m n : Int} (h : spell tag m = spell tag n) : m = n := by
  unfold spell at h
  rw [String.append_right_inj] at h
  exact Int.repr_injective h

variable {tag : String} {taken : List String} {tries : Nat} {m n counter : Int}

theorem le_firstFree (tag : String) (taken : List String) (tries : Nat) (n : Int) :
    n ≤ firstFree tag taken tries n := by
  induction tries generalizing n with
  | zero => exact Int.le_refl n
  | succ tries ih =>
    unfold firstFree
    split
    · exact Int.le_of_lt (ih (n + 1))
    · exact Int.le_refl n

/-- Every number that the search passes over belongs to a taken name. -/
theorem spell_mem_of_lt_firstFree (hm : n ≤ m) (h : m < firstFree tag taken tries n) :
    spell tag m ∈ taken := by
  induction tries generalizing n with
  | zero =>
    have : firstFree tag taken 0 n = n := rfl
    omega
  | succ tries ih =>
    unfold firstFree at h
    split at h
    · next here =>
      rcases Int.le_iff_eq_or_lt.1 hm with rfl | hlt
      · exact here
      · exact ih hlt h
    · omega

/-- A search that ends at a taken name has used up its tries. -/
theorem add_le_firstFree_of_mem (h : spell tag (firstFree tag taken tries n) ∈ taken) :
    n + tries ≤ firstFree tag taken tries n := by
  induction tries generalizing n with
  | zero =>
    have := le_firstFree tag taken 0 n
    omega
  | succ tries ih =>
    unfold firstFree at h ⊢
    split at h
    · next here =>
      rw [if_pos here]
      have := ih h
      omega
    · next here => exact absurd h here

theorem spell_firstFree_notMem (tag : String) (taken : List String) (n : Int)
    (h : taken.length ≤ tries) : spell tag (firstFree tag taken tries n) ∉ taken := by
  intro mem
  have long := add_le_firstFree_of_mem mem
  let seen := (List.range (tries + 1)).map fun i : Nat => spell tag (n + i)
  have nodup : seen.Nodup := by
    refine List.Nodup.map ?_ List.nodup_range
    intro i j hij
    have := spell_injective tag hij
    omega
  have subset : seen ⊆ taken := by
    intro name hname
    obtain ⟨i, hi, rfl⟩ := List.mem_map.1 hname
    have hi := List.mem_range.1 hi
    rcases lt_or_ge (n + i) (firstFree tag taken tries n) with hlt | hge
    · exact spell_mem_of_lt_firstFree (by omega) hlt
    · have : n + i = firstFree tag taken tries n := by omega
      rw [this]
      exact mem
  have := nodup.length_le_of_subset subset
  have : seen.length = tries + 1 := by simp [seen]
  omega

theorem spell_next_notMem (counter : Int) (tag : String) (taken : List String) :
    spell tag (next counter tag taken) ∉ taken :=
  spell_firstFree_notMem tag taken (counter + 1) (Nat.le_refl _)

theorem lt_next (counter : Int) (tag : String) (taken : List String) :
    counter < next counter tag taken :=
  le_firstFree tag taken taken.length (counter + 1)

/-- The number of the next name after a natural one is natural. -/
theorem toNat_next (counter : Nat) (tag : String) (taken : List String) :
    ((next counter tag taken).toNat : Int) = next counter tag taken := by
  have := lt_next counter tag taken
  omega

theorem lt_toNat_next (counter : Nat) (tag : String) (taken : List String) :
    counter < (next counter tag taken).toNat := by
  have := lt_next counter tag taken
  omega

theorem isLeast_firstFree (tag : String) (taken : List String) (counter : Int)
    (h : taken.length ≤ tries) :
    IsLeast {n : Int | counter < n ∧ spell tag n ∉ taken}
      (firstFree tag taken tries (counter + 1)) := by
  refine ⟨⟨le_firstFree tag taken tries (counter + 1), spell_firstFree_notMem tag taken _ h⟩, ?_⟩
  rintro n ⟨above, free⟩
  by_contra below
  exact free (spell_mem_of_lt_firstFree above (Int.not_le.1 below))

/-- The search has ended after as many tries as there are names taken. -/
theorem firstFree_eq_next (counter : Int) (h : taken.length ≤ tries) :
    firstFree tag taken tries (counter + 1) = next counter tag taken :=
  (isLeast_firstFree tag taken counter h).unique
    (isLeast_firstFree tag taken counter (Nat.le_refl _))

/-! ## Names drawn one after the other -/

/-- The names drawn with one tag, one for each list of names to be avoided. -/
def series (tag : String) : Int → List (List String) → List String
  | _, [] => []
  | counter, taken :: more =>
    let (name, after) := draw counter tag taken
    name :: series tag after more

theorem series_cons (tag : String) (counter : Int) (taken : List String)
    (more : List (List String)) :
    series tag counter (taken :: more)
      = spell tag (next counter tag taken) :: series tag (next counter tag taken) more :=
  rfl

/-- The numbers of a series are above the counter it began with. -/
theorem exists_of_mem_series {name : String} {lists : List (List String)}
    (h : name ∈ series tag counter lists) : ∃ n, counter < n ∧ name = spell tag n := by
  induction lists generalizing counter with
  | nil => cases h
  | cons taken more ih =>
    have above := lt_next counter tag taken
    rw [series_cons] at h
    obtain rfl | h := List.mem_cons.1 h
    · exact ⟨_, above, rfl⟩
    · obtain ⟨n, later, rfl⟩ := ih h
      exact ⟨n, Int.lt_trans above later, rfl⟩

theorem nodup_series (tag : String) (counter : Int) (lists : List (List String)) :
    (series tag counter lists).Nodup := by
  induction lists generalizing counter with
  | nil => exact List.nodup_nil
  | cons taken more ih =>
    rw [series_cons, List.nodup_cons]
    refine ⟨fun again => ?_, ih _⟩
    obtain ⟨n, later, same⟩ := exists_of_mem_series again
    have := spell_injective tag same
    omega

/-- A name that is drawn has the least number above the counter whose name is not taken, and the
counter is left at that number. The search for it ends: any number of tries from some number on
comes to the same. In whatever order names with one tag are drawn, and whatever each of them has to
avoid, no name comes twice. -/
theorem draw_least (tag : String) :
    (∀ (taken : List String) (counter : Int), ∃ n : Int,
      draw counter tag taken = ("__" ++ tag ++ toString n, n) ∧
        IsLeast {m : Int | counter < m ∧ "__" ++ tag ++ toString m ∉ taken} n ∧
        ∃ tries, ∀ more, firstFree tag taken (tries + more) (counter + 1) = n) ∧
      ∀ (counter : Int) (lists : List (List String)), (series tag counter lists).Nodup := by
  refine ⟨fun taken counter => ⟨next counter tag taken, rfl, ?_, taken.length, fun more => ?_⟩,
    nodup_series tag⟩
  · exact isLeast_firstFree tag taken counter (Nat.le_refl _)
  · exact firstFree_eq_next counter (Nat.le_add_right _ more)

end FreshName

end TopDown
