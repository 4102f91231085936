import Mathlib
import TopDown.Analysis.Lookahead

/-
  Tables of token kinds, and why repeating a step on them comes to rest.

  There are nineteen kinds, so a table with a set of kinds for each of `n` names can grow at most
  `19 * n` times. A step that keeps the names and loses no kinds therefore changes nothing any more
  after that many repetitions (`step_stabilize_kinds`).
-/

namespace TopDown

/-! ## Counting kinds -/

namespace KindSet

variable {s t : KindSet}

theorem toList_sublist (h : ∀ k ∈ s, k ∈ t) : s.toList.Sublist t.toList := by
  refine List.monotone_filter_right Kind.bySpelling ?_
  intro k hk
  rw [decide_eq_true_eq] at hk ⊢
  exact h k hk

theorem length_toList_lt (h : ∀ k ∈ s, k ∈ t) (hne : s ≠ t) :
    s.toList.length < t.toList.length := by
  have sub := toList_sublist h
  refine Nat.lt_of_le_of_ne sub.length_le fun hlen => hne ?_
  ext k
  rw [← mem_toList, sub.eq_of_length hlen, mem_toList]

theorem length_toList_le (s : KindSet) : s.toList.length ≤ 19 :=
  List.length_filter_le (· ∈ s) Kind.bySpelling

end KindSet

/-! ## Catalogs as functions of the name -/

namespace Catalog

variable {β : Type}

theorem entries_ext {l l' : List (String × β)} (hl : (l.map Prod.fst).Nodup)
    (names : l.map Prod.fst = l'.map Prod.fst) (same : ∀ name, l.lookup name = l'.lookup name) :
    l = l' := by
  induction l generalizing l' with
  | nil => exact (List.map_eq_nil_iff.1 names.symm).symm
  | cons e l ih =>
    cases l' with
    | nil => cases names
    | cons e' l' =>
      obtain ⟨k, v⟩ := e
      obtain ⟨k', v'⟩ := e'
      obtain ⟨hk, rest⟩ := List.cons.inj names
      obtain rfl : k = k' := hk
      rw [List.map_cons, List.nodup_cons] at hl
      have absent : l.lookup k = none := lookup_eq_none_iff.2 hl.1
      have absent' : l'.lookup k = none := lookup_eq_none_iff.2 (rest ▸ hl.1)
      have value := same k
      rw [lookup_pair, lookup_pair, if_pos rfl, if_pos rfl, Option.some.injEq] at value
      subst value
      rw [ih hl.2 rest]
      intro name
      by_cases h : name = k
      · rw [h, absent, absent']
      · have := same name
        rwa [lookup_pair, lookup_pair, if_neg h, if_neg h] at this

/-- A catalog is its names in order with the value under each. -/
theorem ext_get? {c c' : Catalog β} (names : c.names = c'.names)
    (same : ∀ name, c.get? name = c'.get? name) : c = c' := by
  obtain ⟨l, hl⟩ := c
  obtain ⟨l', hl'⟩ := c'
  congr 1
  exact entries_ext hl names same

theorem get?_eq_some_kinds {t : Catalog KindSet} {name : String} (h : name ∈ t.names) :
    t.get? name = some (t.kinds name) := by
  obtain ⟨ks, hks⟩ := Option.isSome_iff_exists.1 (isSome_get?_iff.2 h)
  rw [kinds, hks]
  rfl

theorem kinds_eq_empty {t : Catalog KindSet} {name : String} (h : name ∉ t.names) :
    t.kinds name = ∅ := by
  rw [kinds, get?_eq_none_iff.2 h]
  rfl

theorem ext_kinds {t t' : Catalog KindSet} (names : t.names = t'.names)
    (same : ∀ name ∈ t.names, t.kinds name = t'.kinds name) : t = t' := by
  refine ext_get? names fun name => ?_
  by_cases h : name ∈ t.names
  · rw [get?_eq_some_kinds h, get?_eq_some_kinds (names ▸ h), same name h]
  · rw [get?_eq_none_iff.2 h, get?_eq_none_iff.2 (names ▸ h)]

theorem get?_ofList_map {f : String → β} {names : List String} {name : String} (h : name ∈ names) :
    (ofList (names.map fun n => (n, f n))).get? name = some (f name) := by
  -- what has been filed stays, since a name is always filed with the same value
  have filed : ∀ (names : List String) (c : Catalog β),
      (c.get? name = some (f name) ∨ name ∈ names) →
      ((names.map fun n => (n, f n)).foldl (fun c e => c.set e.1 e.2) c).get? name
        = some (f name) := by
    intro names
    induction names with
    | nil =>
      rintro c (hc | hn)
      · exact hc
      · exact absurd hn List.not_mem_nil
    | cons n names ih =>
      intro c hc
      rw [List.map_cons, List.foldl_cons]
      refine ih (c.set n (f n)) ?_
      by_cases hn : name = n
      · subst hn
        exact Or.inl (get?_set_self ..)
      · rcases hc with hc | hmem
        · exact Or.inl (by rw [get?_set_of_ne _ _ hn, hc])
        · exact Or.inr ((List.mem_cons.1 hmem).resolve_left hn)
  exact filed names ∅ (Or.inr h)

end Catalog

/-! ## Growing tables -/

/-- The number of entries in a table, over some names. -/
def weight (names : List String) (t : Catalog KindSet) : Nat :=
  (names.map fun name => (t.kinds name).toList.length).sum

theorem weight_le (names : List String) (t : Catalog KindSet) :
    weight names t ≤ 19 * names.length := by
  induction names with
  | nil => exact Nat.zero_le _
  | cons name names ih =>
    have here := KindSet.length_toList_le (t.kinds name)
    unfold weight at ih ⊢
    rw [List.map_cons, List.sum_cons, List.length_cons]
    omega

theorem weight_lt {t t' : Catalog KindSet} (names : t.names = t'.names)
    (grows : ∀ name, ∀ k ∈ t.kinds name, k ∈ t'.kinds name) (changed : t' ≠ t) :
    weight t.names t < weight t.names t' := by
  obtain ⟨name, hname, hne⟩ : ∃ name ∈ t.names, t.kinds name ≠ t'.kinds name := by
    by_contra h
    push Not at h
    exact changed (Catalog.ext_kinds names h).symm
  refine List.sum_lt_sum _ _ ?_ ⟨name, hname, KindSet.length_toList_lt (grows name) hne⟩
  exact fun other _ => (KindSet.toList_sublist (grows other)).length_le

/-- Repeating a step that keeps the names and loses no kinds comes to rest. -/
theorem step_stabilize_kinds {step : Catalog KindSet → Catalog KindSet} {names : List String}
    {P : Catalog KindSet → Prop} (kept : ∀ t, P t → P (step t))
    (hnames : ∀ t, P t → t.names = names)
    (grows : ∀ t, P t → ∀ name, ∀ k ∈ t.kinds name, k ∈ (step t).kinds name)
    {t : Catalog KindSet} (h : P t) :
    step (stabilize step (19 * names.length) t) = stabilize step (19 * names.length) t := by
  refine step_stabilize (weight names) (19 * names.length) kept (fun t _ => weight_le names t) ?_
    _ t h (Nat.le_add_left _ _)
  intro t ht changed
  have same := hnames t ht
  have := weight_lt (same.trans (hnames _ (kept t ht)).symm) (grows t ht) changed
  rwa [same] at this

end TopDown
