/-
  Catalogs: values filed under names, in the order in which the names were first entered. No name
  is filed twice. Giving a name a new value keeps its place.

  `names`, `get?` and `set` are tied together by `names_set`, `get?_set_self` and
  `get?_set_of_ne`; later proofs use those and not the list of entries.
-/

namespace TopDown

structure Catalog (β : Type) where
  entries : List (String × β)
  nodup : (entries.map Prod.fst).Nodup
  deriving DecidableEq

namespace Catalog

variable {β γ : Type}

def empty : Catalog β := ⟨[], by simp⟩

instance : EmptyCollection (Catalog β) := ⟨empty⟩

/-- The names, in the order in which they were first entered. -/
def names (c : Catalog β) : List String :=
  c.entries.map Prod.fst

def get? (c : Catalog β) (name : String) : Option β :=
  c.entries.lookup name

/-- Replaces the value under a name in a list of entries. -/
def replaceIn (entries : List (String × β)) (name : String) (value : β) : List (String × β) :=
  entries.map fun e => if e.1 = name then (name, value) else e

theorem map_fst_replaceIn (entries : List (String × β)) (name : String) (value : β) :
    (replaceIn entries name value).map Prod.fst = entries.map Prod.fst := by
  simp only [replaceIn, List.map_map]
  apply List.map_congr_left
  intro e _
  simp only [Function.comp]
  split
  · next h => exact h.symm
  · rfl

/-- Files a value under a name: in the place of the old value, or else at the end. -/
def set (c : Catalog β) (name : String) (value : β) : Catalog β :=
  if h : name ∈ c.names then
    ⟨replaceIn c.entries name value, by rw [map_fst_replaceIn]; exact c.nodup⟩
  else
    ⟨c.entries ++ [(name, value)], by
      rw [List.map_append, List.nodup_append]
      refine ⟨c.nodup, by simp, ?_⟩
      intro a ha b hb hab
      have : b = name := by simpa using hb
      exact h (this ▸ hab ▸ ha)⟩

/-- Files several values, one after the other. -/
def ofList (entries : List (String × β)) : Catalog β :=
  entries.foldl (fun c e => c.set e.1 e.2) ∅

/-- A new value for every name, made from the name and the old value. -/
def map (f : String → β → γ) (c : Catalog β) : Catalog γ :=
  ⟨c.entries.map fun e => (e.1, f e.1 e.2), by
    have : ((c.entries.map fun e => (e.1, f e.1 e.2)).map Prod.fst) = c.entries.map Prod.fst := by
      simp [Function.comp_def]
    rw [this]; exact c.nodup⟩

theorem lookup_pair (k : String) (v : β) (rest : List (String × β)) (name : String) :
    ((k, v) :: rest).lookup name = if name = k then some v else rest.lookup name := by
  by_cases h : name = k
  · simp [h]
  · simp [List.lookup_cons, h, beq_false_of_ne h]

theorem lookup_eq_none_iff {entries : List (String × β)} {name : String} :
    entries.lookup name = none ↔ name ∉ entries.map Prod.fst := by
  induction entries with
  | nil => simp
  | cons e rest ih =>
    obtain ⟨k, v⟩ := e
    rw [lookup_pair, List.map_cons, List.mem_cons, not_or]
    by_cases h : name = k
    · simp [h]
    · rw [if_neg h, ih]
      exact ⟨fun hr => ⟨h, hr⟩, And.right⟩

theorem lookup_replaceIn_self {entries : List (String × β)} {name : String} (value : β)
    (h : name ∈ entries.map Prod.fst) : (replaceIn entries name value).lookup name = some value := by
  induction entries with
  | nil => simp at h
  | cons e rest ih =>
    obtain ⟨k, v⟩ := e
    by_cases hk : k = name
    · simp [replaceIn, hk]
    · have hr : name ∈ rest.map Prod.fst :=
        (List.mem_cons.1 h).resolve_left (Ne.symm hk)
      have step : replaceIn ((k, v) :: rest) name value = (k, v) :: replaceIn rest name value := by
        simp [replaceIn, hk]
      rw [step, lookup_pair, if_neg (Ne.symm hk), ih hr]

theorem lookup_replaceIn_of_ne {entries : List (String × β)} {name other : String} (value : β)
    (h : other ≠ name) : (replaceIn entries name value).lookup other = entries.lookup other := by
  induction entries with
  | nil => rfl
  | cons e rest ih =>
    obtain ⟨k, v⟩ := e
    by_cases hk : k = name
    · have step : replaceIn ((k, v) :: rest) name value
          = (name, value) :: replaceIn rest name value := by simp [replaceIn, hk]
      rw [step, lookup_pair, lookup_pair, if_neg h, if_neg (hk ▸ h), ih]
    · have step : replaceIn ((k, v) :: rest) name value = (k, v) :: replaceIn rest name value := by
        simp [replaceIn, hk]
      rw [step, lookup_pair, lookup_pair, ih]

theorem get?_eq_none_iff {c : Catalog β} {name : String} : c.get? name = none ↔ name ∉ c.names :=
  lookup_eq_none_iff

theorem isSome_get?_iff {c : Catalog β} {name : String} :
    (c.get? name).isSome = true ↔ name ∈ c.names := by
  rw [← Decidable.not_iff_not, ← get?_eq_none_iff]
  simp

@[simp] theorem get?_empty (name : String) : (∅ : Catalog β).get? name = none := rfl

theorem nodup_names (c : Catalog β) : c.names.Nodup := c.nodup

theorem names_set (c : Catalog β) (name : String) (value : β) :
    (c.set name value).names = if name ∈ c.names then c.names else c.names ++ [name] := by
  unfold set
  split
  · exact map_fst_replaceIn _ _ _
  · simp [names]

@[simp] theorem get?_set_self (c : Catalog β) (name : String) (value : β) :
    (c.set name value).get? name = some value := by
  unfold set
  split
  · next h => exact lookup_replaceIn_self value h
  · next h =>
    have : c.entries.lookup name = none := lookup_eq_none_iff.2 h
    simp [get?, List.lookup_append, this]

theorem get?_set_of_ne (c : Catalog β) {name other : String} (value : β) (h : other ≠ name) :
    (c.set name value).get? other = c.get? other := by
  unfold set
  split
  · exact lookup_replaceIn_of_ne value h
  · simp [get?, List.lookup_append, List.lookup_cons, beq_false_of_ne h]

theorem get?_set_eq_some {c : Catalog β} {name other : String} {value found : β} :
    (c.set name value).get? other = some found ↔
      other = name ∧ found = value ∨ other ≠ name ∧ c.get? other = some found := by
  by_cases h : other = name
  · subst h
    simp [eq_comm]
  · rw [get?_set_of_ne c value h]
    simp [h]

@[simp] theorem names_map (c : Catalog β) (f : String → β → γ) : (c.map f).names = c.names := by
  simp [map, names, Function.comp_def]

@[simp] theorem get?_map (c : Catalog β) (f : String → β → γ) (name : String) :
    (c.map f).get? name = (c.get? name).map (f name) := by
  simp only [map, get?]
  induction c.entries with
  | nil => rfl
  | cons e rest ih =>
    obtain ⟨k, v⟩ := e
    rw [List.map_cons, lookup_pair, lookup_pair, ih]
    split
    · next h => simp [h]
    · rfl

end Catalog

end TopDown
