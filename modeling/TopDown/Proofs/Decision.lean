import TopDown.Analysis.Decision
import TopDown.Proofs.Rules

/-
  Choosing by the next kind. What is chosen is a candidate (`mem_candidates_of_select`), where there
  is a candidate something is chosen (`exists_select`), and without conflicts there is at most one
  candidate (`candidates_unique`). So without conflicts the candidate is what is chosen.
-/

namespace TopDown

theorem Prospect.mem_candidates {p : Prospect} {follow : KindSet} {kind : Kind} :
    kind ∈ p.candidates follow ↔
      kind ∈ p.first ∨ p.nullable = true ∧ kind ∈ follow.insert .endOfInput := by
  unfold candidates
  split
  · next null => simp [null]
  · next null => simp [null]

namespace DecisionTable

variable {t : DecisionTable} {name : String} {kind : Kind} {i j : Nat}

theorem mem_candidatesIn {row : List Prospect} {follow : KindSet} :
    i ∈ candidatesIn row follow kind ↔ ∃ p, row[i]? = some p ∧ kind ∈ p.candidates follow := by
  simp only [candidatesIn, List.mem_map, List.mem_filter, Prod.exists, decide_eq_true_eq,
    List.mem_zipIdx_iff_getElem?]
  constructor
  · rintro ⟨p, _, ⟨hp, hk⟩, rfl⟩
    exact ⟨p, hp, hk⟩
  · rintro ⟨p, hp, hk⟩
    exact ⟨p, i, ⟨hp, hk⟩, rfl⟩

theorem mem_candidates :
    i ∈ t.candidates name kind ↔
      ∃ p, (t.row name)[i]? = some p ∧ kind ∈ p.candidates (t.follow name) :=
  mem_candidatesIn

theorem mem_candidates_of_select (h : t.select name kind = some i) :
    i ∈ t.candidates name kind := by
  rw [mem_candidates]
  unfold select at h
  dsimp only at h
  split at h
  · next k hk =>
    cases h
    obtain ⟨hi, first, -⟩ := List.findIdx?_eq_some_iff_getElem.1 hk
    rw [decide_eq_true_eq] at first
    exact ⟨_, List.getElem?_eq_getElem hi, Prospect.mem_candidates.2 (Or.inl first)⟩
  · obtain ⟨hi, candidate, -⟩ := List.findIdx?_eq_some_iff_getElem.1 h
    rw [decide_eq_true_eq] at candidate
    exact ⟨_, List.getElem?_eq_getElem hi, candidate⟩

theorem exists_select (h : i ∈ t.candidates name kind) : ∃ j, t.select name kind = some j := by
  obtain ⟨p, hp, hk⟩ := mem_candidates.1 h
  unfold select
  dsimp only
  split
  · next j _ => exact ⟨j, rfl⟩
  · rw [← Option.isSome_iff_exists, List.findIdx?_isSome, List.any_eq_true]
    exact ⟨p, List.mem_of_getElem? hp, decide_eq_true hk⟩

theorem length_candidates_le (h : t.conflicts = []) (name : String) (kind : Kind) :
    (t.candidates name kind).length ≤ 1 := by
  unfold candidates row
  cases hrow : t.rows.get? name with
  | none => exact Nat.zero_le 1
  | some row =>
    rw [conflicts, List.flatMap_eq_nil_iff] at h
    have quiet := h (name, row) (Catalog.mem_entries_iff.2 hrow)
    rw [List.filterMap_eq_nil_iff] at quiet
    have here := quiet kind (Kind.mem_bySpelling kind)
    by_contra more
    have claimed : (candidatesIn row (t.follow name) kind).length > 1 := Nat.lt_of_not_le more
    simp [claimed] at here

/-- Without conflicts there is at most one candidate. -/
theorem candidates_unique (h : t.conflicts = []) (hi : i ∈ t.candidates name kind)
    (hj : j ∈ t.candidates name kind) : i = j := by
  have few := length_candidates_le h name kind
  obtain ⟨k, hk⟩ := List.length_eq_one_iff.1 (Nat.le_antisymm few (List.length_pos_of_mem hi))
  rw [hk, List.mem_singleton] at hi hj
  rw [hi, hj]

/-- Without conflicts the candidate is chosen. -/
theorem select_eq_some (h : t.conflicts = []) (hi : i ∈ t.candidates name kind) :
    t.select name kind = some i := by
  obtain ⟨j, hj⟩ := exists_select hi
  rw [hj, candidates_unique h (mem_candidates_of_select hj) hi]

/-- What a nonterminal is expected to go on with: any kind on which there is a candidate, except
for the end of input where it cannot follow. -/
theorem mem_expected :
    kind ∈ t.expected name ↔ (∃ i, i ∈ t.candidates name kind) ∧
      (kind = .endOfInput → kind ∈ t.follow name) := by
  unfold expected
  rw [KindSet.mem_filter, KindSet.mem_unions]
  refine and_congr ?_ ?_
  · simp only [List.mem_map, exists_exists_and_eq_and, mem_candidates]
    constructor
    · rintro ⟨p, hp, hk⟩
      obtain ⟨i, hi⟩ := List.getElem?_of_mem hp
      exact ⟨i, p, hi, hk⟩
    · rintro ⟨i, p, hi, hk⟩
      exact ⟨p, List.mem_of_getElem? hi, hk⟩
  · simp [imp_iff_not_or]

end DecisionTable

namespace Grammar

variable {g : Grammar} {name : String} {alt : Alternative} {kind : Kind} {i : Nat}

/-- The row of a nonterminal has a prospect for each alternative. -/
theorem row_decisionTable (g : Grammar) (name : String) :
    g.decisionTable.row name = (g.alternatives name).map fun alt =>
      ⟨g.lookahead.firstOf alt, g.lookahead.isNullable alt⟩ := by
  unfold DecisionTable.row decisionTable alternatives
  dsimp only
  rw [Catalog.get?_map]
  cases g.rules.get? name <;> rfl

/-- An alternative is a candidate on what it can begin with, and on what follows and at the end of
input when it can be left out. -/
theorem mem_candidates_iff (hi : (g.alternatives name)[i]? = some alt) :
    i ∈ g.decisionTable.candidates name kind ↔
      kind ∈ g.lookahead.firstOf alt ∨ g.lookahead.isNullable alt = true ∧
        kind ∈ (g.lookahead.follow.kinds name).insert .endOfInput := by
  rw [DecisionTable.mem_candidates, row_decisionTable, List.getElem?_map, hi, Option.map_some]
  constructor
  · rintro ⟨p, hp, hk⟩
    cases hp
    exact Prospect.mem_candidates.1 hk
  · intro h
    exact ⟨_, rfl, Prospect.mem_candidates.2 h⟩

theorem exists_alternative_of_select (h : g.decisionTable.select name kind = some i) :
    ∃ alt ∈ g.alternatives name, (g.alternatives name)[i]? = some alt := by
  obtain ⟨p, hp, -⟩ := DecisionTable.mem_candidates.1 (DecisionTable.mem_candidates_of_select h)
  rw [row_decisionTable, List.getElem?_map, Option.map_eq_some_iff] at hp
  obtain ⟨alt, halt, -⟩ := hp
  exact ⟨alt, List.mem_of_getElem? halt, halt⟩

end Grammar

end TopDown
