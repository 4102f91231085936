import TopDown.Proofs.Decision
import TopDown.Proofs.Exactness

/-
  The decision table is the LL(1) table of a grammar, and its conflicts are the places where the
  grammar is not LL(1).

  The grammar's side is told by derivations alone. An alternative is predicted on a kind when it
  derives something that begins with the kind, or derives the empty sequence and the kind follows
  the nonterminal or is the end of input (`Predicts`). The candidates in the table are the predicted
  alternatives (`mem_candidates_iff_predicts`). What remains is how the table lists them: a conflict
  for each kind with two candidates, in order (`mem_conflicts_iff`, `pairwise_conflicts`), and the
  choice of one of them (`select_eq_some_iff`).
-/

namespace TopDown

/-- The end of a search from the left is the least place that passes the test. -/
theorem findIdx?_eq_some_iff_isLeast {α : Type} {p : α → Bool} {l : List α} {i : Nat} :
    l.findIdx? p = some i ↔ IsLeast {i | ∃ a, l[i]? = some a ∧ p a = true} i := by
  rw [List.findIdx?_eq_some_iff_getElem]
  constructor
  · rintro ⟨inside, passes, earlier⟩
    refine ⟨⟨l[i], List.getElem?_eq_getElem inside, passes⟩, ?_⟩
    rintro j ⟨a, ha, hp⟩
    obtain ⟨hj, rfl⟩ := List.getElem?_eq_some_iff.1 ha
    exact Nat.le_of_not_lt fun before => earlier j before hp
  · rintro ⟨⟨a, ha, passes⟩, least⟩
    obtain ⟨inside, rfl⟩ := List.getElem?_eq_some_iff.1 ha
    refine ⟨inside, passes, fun j before hp => ?_⟩
    have : i ≤ j := least ⟨l[j], List.getElem?_eq_getElem (before.trans inside), hp⟩
    omega

/-- In a list without repetitions every element stands before those after it. -/
theorem pairwise_idxOf_lt {names : List String} (nodup : names.Nodup) :
    names.Pairwise fun a b => names.idxOf a < names.idxOf b := by
  rw [List.pairwise_iff_getElem]
  intro i j hi hj before
  rwa [nodup.idxOf_getElem i hi, nodup.idxOf_getElem j hj]

theorem Kind.pairwise_bySpelling :
    Kind.bySpelling.Pairwise fun a b => a.spelling < b.spelling := by
  decide

/-! ## The list of conflicts -/

namespace DecisionTable

variable {t : DecisionTable} {name : String} {kind : Kind}

theorem pairwise_candidates : (t.candidates name kind).Pairwise (· < ·) := by
  unfold candidates candidatesIn
  have places : ((t.row name).zipIdx.map Prod.snd).Pairwise (· < ·) := by
    rw [List.zipIdx_map_snd]
    exact List.pairwise_lt_range'
  exact places.sublist (List.filter_sublist.map _)

/-- There is a conflict where there are two candidates or more, and it lists all of them. -/
theorem mem_conflicts_iff {c : Conflict} :
    c ∈ t.conflicts ↔ c.alts = t.candidates c.name c.kind ∧ 2 ≤ c.alts.length := by
  obtain ⟨name, kind, alts⟩ := c
  unfold conflicts candidates row
  simp only [List.mem_flatMap, List.mem_filterMap, Prod.exists]
  constructor
  · rintro ⟨_, row, hrow, _, -, found⟩
    split at found
    · next several =>
      cases found
      rw [Catalog.mem_entries_iff.1 hrow]
      exact ⟨rfl, several⟩
    · cases found
  · rintro ⟨rfl, several⟩
    cases hrow : t.rows.get? name with
    | none =>
      rw [hrow] at several
      exact absurd several (Nat.not_succ_le_zero 1)
    | some row =>
      rw [hrow] at several
      exact ⟨name, row, Catalog.mem_entries_iff.2 hrow, kind, Kind.mem_bySpelling kind,
        if_pos several⟩

/-- Conflicts come in the order of the nonterminals and then of the spellings, and no two of them
are for the same nonterminal and kind. -/
theorem pairwise_conflicts :
    t.conflicts.Pairwise fun c d => t.rows.names.idxOf c.name < t.rows.names.idxOf d.name ∨
      c.name = d.name ∧ c.kind.spelling < d.kind.spelling := by
  have named : ∀ {name : String} {kind : Kind} {alts : List Nat} {c : Conflict},
      (if alts.length > 1 then some (⟨name, kind, alts⟩ : Conflict) else none) = some c →
        c.name = name ∧ c.kind = kind := by
    intro name kind alts c h
    split at h
    · cases h
      exact ⟨rfl, rfl⟩
    · cases h
  unfold conflicts
  rw [List.pairwise_flatMap]
  constructor
  · rintro ⟨name, row⟩ -
    rw [List.pairwise_filterMap]
    refine Kind.pairwise_bySpelling.imp fun {k l} before c hc d hd => Or.inr ?_
    obtain ⟨hcname, rfl⟩ := named hc
    obtain ⟨hdname, rfl⟩ := named hd
    exact ⟨hcname.trans hdname.symm, before⟩
  · have order : t.rows.entries.Pairwise fun e f =>
        t.rows.names.idxOf e.1 < t.rows.names.idxOf f.1 :=
      List.Pairwise.of_map Prod.fst (fun _ _ before => before)
        (pairwise_idxOf_lt t.rows.nodup_names)
    refine order.imp fun {e f} before c hc d hd => Or.inl ?_
    obtain ⟨_, -, hc⟩ := List.mem_filterMap.1 hc
    obtain ⟨_, -, hd⟩ := List.mem_filterMap.1 hd
    rwa [(named hc).1, (named hd).1]

theorem conflicts_eq_nil_iff :
    t.conflicts = [] ↔ ∀ name kind, ∀ i ∈ t.candidates name kind,
      ∀ j ∈ t.candidates name kind, i = j := by
  constructor
  · intro quiet name kind i hi j hj
    exact candidates_unique quiet hi hj
  · intro single
    refine List.eq_nil_iff_forall_not_mem.2 fun c hc => ?_
    obtain ⟨all, several⟩ := mem_conflicts_iff.1 hc
    have first : c.alts[0] ∈ t.candidates c.name c.kind := all ▸ List.getElem_mem _
    have second : c.alts[1] ∈ t.candidates c.name c.kind := all ▸ List.getElem_mem _
    have ascending : c.alts.Pairwise (· < ·) := all ▸ pairwise_candidates
    have before := List.pairwise_iff_getElem.1 ascending 0 1 (by omega) (by omega) (by omega)
    have same := single c.name c.kind _ first _ second
    omega

end DecisionTable

namespace Grammar

variable {g : Grammar} {name : String} {alt : Alternative} {kind : Kind} {i : Nat}

/-! ## Predicted alternatives -/

/-- The alternative can be taken when the next token is of the kind: it derives something that
begins with the kind, or it derives the empty sequence and the kind follows the nonterminal or is
the end of input. -/
def Predicts (g : Grammar) (name : String) (alt : Alternative) (kind : Kind) : Prop :=
  g.Begins alt kind ∨ g.Derives alt [] ∧ (g.Follows name kind ∨ kind = .endOfInput)

/-- Where the alternatives of a nonterminal with some property stand, counted from zero. -/
def placesOf (g : Grammar) (name : String) (P : Alternative → Prop) : Set Nat :=
  {i | ∃ alt, (g.alternatives name)[i]? = some alt ∧ P alt}

theorem mem_placesOf {P : Alternative → Prop} (hi : (g.alternatives name)[i]? = some alt) :
    i ∈ g.placesOf name P ↔ P alt := by
  constructor
  · rintro ⟨other, ho, h⟩
    rw [hi, Option.some.injEq] at ho
    exact ho ▸ h
  · exact fun h => ⟨alt, hi, h⟩

/-- Other kinds than the end of input are found to follow where they do. -/
theorem mem_follow_iff_follows (proper : kind ≠ .endOfInput) :
    kind ∈ g.lookahead.follow.kinds name ↔ g.Follows name kind := by
  refine ⟨follows_of_mem_follow, fun follows => ?_⟩
  cases follows with
  | last => exact absurd rfl proper
  | @inside owner _ before after _ derived =>
    have opens : g.lookahead.Opens (.terminal kind :: after) kind :=
      Or.inl (KindSet.mem_singleton.2 rfl)
    exact (mem_follow_of_derives derived opens).resolve_right fun ends => proper ends.1

theorem mem_insert_follow_iff :
    kind ∈ (g.lookahead.follow.kinds name).insert .endOfInput ↔
      g.Follows name kind ∨ kind = .endOfInput := by
  rw [KindSet.mem_insert, or_comm]
  by_cases h : kind = .endOfInput
  · simp [h]
  · rw [mem_follow_iff_follows h]

/-- The candidates on a kind are the alternatives that are predicted on it. -/
theorem mem_candidates_iff_predicts :
    i ∈ g.decisionTable.candidates name kind ↔
      i ∈ g.placesOf name fun alt => g.Predicts name alt kind := by
  cases hi : (g.alternatives name)[i]? with
  | none =>
    refine iff_of_false (fun h => ?_) ?_
    · obtain ⟨p, hp, -⟩ := DecisionTable.mem_candidates.1 h
      rw [row_decisionTable, List.getElem?_map, hi] at hp
      cases hp
    · rintro ⟨alt, halt, -⟩
      rw [hi] at halt
      cases halt
  | some alt =>
    rw [mem_candidates_iff hi, mem_placesOf hi, Predicts, mem_firstOf_iff_begins,
      isNullable_iff_derives, mem_insert_follow_iff]

/-- Conflicts are about declared nonterminals. -/
theorem declared_of_mem_conflicts {c : Conflict} (h : c ∈ g.conflicts) :
    c.name ∈ g.nonterminals := by
  obtain ⟨all, several⟩ := DecisionTable.mem_conflicts_iff.1 h
  have first : c.alts[0] ∈ g.decisionTable.candidates c.name c.kind := all ▸ List.getElem_mem _
  obtain ⟨alt, halt, -⟩ := mem_candidates_iff_predicts.1 first
  exact mem_nonterminals_of_mem_alternatives (List.mem_of_getElem? halt)

/-! ## The alternative that is chosen -/

/-- A search through the row of a nonterminal ends at the least place that passes the test. -/
theorem findIdx?_row_eq_some_iff {p : Prospect → Bool} {P : Alternative → Prop}
    (test : ∀ alt, p ⟨g.lookahead.firstOf alt, g.lookahead.isNullable alt⟩ = true ↔ P alt) :
    (g.decisionTable.row name).findIdx? p = some i ↔ IsLeast (g.placesOf name P) i := by
  rw [row_decisionTable, List.findIdx?_map, findIdx?_eq_some_iff_isLeast]
  simp only [Function.comp_apply, test]
  rfl

theorem findIdx?_row_eq_none_iff {p : Prospect → Bool} {P : Alternative → Prop}
    (test : ∀ alt, p ⟨g.lookahead.firstOf alt, g.lookahead.isNullable alt⟩ = true ↔ P alt) :
    (g.decisionTable.row name).findIdx? p = none ↔ g.placesOf name P = ∅ := by
  rw [Set.eq_empty_iff_forall_notMem]
  constructor
  · rintro none i ⟨alt, halt, h⟩
    rw [row_decisionTable, List.findIdx?_map, List.findIdx?_eq_none_iff] at none
    have fails := none alt (List.mem_of_getElem? halt)
    rw [Function.comp_apply, (test alt).2 h] at fails
    cases fails
  · intro none
    refine Option.eq_none_iff_forall_ne_some.2 fun i found => ?_
    exact none i ((findIdx?_row_eq_some_iff test).1 found).1

/-- The least alternative that can begin with the kind is chosen. Where there is none, the least one
that can be left out and is predicted is. -/
theorem select_eq_some_iff :
    g.decisionTable.select name kind = some i ↔
      IsLeast (g.placesOf name fun alt => g.Begins alt kind) i ∨
        (g.placesOf name fun alt => g.Begins alt kind) = ∅ ∧
          IsLeast (g.placesOf name fun alt => g.Derives alt [] ∧ g.Predicts name alt kind) i := by
  have begins : ∀ alt, decide (kind ∈ g.lookahead.firstOf alt) = true ↔ g.Begins alt kind :=
    fun alt => decide_eq_true_iff.trans mem_firstOf_iff_begins
  have predicts : ∀ alt, decide (kind ∈ Prospect.candidates (g.decisionTable.follow name)
      ⟨g.lookahead.firstOf alt, g.lookahead.isNullable alt⟩) = true ↔ g.Predicts name alt kind := by
    intro alt
    rw [decide_eq_true_iff, Prospect.mem_candidates, Predicts, mem_firstOf_iff_begins,
      isNullable_iff_derives]
    exact or_congr_right (and_congr_right fun _ => mem_insert_follow_iff)
  unfold DecisionTable.select
  dsimp only
  cases hfirst : (g.decisionTable.row name).findIdx? fun p => decide (kind ∈ p.first) with
  | some j =>
    have least := (findIdx?_row_eq_some_iff begins).1 hfirst
    have inhabited : (g.placesOf name fun alt => g.Begins alt kind) ≠ ∅ :=
      Set.nonempty_iff_ne_empty.1 ⟨j, least.1⟩
    rw [Option.some.injEq]
    constructor
    · rintro rfl
      exact Or.inl least
    · rintro (other | ⟨empty, -⟩)
      · exact least.unique other
      · exact absurd empty inhabited
  | none =>
    have empty := (findIdx?_row_eq_none_iff begins).1 hfirst
    -- nothing begins with the kind, so what is predicted can be left out
    have same : (g.placesOf name fun alt => g.Predicts name alt kind)
        = g.placesOf name fun alt => g.Derives alt [] ∧ g.Predicts name alt kind := by
      ext i
      refine exists_congr fun alt => and_congr_right fun halt => ⟨fun h => ⟨?_, h⟩, And.right⟩
      refine (h.resolve_left fun first => ?_).1
      exact Set.eq_empty_iff_forall_notMem.1 empty i ⟨alt, halt, first⟩
    dsimp only
    rw [findIdx?_row_eq_some_iff predicts, same]
    constructor
    · exact fun least => Or.inr ⟨empty, least⟩
    · rintro (least | ⟨-, least⟩)
      · exact absurd least.1 (Set.eq_empty_iff_forall_notMem.1 empty i)
      · exact least

/-- Nothing is chosen where nothing is predicted. -/
theorem select_eq_none_iff :
    g.decisionTable.select name kind = none ↔
      (g.placesOf name fun alt => g.Predicts name alt kind) = ∅ := by
  rw [Set.eq_empty_iff_forall_notMem]
  constructor
  · intro none i predicted
    obtain ⟨j, hj⟩ := DecisionTable.exists_select (mem_candidates_iff_predicts.2 predicted)
    rw [none] at hj
    cases hj
  · intro none
    refine Option.eq_none_iff_forall_ne_some.2 fun i chosen => ?_
    exact none i (mem_candidates_iff_predicts.1 (DecisionTable.mem_candidates_of_select chosen))

/-! ## The LL(1) condition -/

/-- The LL(1) condition on an alternative and another one: they begin with different kinds, they
cannot both be left out, and if the one can, nothing that begins the other follows their
nonterminal. -/
structure Apart (g : Grammar) (name : String) (alt other : Alternative) : Prop where
  first : ∀ kind, g.Begins alt kind → ¬ g.Begins other kind
  nullable : g.Derives alt [] → ¬ g.Derives other []
  follow : g.Derives alt [] → ∀ kind, g.Begins other kind → ¬ g.Follows name kind

/-- Any two alternatives of one nonterminal are apart. -/
def IsLL1 (g : Grammar) : Prop :=
  ∀ (name : String) (i j : Nat) (alt other : Alternative), i ≠ j →
    (g.alternatives name)[i]? = some alt → (g.alternatives name)[j]? = some other →
      g.Apart name alt other

/-- No alternative begins with the end of input when it is no terminal. -/
theorem not_begins_endOfInput (plain : .endOfInput ∉ g.terminals)
    (halt : alt ∈ g.alternatives name) : ¬ g.Begins alt .endOfInput := by
  rintro ⟨rest, derived⟩
  rw [mem_terminals] at plain
  rcases derived.mentions List.mem_cons_self with here | mentioned
  · exact plain ⟨name, alt, halt, here⟩
  · exact plain mentioned

theorem apart_of_predicts {other : Alternative}
    (never : ∀ kind, g.Predicts name alt kind → ¬ g.Predicts name other kind) :
    g.Apart name alt other where
  first kind first second := never kind (Or.inl first) (Or.inl second)
  nullable first second :=
    never .endOfInput (Or.inr ⟨first, Or.inr rfl⟩) (Or.inr ⟨second, Or.inr rfl⟩)
  follow null kind second follows := never kind (Or.inr ⟨null, Or.inl follows⟩) (Or.inl second)

/-- Two alternatives are apart exactly when no kind predicts both. -/
theorem apart_iff_predicts (plain : .endOfInput ∉ g.terminals) {other : Alternative}
    (halt : alt ∈ g.alternatives name) (hother : other ∈ g.alternatives name) :
    g.Apart name alt other ∧ g.Apart name other alt ↔
      ∀ kind, g.Predicts name alt kind → ¬ g.Predicts name other kind := by
  constructor
  · rintro ⟨there, back⟩ kind (first | ⟨null, followed⟩) (second | ⟨nullOther, followedOther⟩)
    · exact there.first kind first second
    · rcases followedOther with follows | rfl
      · exact back.follow nullOther kind first follows
      · exact not_begins_endOfInput plain halt first
    · rcases followed with follows | rfl
      · exact there.follow null kind second follows
      · exact not_begins_endOfInput plain hother second
    · exact there.nullable null nullOther
  · intro never
    exact ⟨apart_of_predicts never, apart_of_predicts fun kind h₁ h₂ => never kind h₂ h₁⟩

/-- There are no conflicts exactly when the alternatives of every nonterminal are apart. -/
theorem conflicts_eq_nil_iff_isLL1 (plain : .endOfInput ∉ g.terminals) :
    g.decisionTable.conflicts = [] ↔ g.IsLL1 := by
  rw [DecisionTable.conflicts_eq_nil_iff]
  simp only [mem_candidates_iff_predicts]
  constructor
  · intro single name i j alt other ne hi hj
    refine apart_of_predicts fun kind first second => ne ?_
    exact single name kind i ⟨alt, hi, first⟩ j ⟨other, hj, second⟩
  · rintro apart name kind i ⟨alt, hi, first⟩ j ⟨other, hj, second⟩
    by_contra ne
    have both := And.intro (apart name i j alt other ne hi hj)
      (apart name j i other alt (Ne.symm ne) hj hi)
    have never := (apart_iff_predicts plain (List.mem_of_getElem? hi) (List.mem_of_getElem? hj)).1
      both
    exact never kind first second

/-- The decision table and its conflicts are exactly the LL(1) condition, in a grammar where the
end of input is no terminal.

There is one conflict for each nonterminal and kind with two predicted alternatives or more; it
lists all of them, ascending, and the conflicts come in the order of the nonterminals and then of
the spellings. What is chosen is the least alternative that can begin with the kind, or else the
least predicted one that can be left out, or else nothing. And there are no conflicts when the
alternatives of every nonterminal begin with different kinds, at most one of them can be left out,
and then none of the others begins with a kind that follows the nonterminal. -/
theorem decisionTable_exact (plain : .endOfInput ∉ g.terminals) :
    (∀ c : Conflict, c ∈ g.decisionTable.conflicts ↔
      c.alts.Pairwise (· < ·) ∧ 2 ≤ c.alts.length ∧
        ∀ i, i ∈ c.alts ↔ i ∈ g.placesOf c.name fun alt => g.Predicts c.name alt c.kind) ∧
      (g.decisionTable.conflicts.Pairwise fun c d =>
        g.nonterminals.idxOf c.name < g.nonterminals.idxOf d.name ∨
          c.name = d.name ∧ c.kind.spelling < d.kind.spelling) ∧
      (∀ name kind,
        (∀ i, g.decisionTable.select name kind = some i ↔
          IsLeast (g.placesOf name fun alt => g.Begins alt kind) i ∨
            (g.placesOf name fun alt => g.Begins alt kind) = ∅ ∧
              IsLeast (g.placesOf name fun alt =>
                g.Derives alt [] ∧ g.Predicts name alt kind) i) ∧
        (g.decisionTable.select name kind = none ↔
          (g.placesOf name fun alt => g.Predicts name alt kind) = ∅)) ∧
      (g.decisionTable.conflicts = [] ↔ g.IsLL1) := by
  refine ⟨?_, ?_, ?_, conflicts_eq_nil_iff_isLL1 plain⟩
  · intro c
    rw [DecisionTable.mem_conflicts_iff]
    simp only [← mem_candidates_iff_predicts]
    constructor
    · rintro ⟨all, several⟩
      exact ⟨all ▸ DecisionTable.pairwise_candidates, several, fun i => by rw [all]⟩
    · rintro ⟨ascending, several, all⟩
      refine ⟨?_, several⟩
      exact ascending.eq_of_mem_iff DecisionTable.pairwise_candidates all
  · have names : g.decisionTable.rows.names = g.nonterminals := Catalog.names_map ..
    rw [← names]
    exact DecisionTable.pairwise_conflicts
  · exact fun name kind => ⟨fun i => select_eq_some_iff, select_eq_none_iff⟩

/-- A name after something that may be a name or nothing; nothing can be written in two ways. -/
def contested : Grammar :=
  assemble (some "s")
    [("s", [[.nonterminal "a", .terminal .identifier]]),
     ("a", [[.terminal .identifier], [], [.nonterminal "b"]]), ("b", [[]])] []

theorem decisionTable_exact_contested :
    .endOfInput ∉ contested.terminals ∧
      contested.decisionTable.conflicts =
        [⟨"a", .endOfInput, [1, 2]⟩, ⟨"a", .identifier, [0, 1, 2]⟩] ∧
      IsLeast (contested.placesOf "a" fun alt => contested.Begins alt .identifier) 0 ∧
      2 ∈ contested.placesOf "a" fun alt => contested.Predicts "a" alt .identifier := by
  have plain : .endOfInput ∉ contested.terminals := by decide
  have found : contested.decisionTable.conflicts =
      [⟨"a", .endOfInput, [1, 2]⟩, ⟨"a", .identifier, [0, 1, 2]⟩] := by decide +kernel
  have chosen : contested.decisionTable.select "a" .identifier = some 0 := by decide +kernel
  obtain ⟨conflicts, -, select, -⟩ := decisionTable_exact plain
  have listed : (⟨"a", .identifier, [0, 1, 2]⟩ : Conflict) ∈ contested.decisionTable.conflicts := by
    rw [found]
    exact List.mem_cons_of_mem _ List.mem_cons_self
  refine ⟨plain, found, ?_, ?_⟩
  · refine (((select "a" .identifier).1 0).1 chosen).resolve_right fun ⟨empty, _⟩ => ?_
    have begins : 0 ∈ contested.placesOf "a" fun alt => contested.Begins alt .identifier :=
      ⟨[.terminal .identifier], by rfl, [], .refl⟩
    rw [empty] at begins
    exact begins
  · exact (((conflicts _).1 listed).2.2 2).1 (by decide)

end Grammar

end TopDown
