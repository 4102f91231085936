import TopDown.Analysis.Reachability
import TopDown.Proofs.Rules

/-
  The search from the start symbol finds what can be reached, and the rest does not matter.

  A search under way has come to nothing but declared nonterminals that can be reached, and what a
  seen name refers to is itself seen or still pending (`Sweeps`). A turn keeps this (`Sweeps.turn`),
  so it holds when the pile is empty, and then the seen names are closed under references.

  A nonterminal whose alternatives refer only to kept or undeclared nonterminals has the language it
  had when the productions of all others are deleted (`language_restrict`).
-/

namespace TopDown

namespace Grammar

variable {g : Grammar} {s : Search} {name other start : String} {seen rest keep : List String}

/-- An alternative of `name` refers to `other`. -/
def Refers (g : Grammar) (name other : String) : Prop :=
  ∃ alt ∈ g.alternatives name, .nonterminal other ∈ alt

theorem Refers.declared (h : g.Refers name other) : name ∈ g.nonterminals := by
  obtain ⟨alt, halt, -⟩ := h
  exact mem_nonterminals_of_mem_alternatives halt

theorem mem_referencesOf : other ∈ g.referencesOf name ↔ g.Refers name other := by
  unfold referencesOf Refers
  rw [List.mem_flatMap]
  refine exists_congr fun alt => and_congr_right fun _ => ?_
  rw [List.mem_filterMap]
  constructor
  · rintro ⟨symbol, hsymbol, named⟩
    cases symbol with
    | terminal kind => cases named
    | nonterminal found =>
      cases named
      exact hsymbol
  · exact fun hother => ⟨_, hother, rfl⟩

theorem mem_unseenFrom :
    other ∈ g.unseenFrom seen name ↔
      g.Refers name other ∧ other ∈ g.nonterminals ∧ other ∉ seen := by
  unfold unseenFrom
  rw [List.mem_reverse, List.mem_filter, mem_referencesOf, decide_eq_true_iff]

/-- A declared nonterminal that references lead to from the declared start symbol. -/
def Reaches (g : Grammar) (name : String) : Prop :=
  name ∈ g.nonterminals ∧ ∃ start, g.start = some start ∧ start ∈ g.nonterminals ∧
    Relation.ReflTransGen g.Refers start name

theorem Reaches.refers (h : g.Reaches name) (link : g.Refers name other)
    (declared : other ∈ g.nonterminals) : g.Reaches other := by
  obtain ⟨-, start, hstart, known, links⟩ := h
  exact ⟨declared, start, hstart, known, links.tail link⟩

/-! ## Turns of the search -/

/-- What the search has come to can be reached, and nothing that a seen name refers to is lost. -/
structure Sweeps (g : Grammar) (s : Search) : Prop where
  reaches : ∀ name, name ∈ s.seen ∨ name ∈ s.pending → g.Reaches name
  followed : ∀ name ∈ s.seen, ∀ other, g.Refers name other → other ∈ g.nonterminals →
    other ∈ s.seen ∨ other ∈ s.pending
  started : ∀ start, g.start = some start → start ∈ g.nonterminals →
    start ∈ s.seen ∨ start ∈ s.pending

theorem mem_pending_searchStart :
    name ∈ g.searchStart.pending ↔ g.start = some name ∧ name ∈ g.nonterminals := by
  simp [searchStart]

theorem sweeps_searchStart (g : Grammar) : g.Sweeps g.searchStart where
  reaches name h := by
    have pending := h.resolve_left List.not_mem_nil
    obtain ⟨hstart, declared⟩ := mem_pending_searchStart.1 pending
    exact ⟨declared, name, hstart, declared, .refl⟩
  followed name h := absurd h List.not_mem_nil
  started start hstart declared := Or.inr (mem_pending_searchStart.2 ⟨hstart, declared⟩)

/-- What is on top of the pile has been seen before. -/
theorem Sweeps.drop (h : g.Sweeps s) (top : s.pending = name :: rest) (known : name ∈ s.seen) :
    g.Sweeps ⟨s.seen, rest⟩ := by
  have kept : ∀ n, n ∈ s.seen ∨ n ∈ s.pending → n ∈ s.seen ∨ n ∈ rest := by
    intro n hn
    rw [top, List.mem_cons] at hn
    obtain hn | rfl | hn := hn
    · exact Or.inl hn
    · exact Or.inl known
    · exact Or.inr hn
  refine ⟨fun n hn => h.reaches n ?_, fun n hn other link declared => ?_, fun start hs hd => ?_⟩
  · exact hn.imp_right fun hn => top ▸ List.mem_cons_of_mem name hn
  · exact kept other (h.followed n hn other link declared)
  · exact kept start (h.started start hs hd)

/-- What is on top of the pile is seen, and what it refers to comes on the pile. -/
theorem Sweeps.visit (h : g.Sweeps s) (top : s.pending = name :: rest) :
    g.Sweeps ⟨name :: s.seen, g.unseenFrom (name :: s.seen) name ++ rest⟩ := by
  have here : g.Reaches name := h.reaches name (Or.inr (top ▸ List.mem_cons_self))
  have kept : ∀ n, n ∈ s.seen ∨ n ∈ s.pending →
      n ∈ name :: s.seen ∨ n ∈ g.unseenFrom (name :: s.seen) name ++ rest := by
    intro n hn
    rw [top, List.mem_cons] at hn
    obtain hn | rfl | hn := hn
    · exact Or.inl (List.mem_cons_of_mem name hn)
    · exact Or.inl List.mem_cons_self
    · exact Or.inr (List.mem_append_right _ hn)
  refine ⟨fun n hn => ?_, fun n hn other link declared => ?_, fun start hs hd => ?_⟩
  · obtain hn | hn := hn
    · obtain rfl | hn := List.mem_cons.1 hn
      · exact here
      · exact h.reaches n (Or.inl hn)
    · obtain hn | hn := List.mem_append.1 hn
      · obtain ⟨link, declared, -⟩ := mem_unseenFrom.1 hn
        exact here.refers link declared
      · exact h.reaches n (Or.inr (top ▸ List.mem_cons_of_mem name hn))
  · obtain rfl | hn := List.mem_cons.1 hn
    · -- what has been seen before is not put on the pile again
      by_cases seen : other ∈ n :: s.seen
      · exact Or.inl seen
      · exact Or.inr (List.mem_append_left _ (mem_unseenFrom.2 ⟨link, declared, seen⟩))
    · exact kept other (h.followed n hn other link declared)
  · exact kept start (h.started start hs hd)

theorem Sweeps.turn (h : g.Sweeps s) (pending : s.pending ≠ []) : g.Sweeps (g.searchTurn s) := by
  obtain ⟨name, rest, top⟩ := List.exists_cons_of_ne_nil pending
  by_cases known : name ∈ s.seen
  · have turn : g.searchTurn s = ⟨s.seen, rest⟩ := by simp [searchTurn, top, known]
    rw [turn]
    exact h.drop top known
  · have turn : g.searchTurn s
        = ⟨name :: s.seen, g.unseenFrom (name :: s.seen) name ++ rest⟩ := by
      simp [searchTurn, top, known]
    rw [turn]
    exact h.visit top

/-! ## The whole search -/

/-- The search is some number of turns, after which the pile is empty. -/
theorem exists_turns_search (g : Grammar) (s : Search) :
    (g.search s).pending = [] ∧ ∃ turns : Nat, g.search s = g.searchTurn^[turns] s := by
  fun_induction search g s with
  | case1 s empty => exact ⟨empty, 0, rfl⟩
  | case2 s pending ih =>
    obtain ⟨empty, turns, same⟩ := ih
    exact ⟨empty, turns + 1, same⟩

theorem Sweeps.search (h : g.Sweeps s) : g.Sweeps (g.search s) := by
  fun_induction Grammar.search g s with
  | case1 s empty => exact h
  | case2 s pending ih => exact ih (h.turn pending)

/-- Where the pile is empty, everything that can be reached has been seen. -/
theorem Sweeps.mem_seen_iff (h : g.Sweeps s) (empty : s.pending = []) :
    name ∈ s.seen ↔ g.Reaches name := by
  have seen_of : ∀ n, n ∈ s.seen ∨ n ∈ s.pending → n ∈ s.seen := by
    intro n hn
    rw [empty] at hn
    exact hn.resolve_right List.not_mem_nil
  constructor
  · exact fun hname => h.reaches name (Or.inl hname)
  · rintro ⟨declared, start, hstart, known, links⟩
    induction links with
    | refl => exact seen_of _ (h.started start hstart known)
    | tail _ link ih => exact seen_of _ (h.followed _ (ih link.declared) _ link declared)

theorem mem_reachable : name ∈ g.reachable ↔ g.Reaches name := by
  have sweeps := (sweeps_searchStart g).search
  have empty := (exists_turns_search g g.searchStart).1
  unfold reachable
  rw [List.mem_filter, decide_eq_true_iff, sweeps.mem_seen_iff empty]
  exact and_iff_right_of_imp And.left

/-! ## Without the other productions -/

theorem lookup_filter {β : Type} (entries : List (String × β)) (keep : List String)
    (name : String) :
    (entries.filter (·.1 ∈ keep)).lookup name
      = if name ∈ keep then entries.lookup name else none := by
  induction entries with
  | nil => simp
  | cons e rest ih =>
    obtain ⟨k, v⟩ := e
    by_cases hk : k ∈ keep
    · rw [List.filter_cons_of_pos (by simpa using hk), Catalog.lookup_pair, Catalog.lookup_pair, ih]
      by_cases same : name = k
      · simp [same, hk]
      · simp [same]
    · rw [List.filter_cons_of_neg (by simpa using hk), Catalog.lookup_pair, ih]
      by_cases same : name = k
      · simp [same, hk]
      · simp [same]

/-- Deletes the productions of all other nonterminals. -/
def restrict (g : Grammar) (keep : List String) : Grammar :=
  { g with
    rules := ⟨g.rules.entries.filter (·.1 ∈ keep),
      g.rules.nodup.sublist (List.filter_sublist.map Prod.fst)⟩ }

theorem alternatives_restrict :
    (g.restrict keep).alternatives name = if name ∈ keep then g.alternatives name else [] := by
  show (((g.rules.entries.filter (·.1 ∈ keep)).lookup name).getD []) = _
  rw [lookup_filter]
  split <;> rfl

/-- If everything declared that kept nonterminals refer to is kept, they keep their languages; so
does what is not declared at all. -/
theorem language_restrict
    (closed : ∀ name ∈ keep, ∀ other, g.Refers name other → other ∈ g.nonterminals → other ∈ keep)
    (h : name ∈ g.nonterminals → name ∈ keep) :
    (g.restrict keep).language name = g.language name := by
  refine le_antisymm (language_le_of_closed ?_ name) ?_
  · intro other alt halt
    rw [alternatives_restrict] at halt
    split at halt
    · exact g.language_closed other alt halt
    · cases halt
  · -- of the other nonterminals nothing is asked
    classical
    let meaning : String → Language Kind := fun other =>
      if other ∈ g.nonterminals → other ∈ keep then (g.restrict keep).language other else ⊤
    have meaning_of {other : String} (h : other ∈ g.nonterminals → other ∈ keep) :
        meaning other = (g.restrict keep).language other := if_pos h
    have meaning_closed : g.Closed meaning := by
      intro owner alt halt
      by_cases kept : owner ∈ keep
      · have same : Alternative.language meaning alt
            = Alternative.language (g.restrict keep).language alt := by
          refine Alternative.language_congr fun other hother => meaning_of ?_
          exact closed owner kept other ⟨alt, halt, hother⟩
        rw [same, meaning_of fun _ => kept]
        refine language_closed _ owner alt ?_
        rwa [alternatives_restrict, if_pos kept]
      · have declared := mem_nonterminals_of_mem_alternatives halt
        have all : meaning owner = ⊤ := if_neg fun h => kept (h declared)
        rw [all]
        exact le_top
    have le := language_le_of_closed meaning_closed name
    rwa [meaning_of h] at le

/-- The words that the start symbol derives. -/
def sentences (g : Grammar) : Set (List Kind) :=
  {w | ∃ start, g.start = some start ∧ g.Derives [.nonterminal start] (w.map .terminal)}

theorem sentences_restrict_reachable (g : Grammar) :
    (g.restrict g.reachable).sentences = g.sentences := by
  have closed : ∀ name ∈ g.reachable, ∀ other, g.Refers name other → other ∈ g.nonterminals →
      other ∈ g.reachable := by
    intro name hname other link declared
    exact mem_reachable.2 ((mem_reachable.1 hname).refers link declared)
  ext w
  refine exists_congr fun start => and_congr_right fun hstart => ?_
  rw [← mem_language, ← mem_language, language_restrict closed fun declared => ?_]
  exact mem_reachable.2 ⟨declared, start, hstart, declared, .refl⟩

/-- The search from the start symbol ends, with an empty pile after some number of turns. It lists,
in the order of the grammar and without repetition, exactly the declared nonterminals that
references lead to from the start symbol, and nothing exactly when no start symbol is declared.
Deleting the productions of all other nonterminals leaves the words of the start symbol as they
are. -/
theorem reachable_exact (g : Grammar) :
    (∃ turns : Nat, (g.searchTurn^[turns] g.searchStart).pending = [] ∧
        g.reachable = g.nonterminals.filter (· ∈ (g.searchTurn^[turns] g.searchStart).seen)) ∧
      g.reachable.Sublist g.nonterminals ∧ g.reachable.Nodup ∧
      (∀ name, name ∈ g.reachable ↔ name ∈ g.nonterminals ∧
        ∃ start, g.start = some start ∧ start ∈ g.nonterminals ∧
          Relation.ReflTransGen g.Refers start name) ∧
      (g.reachable = [] ↔ ¬ ∃ start, g.start = some start ∧ start ∈ g.nonterminals) ∧
      (g.restrict g.reachable).sentences = g.sentences := by
  have inside : g.reachable.Sublist g.nonterminals := List.filter_sublist
  refine ⟨?_, inside, inside.nodup g.rules.nodup_names, fun name => mem_reachable, ?_,
    sentences_restrict_reachable g⟩
  · obtain ⟨empty, turns, same⟩ := exists_turns_search g g.searchStart
    rw [same] at empty
    exact ⟨turns, empty, by rw [← same]; rfl⟩
  · rw [List.eq_nil_iff_forall_not_mem]
    constructor
    · rintro none ⟨start, hstart, declared⟩
      exact none start (mem_reachable.2 ⟨declared, start, hstart, declared, .refl⟩)
    · rintro none name hname
      obtain ⟨-, start, hstart, declared, -⟩ := mem_reachable.1 hname
      exact none ⟨start, hstart, declared⟩

end Grammar

end TopDown
