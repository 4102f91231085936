import TopDown.Proofs.PrefixTrees

/-
  What moving left recursion into a tail does to trees.

  Over the old rules a nonterminal grows to the right of itself, `A(A(A(α) β₁) β₂)`: a base with
  repetitions piled on it (`pile`). Over the new rules the repetitions hang from a tail,
  `A(α T(β₁ T(β₂ T())))` (`chain`). Unrolling turns the one into the other (`unroll_chain`), so
  `unwindTail` and `rewindTail` undo each other, and unwinding is a bijection
  (`bijOn_unwindTail`).
-/

namespace TopDown.Tree

variable {rules old new : Rules} {name owner tail : String} {children : List Tree} {t : Tree}

/-! ## Chains and piles -/

/-- A tail with the given repetitions. -/
def chain (tail : String) (repetitions : List (List Tree)) : Tree :=
  repetitions.foldr (fun ts t => node tail (ts ++ [t])) (node tail [])

/-- Repetitions piled on a tree, the innermost first. -/
def pile (owner : String) (base : Tree) (repetitions : List (List Tree)) : Tree :=
  repetitions.foldl (fun t ts => node owner (t :: ts)) base

variable {repetitions : List (List Tree)}

theorem chain_cons (tail : String) (ts : List Tree) (repetitions : List (List Tree)) :
    chain tail (ts :: repetitions) = node tail (ts ++ [chain tail repetitions]) := rfl

theorem pile_concat (owner : String) (base : Tree) (repetitions : List (List Tree))
    (ts : List Tree) :
    pile owner base (repetitions ++ [ts]) = node owner (pile owner base repetitions :: ts) := by
  rw [pile, List.foldl_append]
  rfl

@[simp] theorem symbol_chain : (chain tail repetitions).symbol = .nonterminal tail := by
  cases repetitions <;> rfl

theorem symbol_pile {base : Tree} (h : base.symbol = .nonterminal owner) :
    (pile owner base repetitions).symbol = .nonterminal owner := by
  rcases List.eq_nil_or_concat' repetitions with rfl | ⟨front, ts, rfl⟩
  · exact h
  · rw [pile_concat]
    rfl

/-- Unrolling a chain piles its repetitions up. -/
theorem unroll_chain (owner tail : String) (done : Tree) (repetitions : List (List Tree)) :
    unroll owner done (chain tail repetitions) = pile owner done repetitions := by
  induction repetitions generalizing done with
  | nil => exact unroll_nil owner done
  | cons ts repetitions ih =>
    rw [chain_cons, unroll_concat, if_pos symbol_chain, ih]
    rfl

theorem over_chain (h : (chain tail repetitions).Over rules) :
    ∀ ts ∈ repetitions, rules tail (ts.map symbol ++ [.nonterminal tail]) ∧
      ∀ t ∈ ts, t.Over rules := by
  induction repetitions with
  | nil => exact fun ts hts => absurd hts List.not_mem_nil
  | cons ts repetitions ih =>
    rw [chain_cons, over_node, List.map_append, List.map_singleton, symbol_chain,
      List.forall_mem_append] at h
    rw [List.forall_mem_cons]
    exact ⟨⟨h.1, h.2.1⟩, ih (h.2.2 _ List.mem_cons_self)⟩

theorem chain_over (ended : rules tail [])
    (h : ∀ ts ∈ repetitions, rules tail (ts.map symbol ++ [.nonterminal tail]) ∧
      ∀ t ∈ ts, t.Over rules) : (chain tail repetitions).Over rules := by
  induction repetitions with
  | nil => exact .node ended fun t ht => absurd ht List.not_mem_nil
  | cons ts repetitions ih =>
    rw [List.forall_mem_cons] at h
    rw [chain_cons, over_node, List.map_append, List.map_singleton, symbol_chain]
    refine ⟨h.1.1, List.forall_mem_append.2 ⟨h.1.2, ?_⟩⟩
    exact List.forall_mem_singleton.2 (ih h.2)

theorem pile_over {base : Tree} (root : base.symbol = .nonterminal owner) (stands : base.Over rules)
    (h : ∀ ts ∈ repetitions, rules owner (.nonterminal owner :: ts.map symbol) ∧
      ∀ t ∈ ts, t.Over rules) : (pile owner base repetitions).Over rules := by
  induction repetitions using List.reverseRecOn with
  | nil => exact stands
  | append_singleton repetitions ts ih =>
    rw [List.forall_mem_append, List.forall_mem_singleton] at h
    rw [pile_concat, over_node, List.map_cons, symbol_pile root]
    exact ⟨h.2.1, List.forall_mem_cons.2 ⟨ih h.1, h.2.2⟩⟩

theorem unwindTail_chain (ne : tail ≠ owner) :
    unwindTail owner tail (chain tail repetitions)
      = chain tail (repetitions.map (List.map (unwindTail owner tail))) := by
  induction repetitions with
  | nil => rfl
  | cons ts repetitions ih =>
    rw [chain_cons, unwindTail_node, wound_of_ne ne, List.map_append, List.map_singleton, ih,
      List.map_cons, chain_cons]

/-- A base with a chain after it becomes the base with the repetitions piled on it. -/
theorem unwindTail_base (ne : tail ≠ owner) (base : List Tree) :
    unwindTail owner tail (node owner (base ++ [chain tail repetitions]))
      = pile owner (node owner (base.map (unwindTail owner tail)))
          (repetitions.map (List.map (unwindTail owner tail))) := by
  rw [unwindTail_node, List.map_append, List.map_singleton, wound_concat, symbol_unwindTail,
    if_pos symbol_chain, unwindTail_chain ne, unroll_chain]

/-! ## The way back -/

/-- Adds a repetition at the end of the chain that a tree ends with. -/
def lengthen (tail : String) (more : List Tree) : Tree → Tree
  | leaf token => leaf token
  | node name children =>
    match _h : children.getLast? with
    | none => node name (more ++ [node tail []])
    | some last => node name (children.dropLast ++ [lengthen tail more last])
termination_by t => sizeOf t
decreasing_by
  have := List.sizeOf_lt_of_mem (List.mem_of_getLast? _h)
  simp
  omega

theorem lengthen_concat (tail : String) (more front : List Tree) (last : Tree) :
    lengthen tail more (node name (front ++ [last]))
      = node name (front ++ [lengthen tail more last]) := by
  rw [lengthen]
  split
  · next none => simp at none
  · next found some =>
    rw [List.getLast?_concat] at some
    cases some
    rw [List.dropLast_concat]

theorem lengthen_chain (tail : String) (more : List Tree) (repetitions : List (List Tree)) :
    lengthen tail more (chain tail repetitions) = chain tail (repetitions ++ [more]) := by
  induction repetitions with
  | nil =>
    rw [chain, List.foldr_nil, lengthen]
    rfl
  | cons ts repetitions ih => rw [chain_cons, lengthen_concat, ih, List.cons_append, chain_cons]

/-- A node of the owner gets a tail: the last repetition goes to the end of the one that the tree
before it has got, and a base gets an empty one. -/
def rewound (owner tail name : String) (children : List Tree) : Tree :=
  if name = owner then
    match children with
    | first :: more =>
      if first.symbol = .nonterminal owner then lengthen tail more first
      else node owner (children ++ [node tail []])
    | [] => node owner [node tail []]
  else node name children

/-- Puts one left-recursion tail in. -/
def rewindTail (owner tail : String) : Tree → Tree :=
  rebuild (rewound owner tail)

theorem rewindTail_node (owner tail name : String) (children : List Tree) :
    rewindTail owner tail (node name children)
      = rewound owner tail name (children.map (rewindTail owner tail)) :=
  rebuild_node ..

theorem rewound_of_ne (h : name ≠ owner) :
    rewound owner tail name children = node name children :=
  if_neg h

theorem rewound_base (h : (children.map symbol).head? ≠ some (.nonterminal owner)) :
    rewound owner tail owner children = node owner (children ++ [node tail []]) := by
  cases children with
  | nil => exact if_pos rfl
  | cons first more =>
    have other : first.symbol ≠ .nonterminal owner := by
      intro same
      exact h (same ▸ rfl)
    rw [rewound, if_pos rfl]
    exact if_neg other

theorem rewound_repetition {first : Tree} {more : List Tree}
    (h : first.symbol = .nonterminal owner) :
    rewound owner tail owner (first :: more) = lengthen tail more first := by
  rw [rewound, if_pos rfl]
  exact if_pos h

theorem exists_first {s : Symbol} (h : (children.map symbol).head? = some s) :
    ∃ first more, children = first :: more ∧ first.symbol = s := by
  rw [List.head?_map, Option.map_eq_some_iff] at h
  obtain ⟨first, hfirst, hs⟩ := h
  obtain ⟨more, rfl⟩ := List.head?_eq_some_iff.1 hfirst
  exact ⟨first, more, rfl, hs⟩

theorem symbol_lengthen (tail : String) (more : List Tree) (t : Tree) :
    (lengthen tail more t).symbol = t.symbol := by
  cases t with
  | leaf token =>
    rw [lengthen]
  | node name children =>
    rw [lengthen]
    split <;> rfl

@[simp] theorem symbol_rewindTail (owner tail : String) (t : Tree) :
    (rewindTail owner tail t).symbol = t.symbol := by
  cases t with
  | leaf token => rfl
  | node name children =>
    rw [rewindTail_node]
    by_cases h : name = owner
    · subst h
      by_cases begins : ((children.map (rewindTail name tail)).map symbol).head?
          = some (.nonterminal name)
      · obtain ⟨first, more, hchildren, root⟩ := exists_first begins
        rw [hchildren, rewound_repetition root, symbol_lengthen, root]
        rfl
      · rw [rewound_base begins]
        rfl
    · rw [rewound_of_ne h]
      rfl

theorem rewindTail_chain (ne : tail ≠ owner) :
    rewindTail owner tail (chain tail repetitions)
      = chain tail (repetitions.map (List.map (rewindTail owner tail))) := by
  induction repetitions with
  | nil =>
    rw [chain, List.foldr_nil, rewindTail_node, rewound_of_ne ne]
    rfl
  | cons ts repetitions ih =>
    rw [chain_cons, rewindTail_node, rewound_of_ne ne, List.map_append, List.map_singleton, ih,
      List.map_cons, chain_cons]

/-- Repetitions piled on a base become a chain after it. -/
theorem rewindTail_pile {base : List Tree}
    (h : (base.map symbol).head? ≠ some (.nonterminal owner)) :
    rewindTail owner tail (pile owner (node owner base) repetitions)
      = node owner (base.map (rewindTail owner tail)
          ++ [chain tail (repetitions.map (List.map (rewindTail owner tail)))]) := by
  induction repetitions using List.reverseRecOn with
  | nil =>
    rw [pile, List.foldl_nil, rewindTail_node, rewound_base]
    · rfl
    · rwa [map_symbol_map (symbol_rewindTail owner tail)]
  | append_singleton repetitions ts ih =>
    rw [pile_concat, rewindTail_node, List.map_cons, rewound_repetition, ih, lengthen_concat,
      lengthen_chain, List.map_append, List.map_singleton]
    rw [symbol_rewindTail, symbol_pile rfl]

/-! ## Recursion moved into a tail -/

/-- In the new rules, the alternatives of `owner` that begin with `owner` have gone into `tail`. -/
structure RecursionRules (old new : Rules) (owner tail : String) : Prop where
  owner_iff : ∀ alt, new owner alt ↔ ∃ base, old owner base ∧
    base.head? ≠ some (.nonterminal owner) ∧ alt = base ++ [.nonterminal tail]
  tail_iff : ∀ alt, new tail alt ↔
    alt = [] ∨ ∃ more, old owner (.nonterminal owner :: more) ∧ alt = more ++ [.nonterminal tail]
  same : ∀ name, name ≠ owner → name ≠ tail → ∀ alt, new name alt ↔ old name alt
  ne : tail ≠ owner
  undeclared : ∀ alt, ¬ old tail alt
  unmentioned : ∀ name alt, old name alt → .nonterminal tail ∉ alt

namespace RecursionRules

variable (split : RecursionRules old new owner tail)

include split

theorem ended : new tail [] :=
  (split.tail_iff []).2 (Or.inl rfl)

theorem repetition_iff {alt : Alternative} :
    new tail (alt ++ [.nonterminal tail]) ↔ old owner (.nonterminal owner :: alt) := by
  rw [split.tail_iff]
  constructor
  · rintro (empty | ⟨more, halt, same⟩)
    · simp at empty
    · rwa [List.append_cancel_right same]
  · exact fun h => Or.inr ⟨alt, h, rfl⟩

theorem base_iff {alt : Alternative} :
    new owner (alt ++ [.nonterminal tail]) ↔
      old owner alt ∧ alt.head? ≠ some (.nonterminal owner) := by
  rw [split.owner_iff]
  constructor
  · rintro ⟨base, halt, other, same⟩
    rw [List.append_cancel_right same]
    exact ⟨halt, other⟩
  · exact fun h => ⟨alt, h.1, h.2, rfl⟩

/-- A tail is a chain. -/
theorem exists_chain (h : t.Over new) (root : t.symbol = .nonterminal tail) :
    ∃ repetitions, t = chain tail repetitions := by
  induction h with
  | leaf token => cases root
  | @node name children alt below ih =>
    cases root
    rcases (split.tail_iff _).1 alt with empty | ⟨more, -, whole⟩
    · rw [List.map_eq_nil_iff] at empty
      exact ⟨[], by rw [empty]; rfl⟩
    · obtain ⟨front, last, rfl, -, hlast⟩ := List.map_eq_append_iff.1 whole
      obtain ⟨t, rfl, ht⟩ := List.map_eq_singleton_iff.1 hlast
      obtain ⟨repetitions, rfl⟩ := ih t (List.mem_append_right _ List.mem_cons_self) ht
      exact ⟨front :: repetitions, rfl⟩

/-- A tree of the owner has a base below it, and then a chain. -/
theorem exists_base (h : t.Over new) (root : t.symbol = .nonterminal owner) :
    ∃ base repetitions, t = node owner (base ++ [chain tail repetitions]) ∧
      old owner (base.map symbol) ∧ (base.map symbol).head? ≠ some (.nonterminal owner) := by
  cases h with
  | leaf token => cases root
  | @node name children alt below =>
    cases root
    obtain ⟨whole, -, -, same⟩ := (split.owner_iff _).1 alt
    obtain ⟨base, last, rfl, rfl, hlast⟩ := List.map_eq_append_iff.1 same
    obtain ⟨t, rfl, ht⟩ := List.map_eq_singleton_iff.1 hlast
    obtain ⟨repetitions, rfl⟩ :=
      split.exists_chain (below t (List.mem_append_right _ List.mem_cons_self)) ht
    rw [List.map_append, List.map_singleton, symbol_chain, split.base_iff] at alt
    exact ⟨base, repetitions, rfl, alt⟩

/-- Unwinding a tree over the new rules leaves the new rules in force below the tail only. -/
theorem over_unwindTail (h : t.Over new) :
    (unwindTail owner tail t).Over fun name alt => name = tail ∧ new tail alt ∨ old name alt := by
  induction h with
  | leaf token => exact .leaf token
  | @node name children alt below ih =>
    have symbols := map_symbol_map (symbol_unwindTail owner tail)
    by_cases howner : name = owner
    · subst howner
      obtain ⟨base, repetitions, shape, oldAlt, -⟩ := split.exists_base (.node alt below) rfl
      cases shape
      rw [List.forall_mem_append, List.forall_mem_singleton, unwindTail_chain split.ne] at ih
      rw [unwindTail_base split.ne]
      refine pile_over rfl ?_ ?_
      · rw [over_node, symbols]
        exact ⟨Or.inr oldAlt, List.forall_mem_map.2 ih.1⟩
      · intro ts hts
        obtain ⟨repeated, stands⟩ := over_chain ih.2 ts hts
        refine ⟨Or.inr (split.repetition_iff.1 ?_), stands⟩
        rcases repeated with ⟨-, repeated⟩ | undeclared
        · exact repeated
        · exact absurd undeclared (split.undeclared _)
    · rw [unwindTail_node, wound_of_ne howner, over_node, symbols]
      refine ⟨?_, List.forall_mem_map.2 ih⟩
      by_cases htail : name = tail
      · exact Or.inl ⟨htail, htail ▸ alt⟩
      · exact Or.inr ((split.same name howner htail _).1 alt)

/-- A chain over the new rules stays one with another repetition at its end. -/
theorem over_chain_concat {more : List Tree} (h : (chain tail repetitions).Over new)
    (alt : old owner (.nonterminal owner :: more.map symbol)) (below : ∀ t ∈ more, t.Over new) :
    (chain tail (repetitions ++ [more])).Over new := by
  refine chain_over split.ended (List.forall_mem_append.2 ⟨over_chain h, ?_⟩)
  exact List.forall_mem_singleton.2 ⟨split.repetition_iff.2 alt, below⟩

theorem over_rewindTail (h : t.Over old) : (rewindTail owner tail t).Over new := by
  induction h with
  | leaf token => exact .leaf token
  | @node name children alt below ih =>
    have symbols := map_symbol_map (symbol_rewindTail owner tail)
    rw [rewindTail_node]
    by_cases howner : name = owner
    · subst howner
      by_cases begins : (children.map symbol).head? = some (.nonterminal name)
      · obtain ⟨first, more, rfl, root⟩ := exists_first begins
        rw [List.forall_mem_cons] at ih
        rw [List.map_cons, root] at alt
        have root' : (rewindTail name tail first).symbol = .nonterminal name := by
          rwa [symbol_rewindTail]
        obtain ⟨base, repetitions, shape, -⟩ := split.exists_base ih.1 root'
        have stands := shape ▸ ih.1
        rw [over_node, List.map_append, List.map_singleton, symbol_chain, List.forall_mem_append,
          List.forall_mem_singleton] at stands
        rw [List.map_cons, rewound_repetition root', shape, lengthen_concat, lengthen_chain,
          over_node, List.map_append, List.map_singleton, symbol_chain]
        refine ⟨stands.1, List.forall_mem_append.2 ⟨stands.2.1, List.forall_mem_singleton.2 ?_⟩⟩
        refine split.over_chain_concat stands.2.2 ?_ (List.forall_mem_map.2 ih.2)
        rwa [symbols]
      · have base : ((children.map (rewindTail name tail)).map symbol).head?
            ≠ some (.nonterminal name) := by rwa [symbols]
        rw [rewound_base base, over_node, List.map_append, symbols]
        refine ⟨split.base_iff.2 ⟨alt, begins⟩, List.forall_mem_append.2 ⟨?_, ?_⟩⟩
        · exact List.forall_mem_map.2 ih
        · refine List.forall_mem_singleton.2 (.node split.ended ?_)
          exact fun t ht => absurd ht List.not_mem_nil
    · have htail : name ≠ tail := by
        rintro rfl
        exact split.undeclared _ alt
      rw [rewound_of_ne howner, over_node, symbols]
      exact ⟨(split.same name howner htail _).2 alt, List.forall_mem_map.2 ih⟩

/-- Folding the tail away undoes putting it in. -/
theorem unwindTail_rewindTail (h : t.Over old) :
    unwindTail owner tail (rewindTail owner tail t) = t := by
  induction h with
  | leaf token => rfl
  | @node name children alt below ih =>
    rw [rewindTail_node]
    by_cases howner : name = owner
    · subst howner
      by_cases begins : (children.map symbol).head? = some (.nonterminal name)
      · obtain ⟨first, more, rfl, root⟩ := exists_first begins
        rw [List.forall_mem_cons] at ih
        have root' : (rewindTail name tail first).symbol = .nonterminal name := by
          rwa [symbol_rewindTail]
        obtain ⟨base, repetitions, shape, -⟩ :=
          split.exists_base (split.over_rewindTail (below first List.mem_cons_self)) root'
        -- what was put into the first tree comes out of it again
        have unwound := ih.1
        rw [shape, unwindTail_base split.ne] at unwound
        rw [List.map_cons, rewound_repetition root', shape, lengthen_concat, lengthen_chain,
          unwindTail_base split.ne, List.map_append, List.map_singleton, pile_concat, unwound,
          map_map_eq_self ih.2]
      · have base : ((children.map (rewindTail name tail)).map symbol).head?
            ≠ some (.nonterminal name) := by
          rwa [map_symbol_map (symbol_rewindTail name tail)]
        have empty : node tail [] = chain tail [] := rfl
        rw [rewound_base base, empty, unwindTail_base split.ne, map_map_eq_self ih]
        rfl
    · rw [rewound_of_ne howner, unwindTail_node, wound_of_ne howner, map_map_eq_self ih]

/-- Putting the tail in undoes folding it away. -/
theorem rewindTail_unwindTail (h : t.Over new) :
    rewindTail owner tail (unwindTail owner tail t) = t := by
  induction h with
  | leaf token => rfl
  | @node name children alt below ih =>
    by_cases howner : name = owner
    · subst howner
      obtain ⟨base, repetitions, shape, -, other⟩ := split.exists_base (.node alt below) rfl
      cases shape
      rw [List.forall_mem_append, List.forall_mem_singleton, unwindTail_chain split.ne,
        rewindTail_chain split.ne] at ih
      rw [unwindTail_base split.ne, rewindTail_pile, ih.2, map_map_eq_self ih.1]
      rwa [map_symbol_map (symbol_unwindTail name tail)]
    · rw [unwindTail_node, wound_of_ne howner, rewindTail_node, rewound_of_ne howner,
        map_map_eq_self ih]

/-- Folding the tail away is a bijection between the trees over the new rules and those over the
old ones. -/
theorem bijOn_unwindTail (h : name ≠ tail) :
    Set.BijOn (unwindTail owner tail) (treesOf new name) (treesOf old name) := by
  have stands : ∀ t, t.Over new → (unwindTail owner tail t).Over (allowing old tail) :=
    fun t ht => (split.over_unwindTail ht).mono fun n alt => Or.imp_left And.left
  exact bijOn_treesOf (symbol_unwindTail owner tail) (symbol_rewindTail owner tail) stands
    (fun _ => split.over_rewindTail) (fun _ => split.rewindTail_unwindTail)
    (fun _ => split.unwindTail_rewindTail) split.unmentioned h

end RecursionRules

end TopDown.Tree
