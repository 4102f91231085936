import TopDown.Proofs.TreeFold

/-
  Trees over given rules, and what joining alternatives does to them.

  When alternatives of `owner` that begin with `common` are joined, the remainders moved into
  `tail`, every tree over the old rules has one tree over the new rules that folds back to it:
  `spliceTail` and `gatherTail` undo each other (`bijOn_spliceTail`). Only the rules matter here,
  as a relation between a nonterminal and its alternatives.
-/

namespace TopDown

/-- Which alternatives a nonterminal has. -/
abbrev Rules := String → Alternative → Prop

namespace Tree

variable {rules old new : Rules} {name owner tail : String} {common : Alternative}
  {children : List Tree} {t : Tree}

/-! ## Trees over rules -/

/-- Every node stands over one of the alternatives that the rules give its nonterminal. -/
inductive Over (rules : Rules) : Tree → Prop where
  | leaf (token : Token) : Over rules (.leaf token)
  | node {name : String} {children : List Tree} (alt : rules name (children.map symbol))
      (below : ∀ t ∈ children, Over rules t) : Over rules (.node name children)

theorem over_node :
    Over rules (node name children) ↔
      rules name (children.map symbol) ∧ ∀ t ∈ children, t.Over rules := by
  constructor
  · intro h
    cases h with
    | node alt below => exact ⟨alt, below⟩
  · exact fun h => .node h.1 h.2

theorem Over.mono {wider : Rules} (h : t.Over rules)
    (le : ∀ name alt, rules name alt → wider name alt) : t.Over wider := by
  induction h with
  | leaf token => exact .leaf token
  | node alt below ih => exact .node (le _ _ alt) ih

/-- The trees of a nonterminal. -/
def treesOf (rules : Rules) (name : String) : Set Tree :=
  {t | t.Over rules ∧ t.symbol = .nonterminal name}

/-- Rules that allow anything below one name that nothing refers to. -/
def allowing (rules : Rules) (tail : String) : Rules := fun name alt =>
  name = tail ∨ rules name alt

/-- What is allowed below a name does not matter where the name is not found. -/
theorem Over.of_allowing (unmentioned : ∀ name alt, rules name alt → .nonterminal tail ∉ alt)
    (h : t.Over (allowing rules tail)) (root : t.symbol ≠ .nonterminal tail) : t.Over rules := by
  induction h with
  | leaf token => exact .leaf token
  | @node name children alt below ih =>
    have alt := alt.resolve_left fun same => root (same ▸ rfl)
    refine .node alt fun t ht => ih t ht ?_
    intro same
    exact unmentioned name _ alt (same ▸ List.mem_map_of_mem ht)

/-- Two changes of trees that keep the root, lead from the one rules to the other and back, and undo
each other there. -/
theorem bijOn_treesOf {f f' : Tree → Tree} (root : ∀ t, (f t).symbol = t.symbol)
    (root' : ∀ t, (f' t).symbol = t.symbol)
    (stands : ∀ t, t.Over new → (f t).Over (allowing old tail))
    (stands' : ∀ t, t.Over old → (f' t).Over new) (undone : ∀ t, t.Over new → f' (f t) = t)
    (undone' : ∀ t, t.Over old → f (f' t) = t)
    (unmentioned : ∀ name alt, old name alt → .nonterminal tail ∉ alt) (h : name ≠ tail) :
    Set.BijOn f (treesOf new name) (treesOf old name) := by
  have inverse : Set.InvOn f' f (treesOf new name) (treesOf old name) :=
    ⟨fun t ht => undone t ht.1, fun t ht => undone' t ht.1⟩
  refine inverse.bijOn ?_ ?_
  · intro t ht
    have symbol := (root t).trans ht.2
    refine ⟨(stands t ht.1).of_allowing unmentioned ?_, symbol⟩
    rw [symbol]
    exact fun same => h (Symbol.nonterminal.inj same)
  · exact fun t ht => ⟨stands' t ht.1, (root' t).trans ht.2⟩

/-! ## Joined alternatives -/

/-- In the new rules, the alternatives of `owner` that begin with `common` are joined, and `tail`
has what follows. -/
structure PrefixRules (old new : Rules) (owner tail : String) (common : Alternative) : Prop where
  owner_iff : ∀ alt, new owner alt ↔
    alt = common ++ [.nonterminal tail] ∨ old owner alt ∧ ¬ common <+: alt
  tail_iff : ∀ alt, new tail alt ↔ old owner (common ++ alt)
  same : ∀ name, name ≠ owner → name ≠ tail → ∀ alt, new name alt ↔ old name alt
  ne : owner ≠ tail
  undeclared : ∀ alt, ¬ old tail alt
  unmentioned : ∀ name alt, old name alt → .nonterminal tail ∉ alt

/-- A node of the owner over children that begin with the common part gets a tail for the others. -/
def gathered (owner tail : String) (common : Alternative) (name : String)
    (children : List Tree) : Tree :=
  if name = owner ∧ common <+: children.map symbol then
    node name (children.take common.length ++ [node tail (children.drop common.length)])
  else node name children

/-- Puts one factoring tail in. -/
def gatherTail (owner tail : String) (common : Alternative) : Tree → Tree :=
  rebuild (gathered owner tail common)

theorem gatherTail_node (owner tail : String) (common : Alternative) (name : String)
    (children : List Tree) :
    gatherTail owner tail common (node name children)
      = gathered owner tail common name (children.map (gatherTail owner tail common)) :=
  rebuild_node ..

@[simp] theorem symbol_gatherTail (owner tail : String) (common : Alternative) (t : Tree) :
    (gatherTail owner tail common t).symbol = t.symbol := by
  cases t with
  | leaf token => rfl
  | node name children =>
    rw [gatherTail_node, gathered]
    split <;> rfl

theorem map_symbol_map {f : Tree → Tree} (h : ∀ t, (f t).symbol = t.symbol) (ts : List Tree) :
    (ts.map f).map symbol = ts.map symbol := by
  rw [List.map_map]
  exact List.map_congr_left fun t _ => h t

theorem map_map_eq_self {f f' : Tree → Tree} {ts : List Tree} (h : ∀ t ∈ ts, f (f' t) = t) :
    (ts.map f').map f = ts := by
  rw [List.map_map]
  exact (List.map_congr_left h).trans (List.map_id _)

/-- Children without the tail among them stay as they are. -/
theorem spliceTail_plain (h : .nonterminal tail ∉ children.map symbol) :
    spliceTail tail (node name children) = node name (children.map (spliceTail tail)) := by
  rw [spliceTail_node, flatMap_opened]
  rwa [map_symbol_map (symbol_spliceTail tail)]

/-- Where the tail comes last, its children take its place. -/
theorem spliceTail_joined {front after : List Tree} (hfront : .nonterminal tail ∉ front.map symbol)
    (hafter : .nonterminal tail ∉ after.map symbol) :
    spliceTail tail (node name (front ++ [node tail after]))
      = node name (front.map (spliceTail tail) ++ after.map (spliceTail tail)) := by
  have plain : .nonterminal tail ∉ (front.map (spliceTail tail)).map symbol := by
    rwa [map_symbol_map (symbol_spliceTail tail)]
  rw [spliceTail_node, List.map_append, List.flatMap_append, flatMap_opened plain,
    List.map_singleton, List.flatMap_singleton, spliceTail_plain hafter, opened_tail]

namespace PrefixRules

variable (split : PrefixRules old new owner tail common)

include split

/-- An alternative is the joined one, or does not refer to the tail. -/
theorem alternative_cases {alt : Alternative} (h : new name alt) :
    name = owner ∧ alt = common ++ [.nonterminal tail] ∨
      .nonterminal tail ∉ alt ∧ (name ≠ tail → old name alt) ∧
        ¬ (name = owner ∧ common <+: alt) := by
  by_cases htail : name = tail
  · subst htail
    have mentioned := split.unmentioned owner _ ((split.tail_iff alt).1 h)
    refine Or.inr ⟨fun hmem => mentioned (List.mem_append_right _ hmem), fun hne => absurd rfl hne, ?_⟩
    exact fun both => split.ne both.1.symm
  · by_cases howner : name = owner
    · subst howner
      rcases (split.owner_iff alt).1 h with joined | ⟨old, apart⟩
      · exact Or.inl ⟨rfl, joined⟩
      · exact Or.inr ⟨split.unmentioned name alt old, fun _ => old, fun both => apart both.2⟩
    · have old := (split.same name howner htail alt).1 h
      exact Or.inr ⟨split.unmentioned name alt old, fun _ => old, fun both => howner both.1⟩

/-- A node over the joined alternative has the common part and a tail below it. -/
theorem exists_front (hchildren : children.map symbol = common ++ [.nonterminal tail])
    (below : ∀ t ∈ children, t.Over new) :
    ∃ front after, children = front ++ [node tail after] ∧ front.map symbol = common ∧
      old owner (common ++ after.map symbol) := by
  obtain ⟨front, last, rfl, hfront, hlast⟩ := List.map_eq_append_iff.1 hchildren
  obtain ⟨t, rfl, ht⟩ := List.map_eq_singleton_iff.1 hlast
  cases t with
  | leaf token => cases ht
  | node name after =>
    cases ht
    have lastOver := over_node.1 (below _ (List.mem_append_right _ List.mem_cons_self))
    exact ⟨front, after, rfl, hfront, (split.tail_iff _).1 lastOver.1⟩

/-- Neither the common part nor a remainder refers to the tail. -/
theorem unmentioned_parts {front after : List Tree} (hfront : front.map symbol = common)
    (h : old owner (common ++ after.map symbol)) :
    .nonterminal tail ∉ front.map symbol ∧ .nonterminal tail ∉ after.map symbol := by
  have mentioned := split.unmentioned owner _ h
  rw [hfront]
  exact ⟨fun hmem => mentioned (List.mem_append_left _ hmem),
    fun hmem => mentioned (List.mem_append_right _ hmem)⟩

theorem over_spliceTail (h : t.Over new) : (spliceTail tail t).Over (allowing old tail) := by
  induction h with
  | leaf token => exact .leaf token
  | @node name children alt below ih =>
    rcases split.alternative_cases alt with ⟨rfl, joined⟩ | ⟨plain, oldAlt, -⟩
    · obtain ⟨front, after, rfl, hfront, oldAlt⟩ := split.exists_front joined below
      obtain ⟨plainFront, plainAfter⟩ := split.unmentioned_parts hfront oldAlt
      rw [spliceTail_joined plainFront plainAfter, over_node, List.map_append,
        map_symbol_map (symbol_spliceTail tail), map_symbol_map (symbol_spliceTail tail), hfront]
      refine ⟨Or.inr oldAlt, ?_⟩
      have last := ih _ (List.mem_append_right _ List.mem_cons_self)
      rw [spliceTail_plain plainAfter, over_node] at last
      refine List.forall_mem_append.2 ⟨?_, last.2⟩
      exact List.forall_mem_map.2 fun t ht => ih t (List.mem_append_left _ ht)
    · rw [spliceTail_plain plain, over_node, map_symbol_map (symbol_spliceTail tail)]
      refine ⟨or_iff_not_imp_left.2 oldAlt, List.forall_mem_map.2 ih⟩

theorem over_gatherTail (h : t.Over old) : (gatherTail owner tail common t).Over new := by
  induction h with
  | leaf token => exact .leaf token
  | @node name children alt below ih =>
    have htail : name ≠ tail := by
      rintro rfl
      exact split.undeclared _ alt
    have symbols := map_symbol_map (symbol_gatherTail owner tail common) children
    have stands : ∀ t ∈ children.map (gatherTail owner tail common), t.Over new :=
      List.forall_mem_map.2 ih
    rw [gatherTail_node, gathered, symbols]
    split
    · next begins =>
      obtain ⟨rfl, hprefix⟩ := begins
      have parts := List.prefix_iff_eq_append.1 hprefix
      rw [over_node, List.map_append, List.map_take, symbols, List.map_singleton]
      refine ⟨(split.owner_iff _).2 (Or.inl ?_), ?_⟩
      · rw [← List.prefix_iff_eq_take.1 hprefix]
        rfl
      · intro t ht
        rcases List.mem_append.1 ht with ht | ht
        · exact stands t (List.mem_of_mem_take ht)
        · rw [List.mem_singleton.1 ht, over_node, List.map_drop, symbols]
          refine ⟨(split.tail_iff _).2 (parts.symm ▸ alt), ?_⟩
          exact fun t ht => stands t (List.mem_of_mem_drop ht)
    · next begins =>
      rw [over_node, symbols]
      refine ⟨?_, stands⟩
      by_cases howner : name = owner
      · subst howner
        exact (split.owner_iff _).2 (Or.inr ⟨alt, fun hprefix => begins ⟨rfl, hprefix⟩⟩)
      · exact (split.same name howner htail _).2 alt

/-- Folding the tail away undoes putting it in. -/
theorem spliceTail_gatherTail (h : t.Over old) :
    spliceTail tail (gatherTail owner tail common t) = t := by
  induction h with
  | leaf token => rfl
  | @node name children alt below ih =>
    have symbols := map_symbol_map (symbol_gatherTail owner tail common) children
    have plain := split.unmentioned name _ alt
    rw [← symbols] at plain
    rw [gatherTail_node, gathered]
    split
    · rw [spliceTail_joined, ← List.map_append, List.take_append_drop, map_map_eq_self ih]
      · rw [List.map_take]
        exact fun hmem => plain (List.mem_of_mem_take hmem)
      · rw [List.map_drop]
        exact fun hmem => plain (List.mem_of_mem_drop hmem)
    · rw [spliceTail_plain plain, map_map_eq_self ih]

/-- Putting the tail in undoes folding it away. -/
theorem gatherTail_spliceTail (h : t.Over new) :
    gatherTail owner tail common (spliceTail tail t) = t := by
  induction h with
  | leaf token => rfl
  | @node name children alt below ih =>
    rcases split.alternative_cases alt with ⟨rfl, joined⟩ | ⟨plain, -, apart⟩
    · obtain ⟨front, after, rfl, hfront, oldAlt⟩ := split.exists_front joined below
      obtain ⟨plainFront, plainAfter⟩ := split.unmentioned_parts hfront oldAlt
      have begins : common <+: (front ++ after).map symbol := by
        rw [List.map_append, hfront]
        exact List.prefix_append ..
      have length : front.length = common.length := by rw [← hfront, List.length_map]
      -- the remainders are found below the tail
      have last := ih _ (List.mem_append_right _ List.mem_cons_self)
      rw [spliceTail_plain plainAfter, gatherTail_node, gathered,
        if_neg fun both => split.ne both.1.symm] at last
      have hafter := (node.inj last).2
      rw [spliceTail_joined plainFront plainAfter, gatherTail_node, List.map_append, hafter,
        map_map_eq_self fun t ht => ih t (List.mem_append_left _ ht), gathered,
        if_pos ⟨rfl, begins⟩, List.take_left' length, List.drop_left' length]
    · rw [spliceTail_plain plain, gatherTail_node, map_map_eq_self ih, gathered, if_neg apart]

/-- Folding the tail away is a bijection between the trees over the new rules and those over the
old ones. -/
theorem bijOn_spliceTail (h : name ≠ tail) :
    Set.BijOn (spliceTail tail) (treesOf new name) (treesOf old name) :=
  bijOn_treesOf (symbol_spliceTail tail) (symbol_gatherTail owner tail common)
    (fun _ => split.over_spliceTail) (fun _ => split.over_gatherTail)
    (fun _ => split.gatherTail_spliceTail) (fun _ => split.spliceTail_gatherTail)
    split.unmentioned h

end PrefixRules

end Tree

end TopDown
