import Mathlib
import TopDown.Proofs.DerivationTree
import TopDown.Tree.Fold

/-
  Folding made-up nonterminals out of a tree, one at a time.

  `rebuild` goes through a tree from the leaves up. Folding away one factoring tail is
  `spliceTail`, folding away one left-recursion tail `unwindTail`. Folding by a record of origins
  is folding away its newest entry and then the others (`fold_set_factor`, `fold_set_recursion`),
  so what is shown of each of the two carries over to any number of tails nested in each other.

  Folding keeps the symbol at the root and the leaves (`symbol_fold`, `leaves_fold`).
-/

namespace TopDown.Tree

variable {origins : Catalog Origin} {name owner tail : String} {children : List Tree} {t : Tree}

/-! ## From the leaves up -/

/-- What holds of leaves, and of a node when it holds of its children, holds of all trees. -/
theorem induction {P : Tree → Prop} (leaf : ∀ token, P (.leaf token))
    (node : ∀ name children, (∀ t ∈ children, P t) → P (.node name children)) : ∀ t, P t
  | .leaf token => leaf token
  | .node name children => node name children fun t _ => induction leaf node t
termination_by t => sizeOf t
decreasing_by
  have := List.sizeOf_lt_of_mem (by assumption : t ∈ children)
  simp
  omega

mutual

/-- Puts every node together again, over children that have been. -/
def rebuild (build : String → List Tree → Tree) : Tree → Tree
  | leaf token => leaf token
  | node name children => build name (rebuildAll build children)

def rebuildAll (build : String → List Tree → Tree) : List Tree → List Tree
  | [] => []
  | t :: rest => rebuild build t :: rebuildAll build rest

end

theorem rebuild_node (build : String → List Tree → Tree) (name : String) (children : List Tree) :
    rebuild build (node name children) = build name (children.map (rebuild build)) := by
  have all : ∀ ts, rebuildAll build ts = ts.map (rebuild build) := by
    intro ts
    induction ts with
    | nil => rfl
    | cons t ts ih => rw [rebuildAll, ih, List.map_cons]
  rw [rebuild, all]

theorem fold_node (origins : Catalog Origin) (name : String) (children : List Tree) :
    fold origins (node name children)
      = close origins name ((children.map (fold origins)).flatMap (contribution origins)) := by
  have all : ∀ ts, foldAll origins ts = (ts.map (fold origins)).flatMap (contribution origins) := by
    intro ts
    induction ts with
    | nil => rfl
    | cons t ts ih => rw [foldAll, ih, List.map_cons, List.flatMap_cons]
  rw [fold, all]

/-! ## Roots and leaves -/

theorem unroll_nil (owner : String) (done : Tree) : unroll owner done (node name []) = done := by
  rw [unroll]
  rfl

theorem unroll_concat (owner : String) (done : Tree) (front : List Tree) (last : Tree) :
    unroll owner done (node name (front ++ [last]))
      = if last.symbol = .nonterminal name then unroll owner (node owner (done :: front)) last
        else node owner (done :: (front ++ [last])) := by
  rw [unroll]
  split
  · next none => simp at none
  · next found some =>
    rw [List.getLast?_concat] at some
    cases some
    rw [List.dropLast_concat]

theorem symbol_unroll {done : Tree} (h : done.symbol = .nonterminal owner) (t : Tree) :
    (unroll owner done t).symbol = .nonterminal owner := by
  fun_induction unroll owner done t with
  | case1 => exact h
  | case2 => exact h
  | case3 done name children last last_eq same ih => exact ih rfl
  | case4 => rfl

@[simp] theorem symbol_close : (close origins name children).symbol = .nonterminal name := by
  unfold close
  split
  · rfl
  · split
    · exact symbol_unroll rfl _
    · rfl

@[simp] theorem symbol_fold (origins : Catalog Origin) (t : Tree) :
    (fold origins t).symbol = t.symbol := by
  cases t with
  | leaf token => rfl
  | node name children =>
    rw [fold_node]
    exact symbol_close

theorem leavesOf_append (ts us : List Tree) : leavesOf (ts ++ us) = leavesOf ts ++ leavesOf us := by
  induction ts with
  | nil => rfl
  | cons t ts ih => rw [List.cons_append, leavesOf, leavesOf, ih, List.append_assoc]

theorem leaves_unroll (owner : String) (done : Tree) (name : String) (children : List Tree) :
    (unroll owner done (node name children)).leaves = done.leaves ++ leavesOf children := by
  generalize ht : node name children = t
  fun_induction unroll owner done t generalizing name children with
  | case1 done token => cases ht
  | case2 done name' children' none =>
    cases ht
    rw [List.getLast?_eq_none_iff] at none
    simp [none, leavesOf]
  | case3 done name' children' last some same ih =>
    cases ht
    cases last with
    | leaf token => cases same
    | node inner deeper =>
      obtain ⟨front, rfl⟩ := List.getLast?_eq_some_iff.1 some
      rw [ih inner deeper rfl, leaves, leavesOf, List.dropLast_concat, leavesOf_append,
        leavesOf_singleton, leaves, List.append_assoc]
  | case4 done name' children' last some other =>
    cases ht
    rw [leaves, leavesOf]

theorem leaves_close (origins : Catalog Origin) (name : String) (children : List Tree) :
    (close origins name children).leaves = leavesOf children := by
  unfold close
  split
  · rfl
  · next last some =>
    split
    · next recursion =>
      obtain ⟨front, rfl⟩ := List.getLast?_eq_some_iff.1 some
      cases last with
      | leaf token => cases recursion.1
      | node inner deeper =>
        rw [leaves_unroll, List.dropLast_concat, leaves, leavesOf_append, leavesOf_singleton, leaves]
    · rfl

theorem leavesOf_contribution (origins : Catalog Origin) (t : Tree) :
    leavesOf (t.contribution origins) = t.leaves := by
  unfold contribution
  split
  · next factor =>
    cases t with
    | leaf token => cases factor
    | node name children => rw [Tree.children, leaves]
  · exact leavesOf_singleton t

/-- Folding keeps the leaves. -/
theorem leaves_fold (origins : Catalog Origin) (t : Tree) : (fold origins t).leaves = t.leaves := by
  induction t using Tree.induction with
  | leaf token => rfl
  | node name children ih =>
    rw [fold_node, leaves_close, leaves]
    induction children with
    | nil => rfl
    | cons t ts ihs =>
      rw [List.forall_mem_cons] at ih
      rw [List.map_cons, List.flatMap_cons, leavesOf_append, leavesOf_contribution, ih.1, ihs ih.2,
        leavesOf]

/-! ## One factoring tail -/

/-- A tail gives way to its children. -/
def opened (tail : String) (t : Tree) : List Tree :=
  if t.symbol = .nonterminal tail then t.children else [t]

/-- Folds one factoring tail away. -/
def spliceTail (tail : String) : Tree → Tree :=
  rebuild fun name children => node name (children.flatMap (opened tail))

theorem spliceTail_node (tail name : String) (children : List Tree) :
    spliceTail tail (node name children)
      = node name ((children.map (spliceTail tail)).flatMap (opened tail)) :=
  rebuild_node ..

@[simp] theorem symbol_spliceTail (tail : String) (t : Tree) :
    (spliceTail tail t).symbol = t.symbol := by
  cases t with
  | leaf token => rfl
  | node name children =>
    rw [spliceTail_node]
    rfl

theorem opened_tail (tail : String) (ts : List Tree) : opened tail (node tail ts) = ts :=
  if_pos rfl

theorem opened_of_ne (h : t.symbol ≠ .nonterminal tail) : opened tail t = [t] :=
  if_neg h

/-- Trees among which there is no tail are left as they are. -/
theorem flatMap_opened {ts : List Tree} (h : .nonterminal tail ∉ ts.map symbol) :
    ts.flatMap (opened tail) = ts := by
  induction ts with
  | nil => rfl
  | cons t ts ih =>
    rw [List.map_cons, List.mem_cons, not_or] at h
    rw [List.flatMap_cons, opened_of_ne (Ne.symm h.1), ih h.2, List.singleton_append]

theorem origin?_set_of_ne {origin : Origin} (h : t.symbol ≠ .nonterminal tail) :
    t.origin? (origins.set tail origin) = t.origin? origins := by
  cases t with
  | leaf token => rfl
  | node name children =>
    exact Catalog.get?_set_of_ne _ _ fun same => h (same ▸ rfl)

theorem origin?_set_self {origin : Origin} (h : t.symbol = .nonterminal tail) :
    t.origin? (origins.set tail origin) = some origin := by
  cases t with
  | leaf token => cases h
  | node name children =>
    cases h
    exact Catalog.get?_set_self ..

theorem origin?_eq_none (unnamed : origins.get? tail = none) (h : t.symbol = .nonterminal tail) :
    t.origin? origins = none := by
  cases t with
  | leaf token => cases h
  | node name children =>
    cases h
    exact unnamed

theorem contribution_set_of_ne {origin : Origin} (h : t.symbol ≠ .nonterminal tail) :
    t.contribution (origins.set tail origin) = t.contribution origins := by
  rw [contribution, contribution, origin?_set_of_ne h]

theorem contribution_set_factor (origins : Catalog Origin) (tail owner : String) (ts : List Tree) :
    (node tail ts).contribution (origins.set tail ⟨.factor, owner⟩) = ts := by
  rw [contribution, origin?, Catalog.get?_set_self]
  rfl

theorem origin?_ne_of_unowned {sort : Origin.Sort}
    (unowned : ∀ inner origin, origins.get? inner = some origin → origin.owner ≠ name) :
    t.origin? origins ≠ some ⟨sort, name⟩ := by
  intro h
  cases t with
  | leaf token => cases h
  | node inner deeper => exact unowned inner _ h rfl

/-- Nothing is unrolled under a nonterminal that no tail was split from. -/
theorem close_of_unowned
    (unowned : ∀ inner origin, origins.get? inner = some origin → origin.owner ≠ name) :
    close origins name children = node name children := by
  unfold close
  split
  · rfl
  · exact if_neg fun h => origin?_ne_of_unowned unowned h.1

section Factor

variable (unnamed : origins.get? tail = none)
  (unowned : ∀ name origin, origins.get? name = some origin → origin.owner ≠ tail)

include unnamed unowned in
/-- A new factoring tail is no reason to unroll anything. -/
theorem close_set_factor :
    close (origins.set tail ⟨.factor, owner⟩) name children = close origins name children := by
  unfold close
  cases children.getLast? with
  | none => rfl
  | some last =>
    dsimp only
    congr 1
    by_cases hname : name = tail
    · subst hname
      simp [origin?_ne_of_unowned unowned]
    · rw [Catalog.get?_set_of_ne _ _ hname]
      by_cases hlast : last.symbol = .nonterminal tail
      · simp [origin?_set_self hlast, origin?_eq_none unnamed hlast]
      · rw [origin?_set_of_ne hlast]

include unnamed unowned in
/-- Folding with a new factoring tail is folding it away first. -/
theorem fold_set_factor (owner : String) (t : Tree) :
    fold (origins.set tail ⟨.factor, owner⟩) t = fold origins (spliceTail tail t) := by
  induction t using Tree.induction with
  | leaf token => rfl
  | node name children ih =>
    rw [spliceTail_node, fold_node, fold_node, close_set_factor unnamed unowned]
    congr 1
    induction children with
    | nil => rfl
    | cons t ts ihs =>
      rw [List.forall_mem_cons] at ih
      simp only [List.map_cons, List.flatMap_cons, List.map_append, List.flatMap_append]
      rw [ihs ih.2, ih.1]
      congr 1
      by_cases htail : t.symbol = .nonterminal tail
      · cases t with
        | leaf token => cases htail
        | node inner deeper =>
          cases htail
          -- both sides are the folded children of the tail
          rw [spliceTail_node, fold_node, close_of_unowned unowned, opened_tail,
            contribution_set_factor]
      · have root : (spliceTail tail t).symbol ≠ .nonterminal tail := by rwa [symbol_spliceTail]
        rw [opened_of_ne root, List.map_singleton, List.flatMap_singleton]
        refine contribution_set_of_ne ?_
        rwa [symbol_fold]

end Factor

/-! ## One left-recursion tail -/

/-- A node of the owner is unrolled when the tail comes last under it. -/
def wound (owner tail name : String) (children : List Tree) : Tree :=
  match children.getLast? with
  | some last =>
    if name = owner ∧ last.symbol = .nonterminal tail then
      unroll owner (node owner children.dropLast) last
    else node name children
  | none => node name children

/-- Folds one left-recursion tail away. -/
def unwindTail (owner tail : String) : Tree → Tree :=
  rebuild (wound owner tail)

theorem unwindTail_node (owner tail name : String) (children : List Tree) :
    unwindTail owner tail (node name children)
      = wound owner tail name (children.map (unwindTail owner tail)) :=
  rebuild_node ..

theorem wound_of_ne (h : name ≠ owner) : wound owner tail name children = node name children := by
  unfold wound
  split
  · exact if_neg fun both => h both.1
  · rfl

theorem wound_nil : wound owner tail name [] = node name [] := rfl

theorem wound_concat (owner tail : String) (front : List Tree) (last : Tree) :
    wound owner tail owner (front ++ [last])
      = if last.symbol = .nonterminal tail then unroll owner (node owner front) last
        else node owner (front ++ [last]) := by
  unfold wound
  simp

@[simp] theorem symbol_wound : (wound owner tail name children).symbol = .nonterminal name := by
  unfold wound
  split
  · split
    · next unrolled =>
      rw [unrolled.1]
      exact symbol_unroll rfl _
    · rfl
  · rfl

@[simp] theorem symbol_unwindTail (owner tail : String) (t : Tree) :
    (unwindTail owner tail t).symbol = t.symbol := by
  cases t with
  | leaf token => rfl
  | node name children =>
    rw [unwindTail_node]
    exact symbol_wound

section Recursion

/-- Where no factoring tails are on record, every child stays one child. -/
theorem fold_node_of_recursions
    (sorts : ∀ inner origin, origins.get? inner = some origin → origin.sort = .leftRecursion)
    (name : String) (children : List Tree) :
    fold origins (node name children) = close origins name (children.map (fold origins)) := by
  have single : contribution origins = fun t => [t] := by
    funext t
    refine if_neg ?_
    cases t with
    | leaf token => simp [origin?]
    | node inner deeper =>
      rw [origin?]
      cases h : origins.get? inner with
      | none => simp
      | some origin => simp [sorts inner origin h]
  rw [fold_node, single, List.flatMap_singleton']

/-- Where nothing is on record, a tree stays as it is. -/
theorem fold_eq_self (unmade : ∀ inner, origins.get? inner = none) (t : Tree) :
    fold origins t = t := by
  have never : ∀ inner origin, origins.get? inner ≠ some origin := by simp [unmade]
  induction t using Tree.induction with
  | leaf token => rfl
  | node name children ih =>
    rw [fold_node_of_recursions fun inner origin h => absurd h (never inner origin),
      close_of_unowned fun inner origin h => absurd h (never inner origin),
      List.map_congr_left ih, List.map_id']

variable
  (sorts : ∀ inner origin, origins.get? inner = some origin → origin.sort = .leftRecursion)
  (unnamed : origins.get? tail = none) (original : origins.get? owner = none)
  (unowned : ∀ inner origin, origins.get? inner = some origin →
    origin.owner ≠ tail ∧ origin.owner ≠ owner)

include sorts unowned in
/-- Folding goes into an unrolled tail. -/
theorem fold_unroll (done : Tree) (h : t.symbol = .nonterminal tail) :
    fold origins (unroll owner done t) = unroll owner (fold origins done) (fold origins t) := by
  have atTail : ∀ ts, fold origins (node tail ts) = node tail (ts.map (fold origins)) := by
    intro ts
    rw [fold_node_of_recursions sorts, close_of_unowned fun n o hn => (unowned n o hn).1]
  have atOwner : ∀ ts, fold origins (node owner ts) = node owner (ts.map (fold origins)) := by
    intro ts
    rw [fold_node_of_recursions sorts, close_of_unowned fun n o hn => (unowned n o hn).2]
  fun_induction unroll owner done t with
  | case1 => cases h
  | case2 done name children none =>
    cases h
    rw [List.getLast?_eq_none_iff] at none
    rw [none, atTail, List.map_nil, unroll_nil]
  | case3 done name children last some same ih =>
    cases h
    obtain ⟨front, rfl⟩ := List.getLast?_eq_some_iff.1 some
    rw [ih same, atTail, atOwner, List.map_append, List.map_singleton, unroll_concat, symbol_fold,
      if_pos same, List.dropLast_concat, List.map_cons]
  | case4 done name children last some other =>
    cases h
    obtain ⟨front, rfl⟩ := List.getLast?_eq_some_iff.1 some
    rw [atTail, atOwner, List.map_append, List.map_singleton, unroll_concat, symbol_fold,
      if_neg other, List.map_cons, List.map_append, List.map_singleton]

include original unowned in
/-- With a new left-recursion tail, nodes of its owner are unrolled where the tail comes last. -/
theorem close_set_recursion_owner (ne : tail ≠ owner) :
    close (origins.set tail ⟨.leftRecursion, owner⟩) owner children
      = wound owner tail owner children := by
  unfold close wound
  cases children.getLast? with
  | none => rfl
  | some last =>
    dsimp only
    rw [Catalog.get?_set_of_ne _ _ ne.symm, original]
    by_cases hlast : last.symbol = .nonterminal tail
    · rw [origin?_set_self hlast, if_pos ⟨rfl, rfl⟩, if_pos ⟨rfl, hlast⟩]
    · have never : last.origin? origins ≠ some ⟨.leftRecursion, owner⟩ :=
        origin?_ne_of_unowned fun n o hn => (unowned n o hn).2
      rw [origin?_set_of_ne hlast, if_neg fun h => never h.1, if_neg fun h => hlast h.2]

include unnamed unowned in
/-- Nodes of other nonterminals are not. -/
theorem close_set_recursion_other (h : name ≠ owner) :
    close (origins.set tail ⟨.leftRecursion, owner⟩) name children
      = close origins name children := by
  unfold close
  cases children.getLast? with
  | none => rfl
  | some last =>
    dsimp only
    congr 1
    by_cases hlast : last.symbol = .nonterminal tail
    · simp [origin?_set_self hlast, origin?_eq_none unnamed hlast, h.symm]
    · rw [origin?_set_of_ne hlast]
      by_cases hname : name = tail
      · subst hname
        simp [origin?_ne_of_unowned fun n o hn => (unowned n o hn).1]
      · rw [Catalog.get?_set_of_ne _ _ hname]

include sorts unnamed original unowned in
/-- Folding with a new left-recursion tail is folding it away first. -/
theorem fold_set_recursion (ne : tail ≠ owner) (t : Tree) :
    fold (origins.set tail ⟨.leftRecursion, owner⟩) t
      = fold origins (unwindTail owner tail t) := by
  have moreSorts : ∀ inner origin,
      (origins.set tail ⟨.leftRecursion, owner⟩).get? inner = some origin →
      origin.sort = .leftRecursion := by
    intro inner origin h
    rcases Catalog.get?_set_eq_some.1 h with ⟨-, rfl⟩ | ⟨-, h⟩
    · rfl
    · exact sorts inner origin h
  induction t using Tree.induction with
  | leaf token => rfl
  | node name children ih =>
    have below : children.map (fold (origins.set tail ⟨.leftRecursion, owner⟩))
        = (children.map (unwindTail owner tail)).map (fold origins) := by
      rw [List.map_map]
      exact List.map_congr_left ih
    rw [fold_node_of_recursions moreSorts, below, unwindTail_node]
    by_cases hname : name = owner
    · subst hname
      have atOwner : ∀ ts, fold origins (node name ts) = node name (ts.map (fold origins)) := by
        intro ts
        rw [fold_node_of_recursions sorts, close_of_unowned fun n o hn => (unowned n o hn).2]
      rw [close_set_recursion_owner original unowned ne]
      rcases List.eq_nil_or_concat' (children.map (unwindTail name tail)) with
        none | ⟨front, last, some⟩
      · rw [none, List.map_nil, wound_nil, atOwner, List.map_nil]
      · rw [some, List.map_append, List.map_singleton, wound_concat, wound_concat, symbol_fold]
        split
        · next tailed => rw [fold_unroll sorts unowned _ tailed, atOwner]
        · rw [atOwner, List.map_append, List.map_singleton]
    · rw [close_set_recursion_other unnamed unowned hname, wound_of_ne hname,
        fold_node_of_recursions sorts]

end Recursion

end TopDown.Tree
