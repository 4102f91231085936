import TopDown.Grammar.Basic
import TopDown.Tree.Basic

/-
  Folding made-up nonterminals out of a tree, from the leaves up. A factoring tail gives way to its
  children. A left-recursion tail `T` that comes last under the nonterminal `A` it was split from
  is unrolled: `A(α T(β T(…)))` becomes `A(A(α) β …)`, one level for each repetition.
-/

namespace TopDown.Tree

/-- Where the nonterminal at the root comes from, if it was made up. -/
def origin? (origins : Catalog Origin) : Tree → Option Origin
  | leaf _ => none
  | node name _ => origins.get? name

/-- Wraps `done` and the repetitions along a tail into nodes of `owner`, innermost first. A
repetition whose last child is not the same tail again is the last one. -/
def unroll (owner : String) (done : Tree) : Tree → Tree
  | leaf _ => done
  | node name children =>
    match _h : children.getLast? with
    | none => done
    | some last =>
      if last.symbol = .nonterminal name then
        unroll owner (node owner (done :: children.dropLast)) last
      else node owner (done :: children)
termination_by tail => sizeOf tail
decreasing_by
  have := List.sizeOf_lt_of_mem (List.mem_of_getLast? _h)
  simp
  omega

/-- A node with folded children: unrolled when the last of them is a left-recursion tail of the
node's own nonterminal. -/
def close (origins : Catalog Origin) (name : String) (children : List Tree) : Tree :=
  match children.getLast? with
  | none => node name children
  | some last =>
    if last.origin? origins = some ⟨.leftRecursion, name⟩ ∧ origins.get? name = none then
      unroll name (node name children.dropLast) last
    else node name children

/-- What a folded child contributes to its parent: a factoring tail its children, any other tree
itself. -/
def contribution (origins : Catalog Origin) (t : Tree) : List Tree :=
  if (t.origin? origins).any fun origin => origin.sort == .factor then t.children else [t]

mutual

def fold (origins : Catalog Origin) : Tree → Tree
  | leaf token => leaf token
  | node name children => close origins name (foldAll origins children)

def foldAll (origins : Catalog Origin) : List Tree → List Tree
  | [] => []
  | t :: rest => (fold origins t).contribution origins ++ foldAll origins rest

end

end TopDown.Tree
