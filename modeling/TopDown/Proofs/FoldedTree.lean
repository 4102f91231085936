import TopDown.Proofs.TreeFold

/-
  What folding leaves of a tree, whatever the tree and the origins.

  The root and the tokens at the leaves stay (`symbol_fold`, `leaves_fold`), and `tokens`, which
  goes through a tree with a stack, finds just the leaves (`tokens_eq_leaves`).

  No factoring tail is left below the root. `Plain` says so of a tree and is kept from the leaves
  up: a tail among the folded children gives way to its own children, and below it there is no tail
  any more. A node that is unrolled has no origin, so the nodes that unrolling makes are no tails.
-/

namespace TopDown.Tree

variable {origins : Catalog Origin} {name owner : String} {children : List Tree} {t u : Tree}

/-! ## Tokens in order -/

theorem collect_eq (found : List Token) (stack : List Tree) :
    collect found stack = found ++ leavesOf stack := by
  fun_induction collect found stack with
  | case1 found => simp [leavesOf]
  | case2 found token stack ih => simp [ih, leavesOf, leaves]
  | case3 found name children stack ih => simp [ih, leavesOf, leaves, leavesOf_append]

theorem tokens_eq_leaves (t : Tree) : t.tokens = t.leaves := by
  unfold tokens
  rw [collect_eq, List.nil_append, leavesOf_singleton]

/-! ## Below the root -/

/-- The first tree stands somewhere below the root of the second. -/
inductive Below (u : Tree) : Tree → Prop where
  | child {t : Tree} (h : u ∈ t.children) : Below u t
  | deeper {t v : Tree} (h : v ∈ t.children) (below : Below u v) : Below u t

/-- The nonterminal at the root was made up by factoring. -/
def IsFactor (origins : Catalog Origin) (t : Tree) : Prop :=
  ∃ origin, t.origin? origins = some origin ∧ origin.sort = .factor

/-- No factoring tail stands below the root. -/
def Plain (origins : Catalog Origin) (t : Tree) : Prop :=
  ∀ u, Below u t → ¬ IsFactor origins u

/-- The trees are neither factoring tails nor do they hold any. -/
def AllPlain (origins : Catalog Origin) (ts : List Tree) : Prop :=
  ∀ t ∈ ts, ¬ IsFactor origins t ∧ Plain origins t

theorem plain_leaf (token : Token) : Plain origins (leaf token) := by
  intro u below
  cases below with
  | child h => simp [children] at h
  | deeper h => simp [children] at h

theorem plain_node_iff : Plain origins (node name children) ↔ AllPlain origins children := by
  constructor
  · intro h t ht
    exact ⟨h t (.child ht), fun u below => h u (.deeper ht below)⟩
  · intro h u below
    cases below with
    | child hu => exact (h u hu).1
    | deeper hv below => exact (h _ hv).2 u below

theorem AllPlain.cons {ts : List Tree} (root : ¬ IsFactor origins t) (plain : Plain origins t)
    (hts : AllPlain origins ts) : AllPlain origins (t :: ts) :=
  List.forall_mem_cons.2 ⟨⟨root, plain⟩, hts⟩

theorem AllPlain.subset {ts us : List Tree} (h : AllPlain origins us) (sub : ts ⊆ us) :
    AllPlain origins ts :=
  fun t ht => h t (sub ht)

theorem not_isFactor_of_unowned (free : origins.get? name = none) (children : List Tree) :
    ¬ IsFactor origins (node name children) := by
  rintro ⟨origin, horigin, -⟩
  simp [origin?, free] at horigin

/-! ## Folding -/

/-- Unrolling makes nodes of the owner only, and the owner was not made up. -/
theorem plain_unroll (free : origins.get? owner = none) {done : Tree}
    (root : ¬ IsFactor origins done) (hdone : Plain origins done) (ht : Plain origins t) :
    Plain origins (unroll owner done t) := by
  fun_induction unroll owner done t with
  | case1 done token => exact hdone
  | case2 done name children none => exact hdone
  | case3 done name children last some same ih =>
    have all := plain_node_iff.1 ht
    have front : AllPlain origins (done :: children.dropLast) :=
      .cons root hdone (all.subset (List.dropLast_subset children))
    apply ih
    · exact not_isFactor_of_unowned free _
    · exact plain_node_iff.2 front
    · exact (all last (List.mem_of_getLast? some)).2
  | case4 done name children last some other =>
    apply plain_node_iff.2
    exact .cons root hdone (plain_node_iff.1 ht)

theorem plain_close (h : AllPlain origins children) :
    Plain origins (close origins name children) := by
  unfold close
  split
  · exact plain_node_iff.2 h
  · next last some =>
    split
    · next recursion =>
      apply plain_unroll recursion.2
      · exact not_isFactor_of_unowned recursion.2 _
      · exact plain_node_iff.2 (h.subset (List.dropLast_subset children))
      · exact (h last (List.mem_of_getLast? some)).2
    · exact plain_node_iff.2 h

/-- A tail hands on its children, among which there is no other tail. -/
theorem allPlain_contribution (h : Plain origins t) :
    AllPlain origins (t.contribution origins) := by
  unfold contribution
  split
  · cases t with
    | leaf token => simp [AllPlain, children]
    | node name children => exact plain_node_iff.1 h
  · next other =>
    simp only [AllPlain, List.forall_mem_singleton]
    refine ⟨?_, h⟩
    rintro ⟨origin, horigin, factor⟩
    simp [horigin, factor] at other

theorem plain_fold (origins : Catalog Origin) (t : Tree) : Plain origins (fold origins t) := by
  induction t using Tree.induction with
  | leaf token => exact plain_leaf token
  | node name children ih =>
    rw [fold_node]
    apply plain_close
    intro u hu
    obtain ⟨folded, hfolded, hu⟩ := List.mem_flatMap.1 hu
    obtain ⟨child, hchild, rfl⟩ := List.mem_map.1 hfolded
    exact allPlain_contribution (ih child hchild) u hu

/-- Folding loses nothing: the root stays, and the tokens at the leaves stay and keep their order.
It leaves no factoring tail below the root. -/
theorem fold_lossless (origins : Catalog Origin) (t : Tree) :
    (fold origins t).symbol = t.symbol ∧
      (fold origins t).tokens = t.tokens ∧ t.tokens = t.leaves ∧
      (fold origins t).tokens = (fold origins t).leaves ∧
      ∀ u, Below u (fold origins t) → ∀ name origin, u.symbol = .nonterminal name →
        origins.get? name = some origin → origin.sort ≠ .factor := by
  refine ⟨symbol_fold origins t, ?_, tokens_eq_leaves t, tokens_eq_leaves _, ?_⟩
  · rw [tokens_eq_leaves, tokens_eq_leaves, leaves_fold]
  · intro u below name origin symbol made factor
    apply plain_fold origins t u below
    cases u with
    | leaf token => cases symbol
    | node other children =>
      obtain rfl := Symbol.nonterminal.inj symbol
      exact ⟨origin, made, factor⟩

/-- A factoring tail, and the recursion tails of two nonterminals. -/
def mixedOrigins : Catalog Origin :=
  .ofList [("__lf1", ⟨.factor, "s"⟩), ("__lr2", ⟨.leftRecursion, "s"⟩),
    ("__lr3", ⟨.leftRecursion, "e"⟩)]

/-- A tail below a tail; the recursion tail of `e` is on its own. -/
def mixedTree : Tree :=
  .node "s" [.node "__lf1" [.leaf ⟨.identifier, some "x", .start⟩,
    .node "__lr3" [.leaf ⟨.plus, none, .start⟩],
    .node "__lr2" [.node "__lf1" [.leaf ⟨.star, none, .start⟩], .node "__lr2" []]]]

/-- The recursion tail of `s` is unrolled, that of `e` stays. -/
def mixedFolded : Tree :=
  .node "s" [.node "s" [.leaf ⟨.identifier, some "x", .start⟩,
    .node "__lr3" [.leaf ⟨.plus, none, .start⟩]], .leaf ⟨.star, none, .start⟩]

theorem fold_lossless_mixed :
    fold mixedOrigins mixedTree = mixedFolded ∧
      mixedFolded.tokens.map Token.kind = [.identifier, .plus, .star] ∧
      mixedOrigins.get? "__lr3" = some ⟨.leftRecursion, "e"⟩ ∧
      Origin.Sort.leftRecursion ≠ .factor := by
  have folded : fold mixedOrigins mixedTree = mixedFolded := by cbv
  have made : mixedOrigins.get? "__lr3" = some ⟨.leftRecursion, "e"⟩ := by rfl
  have leaves : mixedTree.leaves.map Token.kind = [.identifier, .plus, .star] := by rfl
  obtain ⟨-, same, all, -, unfactored⟩ := fold_lossless mixedOrigins mixedTree
  rw [folded] at same unfactored
  refine ⟨folded, ?_, made, ?_⟩
  · rw [same, all, leaves]
  · apply unfactored (.node "__lr3" [.leaf ⟨.plus, none, .start⟩]) ?_ "__lr3" ⟨.leftRecursion, "e"⟩
      rfl made
    apply Below.deeper List.mem_cons_self
    apply Below.child
    simp [children]

end TopDown.Tree
