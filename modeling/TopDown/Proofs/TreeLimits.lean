import TopDown.Proofs.Predictive
import TopDown.Proofs.TreeFold

/-
  The limits of a predictive parse measure its tree.

  `Tree.size` counts nodes and leaves, `Tree.depth` the levels of nonterminals below the root. What
  a nonterminal is parsed to does not depend on the limits: under other limits it is parsed to the
  same tree if that fits, and cut off if it does not (`parseNonterminal_settles`). A step is taken
  for every node and every leaf, and a level for every nonterminal below the root that is not a
  factoring tail.

  Where all made-up nonterminals are factoring tails, folding takes away just the nodes that do not
  count, so the depth is that of the folded tree (`depth_fold`).
-/

namespace TopDown

/-- The levels that a nonterminal adds: a factoring tail none, any other one. -/
def Grammar.levelOf (g : Grammar) (name : String) : Nat :=
  if g.isFactorTail name then 0 else 1

/-! ## Measures of trees -/

namespace Tree

mutual

/-- The number of nodes and leaves. -/
def size : Tree → Nat
  | leaf _ => 1
  | node _ children => sizeOfAll children + 1

def sizeOfAll : List Tree → Nat
  | [] => 0
  | t :: rest => t.size + sizeOfAll rest

end

mutual

/-- The most levels on a path down from the root, where a nonterminal adds what `level` says. -/
def height (level : String → Nat) : Tree → Nat
  | leaf _ => 0
  | node name children => level name + heightOfAll level children

def heightOfAll (level : String → Nat) : List Tree → Nat
  | [] => 0
  | t :: rest => max (t.height level) (heightOfAll level rest)

end

/-- The most levels on a path from the root down, not counting the root. -/
def depth (level : String → Nat) (t : Tree) : Nat :=
  heightOfAll level t.children

/-- How deep nonterminals are nested, the root among them. -/
def nesting : Tree → Nat :=
  height fun _ => 1

variable {level : String → Nat} {origins : Catalog Origin} {name : String} {children : List Tree}

theorem heightOfAll_le_iff {bound : Nat} {ts : List Tree} :
    heightOfAll level ts ≤ bound ↔ ∀ t ∈ ts, t.height level ≤ bound := by
  induction ts with
  | nil => simp [heightOfAll]
  | cons t ts ih => rw [heightOfAll, Nat.max_le, ih, List.forall_mem_cons]

theorem heightOfAll_append (ts us : List Tree) :
    heightOfAll level (ts ++ us) = max (heightOfAll level ts) (heightOfAll level us) := by
  induction ts with
  | nil => rw [List.nil_append, heightOfAll, Nat.zero_max]
  | cons t ts ih => rw [List.cons_append, heightOfAll, heightOfAll, ih, Nat.max_assoc]

/-! ## Depth and folding -/

/-- Where all made-up nonterminals are factoring tails, nothing is unrolled. -/
theorem close_of_factors
    (factors : ∀ inner origin, origins.get? inner = some origin → origin.sort = .factor) :
    close origins name children = node name children := by
  unfold close
  split
  · rfl
  · next last _ =>
    refine if_neg fun unrolled => ?_
    cases last with
    | leaf token => cases unrolled.1
    | node inner deeper => cases factors inner _ unrolled.1

/-- What a child gives to its parent is as high as the child was, with tails not counted. -/
theorem heightOfAll_contribution {g : Grammar} {t : Tree}
    (folded : (fold g.origins t).depth (fun _ => 1) = t.depth g.levelOf) :
    heightOfAll (fun _ => 1) ((fold g.origins t).contribution g.origins)
      = t.height g.levelOf := by
  have root := symbol_fold g.origins t
  cases t with
  | leaf token => rfl
  | node name children =>
    cases whole : fold g.origins (node name children) with
    | leaf token =>
      rw [whole] at root
      cases root
    | node inner deeper =>
      rw [whole] at root folded
      cases root
      change heightOfAll (fun _ => 1) deeper = heightOfAll g.levelOf children at folded
      have tail : ((node name deeper).origin? g.origins).any (fun origin => origin.sort == .factor)
          = g.isFactorTail name := rfl
      rw [contribution, tail, height, Grammar.levelOf]
      split
      · rw [Tree.children, folded, Nat.zero_add]
      · rw [heightOfAll, heightOfAll, height, folded, Nat.max_zero]

/-- The depth of a tree, with factoring tails not counted, is the depth of the tree with them
folded away. -/
theorem depth_fold {g : Grammar}
    (factors : ∀ inner origin, g.origins.get? inner = some origin → origin.sort = .factor)
    (t : Tree) : (fold g.origins t).depth (fun _ => 1) = t.depth g.levelOf := by
  induction t using Tree.induction with
  | leaf token => rfl
  | node name children ih =>
    rw [fold_node, close_of_factors factors]
    change heightOfAll _ ((children.map (fold g.origins)).flatMap (contribution g.origins))
      = heightOfAll g.levelOf children
    induction children with
    | nil => rfl
    | cons t ts ihs =>
      rw [List.forall_mem_cons] at ih
      rw [List.map_cons, List.flatMap_cons, heightOfAll_append, heightOfAll_contribution ih.1,
        ihs ih.2, heightOfAll]

end Tree

/-! ## Parses under other limits -/

namespace PredictiveParser

variable {α β : Type} {parser : PredictiveParser} {limits : Limits} {tokens : Array Token}
  {name : String} {symbols : List Symbol} {s s' : State}

/-- A parse comes to `value` at `stop` after `steps` steps in all if it `fits` its limits, and is
cut off otherwise. -/
structure Settles (fits : Prop) (value : α) (stop steps : Nat)
    (r : Except ParseFailure (α × State)) : Prop where
  returns : fits → ∃ s, r = .ok (value, s) ∧ s.pos = stop ∧ s.steps = steps
  cut : ¬ fits → ∃ limit, r = .error (.exhausted limit)

theorem Settles.bind {fits₁ fits₂ fits : Prop} {a : α} {b : β} {mid stop steps₁ steps : Nat}
    {r : Except ParseFailure (α × State)} {f : α × State → Except ParseFailure (β × State)}
    (both : fits ↔ fits₁ ∧ fits₂) (first : Settles fits₁ a mid steps₁ r)
    (later : fits₁ → ∀ s, s.pos = mid → s.steps = steps₁ →
      Settles fits₂ b stop steps (f (a, s))) : Settles fits b stop steps (r >>= f) := by
  by_cases fit : fits₁
  · obtain ⟨s, rfl, hpos, hsteps⟩ := first.returns fit
    rw [and_iff_right fit] at both
    obtain ⟨returns, cut⟩ := later fit s hpos hsteps
    exact ⟨fun h => returns (both.1 h), fun h => cut (mt both.2 h)⟩
  · obtain ⟨limit, rfl⟩ := first.cut fit
    exact ⟨fun h => absurd (both.1 h).1 fit, fun _ => ⟨limit, rfl⟩⟩

theorem Settles.congr {fits fits' : Prop} {a : α} {stop steps : Nat}
    {r : Except ParseFailure (α × State)} (h : Settles fits a stop steps r) (same : fits' ↔ fits) :
    Settles fits' a stop steps r :=
  ⟨fun fit => h.returns (same.1 fit), fun unfit => h.cut (mt same.2 unfit)⟩

theorem Settles.map {fits : Prop} {a : α} {stop steps : Nat}
    {r : Except ParseFailure (α × State)} (h : Settles fits a stop steps r) (wrap : α → β) :
    Settles fits (wrap a) stop steps (r >>= fun x => .ok (wrap x.1, x.2)) := by
  refine h.bind (and_true fits).symm.to_iff fun _ s hpos hsteps => ?_
  exact ⟨fun _ => ⟨s, rfl, hpos, hsteps⟩, fun h => absurd trivial h⟩

/-- A tree below a node of some depth fits into the depth and the nesting that are left. -/
def FitsBelow (g : Grammar) (limits : Limits) (ceiling depth : Nat) (t : Tree) : Prop :=
  depth + t.height g.levelOf ≤ limits.maxDepth ∧ t.nesting ≤ ceiling

theorem fitsBelow_all {g : Grammar} {ceiling depth : Nat} {ts : List Tree}
    (shallow : depth ≤ limits.maxDepth) :
    (depth + Tree.heightOfAll g.levelOf ts ≤ limits.maxDepth ∧
        Tree.heightOfAll (fun _ => 1) ts ≤ ceiling) ↔
      ∀ t ∈ ts, FitsBelow g limits ceiling depth t := by
  have levels : depth + Tree.heightOfAll g.levelOf ts ≤ limits.maxDepth ↔
      Tree.heightOfAll g.levelOf ts ≤ limits.maxDepth - depth := by omega
  rw [levels, Tree.heightOfAll_le_iff, Tree.heightOfAll_le_iff, ← forall₂_and]
  refine forall₂_congr fun t _ => and_congr_left fun _ => ?_
  omega

theorem add_levelOf (g : Grammar) (depth : Nat) (name : String) :
    depth + g.levelOf name = if g.isFactorTail name then depth else depth + 1 := by
  unfold Grammar.levelOf
  split <;> rfl

/-- There are steps for several trees, and each of them fits, if this holds of the first one and
then of the others. -/
theorem fits_cons_iff {Fits : Tree → Prop} {steps : Nat} {t : Tree} {ts : List Tree} :
    (steps + t.size + Tree.sizeOfAll ts ≤ limits.maxSteps ∧ ∀ u ∈ t :: ts, Fits u) ↔
      (steps + t.size ≤ limits.maxSteps ∧ Fits t) ∧
        steps + t.size + Tree.sizeOfAll ts ≤ limits.maxSteps ∧ ∀ u ∈ ts, Fits u := by
  rw [List.forall_mem_cons]
  constructor
  · rintro ⟨size, fit, fits⟩
    exact ⟨⟨by omega, fit⟩, size, fits⟩
  · rintro ⟨⟨-, fit⟩, size, fits⟩
    exact ⟨size, fit, fits⟩

/-- A token takes one step. -/
theorem take_settles (limits : Limits) {token : Token} {fits : Prop} (leaf : fits)
    (here : tokens[s.pos]? = some token) :
    Settles (s.steps + (Tree.leaf token).size ≤ limits.maxSteps ∧ fits) (.leaf token) (s.pos + 1)
      (s.steps + (Tree.leaf token).size) (tick limits s >>= take tokens token.kind) := by
  rcases Nat.lt_or_ge s.steps limits.maxSteps with more | spent
  · have taken := take_of_getElem? (s := { s with steps := s.steps + 1 }) here
    rw [tick_of_lt more]
    exact ⟨fun _ => ⟨_, taken, rfl, rfl⟩, fun unfit => absurd ⟨more, leaf⟩ unfit⟩
  · rw [tick_of_le spent]
    exact ⟨fun fit => absurd fit.1 (Nat.not_le_of_lt (Nat.lt_succ_of_le spent)), fun _ => ⟨_, rfl⟩⟩

/-- The symbols of an alternative are parsed to the same trees under other limits if these fit. -/
theorem parseSequence_settles {limits₀ : Limits} {Fits : Tree → Prop}
    {enter₀ enter : String → State → Except ParseFailure (Tree × State)}
    (leaf : ∀ token, Fits (.leaf token))
    (henter : ∀ inner s₀ t s', enter₀ inner s₀ = .ok (t, s') → ∀ s : State, s.pos = s₀.pos →
      Settles (s.steps + t.size ≤ limits.maxSteps ∧ Fits t) t s'.pos (s.steps + t.size)
        (enter inner s))
    {s₀ : State} {ts : List Tree}
    (h : parseSequence limits₀ tokens enter₀ symbols s₀ = .ok (ts, s'))
    (hpos : s.pos = s₀.pos) (within : s.steps ≤ limits.maxSteps) :
    Settles (s.steps + Tree.sizeOfAll ts ≤ limits.maxSteps ∧ ∀ t ∈ ts, Fits t) ts s'.pos
      (s.steps + Tree.sizeOfAll ts) (parseSequence limits tokens enter symbols s) := by
  induction symbols generalizing s₀ s ts with
  | nil =>
    cases h
    refine ⟨fun _ => ⟨s, rfl, hpos, rfl⟩, fun unfit => absurd ⟨within, ?_⟩ unfit⟩
    exact fun t ht => absurd ht List.not_mem_nil
  | cons a symbols ih =>
    cases a with
    | terminal kind =>
      rw [parseSequence] at h
      obtain ⟨s₁, hs₁, h⟩ := bind_eq_ok_iff.1 h
      obtain ⟨⟨t, s₂⟩, htake, h⟩ := bind_eq_ok_iff.1 h
      obtain ⟨⟨rest, s₃⟩, hrest, h⟩ := bind_eq_ok_iff.1 h
      cases h
      obtain rfl := tick_eq_ok hs₁
      obtain ⟨token, here, rfl, rfl, hpos₂⟩ := take_eq_ok htake
      have first := take_settles limits (leaf token) (hpos ▸ here)
      rw [parseSequence, ← bind_assoc, Tree.sizeOfAll, ← Nat.add_assoc]
      refine first.bind fits_cons_iff fun fit s hs steps => ?_
      have later := ih hrest (hs.trans (hpos ▸ hpos₂.symm)) (steps ▸ fit.1)
      rw [steps] at later
      exact later.map (.leaf token :: ·)
    | nonterminal inner =>
      rw [parseSequence] at h
      obtain ⟨⟨t, s₁⟩, hinner, h⟩ := bind_eq_ok_iff.1 h
      obtain ⟨⟨rest, s₂⟩, hrest, h⟩ := bind_eq_ok_iff.1 h
      cases h
      rw [parseSequence, Tree.sizeOfAll, ← Nat.add_assoc]
      refine (henter inner s₀ t s₁ hinner s hpos).bind fits_cons_iff fun fit s hs steps => ?_
      have later := ih hrest hs (steps ▸ fit.1)
      rw [steps] at later
      exact later.map (t :: ·)

/-- What a nonterminal is parsed to, it is parsed to under all limits that the tree fits, and under
no others: it takes a step for every node and leaf, a level for every nonterminal below the root
that is no factoring tail, and as much nesting as the tree has. -/
theorem parseNonterminal_settles {limits₀ : Limits} {ceiling₀ depth₀ : Nat} {s₀ : State} {t : Tree}
    (h : parser.parseNonterminal limits₀ tokens ceiling₀ depth₀ name s₀ = .ok (t, s'))
    (limits : Limits) (ceiling depth : Nat) (hpos : s.pos = s₀.pos) :
    Settles (s.steps + t.size ≤ limits.maxSteps ∧
        depth + t.depth parser.grammar.levelOf ≤ limits.maxDepth ∧ t.nesting ≤ ceiling)
      t s'.pos (s.steps + t.size)
      (parser.parseNonterminal limits tokens ceiling depth name s) := by
  induction ceiling₀ generalizing ceiling depth depth₀ name s₀ s s' t with
  | zero => cases h
  | succ ceiling₀ ih =>
    obtain ⟨below₀, i, ts, hbelow, selected, rfl, hseq⟩ := parseNonterminal_eq_ok h
    obtain rfl := Nat.succ.inj hbelow
    have size : (Tree.node name ts).size = Tree.sizeOfAll ts + 1 := by rw [Tree.size]
    have nesting : (Tree.node name ts).nesting = 1 + Tree.heightOfAll (fun _ => 1) ts := by
      rw [Tree.nesting, Tree.height]
    have levels : (Tree.node name ts).depth parser.grammar.levelOf
      = Tree.heightOfAll parser.grammar.levelOf ts := rfl
    rw [size, nesting, levels]
    rcases parser.parseNonterminal_limits limits tokens ceiling depth name s with
      ⟨rfl, cut⟩ | ⟨deep, cut⟩ | ⟨spent, cut⟩ | ⟨below, rfl, shallow, more⟩
    · exact ⟨fun fits => by omega, fun _ => ⟨_, cut⟩⟩
    · exact ⟨fun fits => by omega, fun _ => ⟨_, cut⟩⟩
    · exact ⟨fun fits => by omega, fun _ => ⟨_, cut⟩⟩
    · have look : look tokens s = look tokens s₀ := by rw [look, look, hpos]
      rw [parseNonterminal_succ shallow more, look, selected]
      have inside : Settles
          ((parser.entry tokens name i s).steps + Tree.sizeOfAll ts ≤ limits.maxSteps ∧
            ∀ t ∈ ts, FitsBelow parser.grammar limits below depth t) ts s'.pos
          ((parser.entry tokens name i s).steps + Tree.sizeOfAll ts)
          (parseSequence limits tokens (parser.enterBelow limits tokens below depth)
            (parser.chosen name i) (parser.entry tokens name i s)) := by
        refine parseSequence_settles ?_ ?_ hseq hpos more
        · exact fun token => ⟨shallow, Nat.zero_le below⟩
        · intro inner s₀ t s' hinner s hpos
          obtain ⟨-, -, us, -, -, rfl, -⟩ := parseNonterminal_eq_ok hinner
          refine (ih hinner below _ hpos).congr ?_
          refine and_congr_right fun _ => and_congr_left fun _ => ?_
          rw [← add_levelOf, Nat.add_assoc]
          rfl
      have steps : s.steps + (Tree.sizeOfAll ts + 1)
          = (parser.entry tokens name i s).steps + Tree.sizeOfAll ts := by
        rw [entry, Nat.add_right_comm, Nat.add_assoc]
      rw [steps]
      refine (inside.congr ?_).map (Tree.node name)
      rw [← fitsBelow_all shallow]
      omega

/-! ## Whole parses -/

/-- A tree that a parse returns under some limits measures all of them. Given nesting for the tree,
the same tree is returned if it has at most as many nodes and leaves as there are steps and is no
deeper than allowed, factoring tails not counted; otherwise the parse is cut off. Where all made-up
nonterminals are factoring tails, this depth is that of the folded tree. -/
theorem parseBelow_fits {g : Grammar} {allowConflicts : Bool} {tokens : List Token}
    {ceiling₀ : Nat} {limits₀ : Limits} {tree : Tree}
    (built : ofGrammar g allowConflicts = .ok parser)
    (returned : parser.parseBelow ceiling₀ limits₀ tokens = .ok tree) :
    (∀ ceiling limits, tree.nesting ≤ ceiling →
      (tree.size ≤ limits.maxSteps ∧ tree.depth g.levelOf ≤ limits.maxDepth →
        parser.parseBelow ceiling limits tokens = .ok tree) ∧
      (¬ (tree.size ≤ limits.maxSteps ∧ tree.depth g.levelOf ≤ limits.maxDepth) →
        ∃ limit, parser.parseBelow ceiling limits tokens = .error (.exhausted limit))) ∧
    ((∀ name origin, g.origins.get? name = some origin → origin.sort = .factor) →
      (tree.fold g.origins).depth (fun _ => 1) = tree.depth g.levelOf) := by
  obtain ⟨valid, rfl⟩ := ofGrammar_eq_ok built
  obtain ⟨start, hstart, -⟩ := Grammar.exists_start_of_validate valid
  refine ⟨fun ceiling limits nesting => ?_, fun factors => Tree.depth_fold factors tree⟩
  rw [parseBelow_eq hstart] at returned ⊢
  obtain ⟨⟨t, s⟩, hnode, h⟩ := bind_eq_ok_iff.1 returned
  dsimp only at h
  split at h
  · cases h
  · next reached =>
    cases h
    have settled := parseNonterminal_settles hnode limits ceiling 0 (s := .start) rfl
    rw [State.start, Nat.zero_add, Nat.zero_add] at settled
    constructor
    · rintro ⟨size, depth⟩
      obtain ⟨s', ok, hpos, -⟩ := settled.returns ⟨size, depth, nesting⟩
      rw [State.start, ok]
      exact if_neg (hpos ▸ reached)
    · intro unfit
      obtain ⟨limit, cut⟩ := settled.cut fun fits => unfit ⟨fits.1, fits.2.1⟩
      refine ⟨limit, ?_⟩
      rw [State.start, cut]
      rfl

/-- Returns inside returns, with what may stand after one split off; a semicolon can belong to
several of them. -/
def returns : Grammar :=
  .assemble (some "s")
    [("s", [[.terminal .returnWord, .nonterminal "s", .nonterminal "__lf1"],
       [.terminal .identifier]]),
     ("__lf1", [[], [.terminal .semicolon, .nonterminal "s"]])] [("__lf1", ⟨.factor, "s"⟩)]

/-- The tokens of `return return x ; y`. -/
def returnsTokens : List Token :=
  [⟨.returnWord, some "return", ⟨0, 1, 1⟩⟩, ⟨.returnWord, some "return", ⟨7, 1, 8⟩⟩,
   ⟨.identifier, some "x", ⟨14, 1, 15⟩⟩, ⟨.semicolon, some ";", ⟨16, 1, 17⟩⟩,
   ⟨.identifier, some "y", ⟨18, 1, 19⟩⟩]

/-- Their tree: the semicolon goes with the inner return. -/
def returnsTree : Tree :=
  .node "s" [.leaf ⟨.returnWord, some "return", ⟨0, 1, 1⟩⟩,
    .node "s" [.leaf ⟨.returnWord, some "return", ⟨7, 1, 8⟩⟩,
      .node "s" [.leaf ⟨.identifier, some "x", ⟨14, 1, 15⟩⟩],
      .node "__lf1" [.leaf ⟨.semicolon, some ";", ⟨16, 1, 17⟩⟩,
        .node "s" [.leaf ⟨.identifier, some "y", ⟨18, 1, 19⟩⟩]]],
    .node "__lf1" []]

theorem parseBelow_fits_returns :
    ∃ parser, ofGrammar returns true = .ok parser ∧ returns.conflicts ≠ [] ∧
      parser.parse .standard returnsTokens = .ok returnsTree ∧
      parser.parse ⟨2, 11⟩ returnsTokens = .ok returnsTree ∧
      (∃ limit, parser.parse ⟨2, 10⟩ returnsTokens = .error (.exhausted limit)) ∧
      (∃ limit, parser.parse ⟨1, 11⟩ returnsTokens = .error (.exhausted limit)) ∧
      (returnsTree.fold returns.origins).depth (fun _ => 1) = 2 := by
  have built : ofGrammar returns true = .ok ⟨returns, returns.decisionTable⟩ :=
    ofGrammar_allowing (by rfl)
  have contested : returns.conflicts ≠ [] := by decide +kernel
  have returned : parse ⟨returns, returns.decisionTable⟩ .standard returnsTokens
      = .ok returnsTree := by rfl
  have size : returnsTree.size = 11 := by rfl
  have depth : returnsTree.depth returns.levelOf = 2 := by rfl
  have enough : returnsTree.nesting ≤ nestingCeiling := by decide
  have factors : ∀ name origin, returns.origins.get? name = some origin →
      origin.sort = .factor := by
    intro name origin h
    change ((∅ : Catalog Origin).set "__lf1" ⟨.factor, "s"⟩).get? name = some origin at h
    obtain ⟨-, rfl⟩ := (Catalog.get?_set_eq_some.1 h).resolve_right (by simp)
    rfl
  obtain ⟨limited, folded⟩ := parseBelow_fits built returned
  refine ⟨_, built, contested, returned, ?_, ?_, ?_, (folded factors).trans depth⟩
  · exact (limited nestingCeiling ⟨2, 11⟩ enough).1 ⟨Nat.le_of_eq size, Nat.le_of_eq depth⟩
  · refine (limited nestingCeiling ⟨2, 10⟩ enough).2 fun fits => ?_
    rw [size] at fits
    exact absurd fits.1 (by decide)
  · refine (limited nestingCeiling ⟨1, 11⟩ enough).2 fun fits => ?_
    rw [depth] at fits
    exact absurd fits.2 (by decide)

end PredictiveParser

end TopDown
