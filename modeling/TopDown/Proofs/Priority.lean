import TopDown.Proofs.Backtracking
import TopDown.Proofs.CallPaths

/-
  The backtracking parser finds the first tree.

  Trees are compared by their choices, which are the places of the alternatives at the nodes, from
  the root down and from left to right. Of two different trees for one symbol at one position,
  neither has choices that begin with those of the other (`Admitted.eq_of_choices`), so trees side
  by side are compared one after the other.

  This is the order in which a search tries the admitted trees. `FindsFirst` says so without
  mentioning all of them: what a match finds, it finds through a result that is offered, after the
  continuation has refused every offered result with earlier choices. At the end only trees that do
  not cover all tokens are refused, so the tree that is found is the first (`search_first`).
-/

namespace TopDown

/-! ## Choices -/

namespace Tree

mutual

/-- The places of the alternatives at the nodes, in preorder. An alternative that is declared twice
counts in its first place. -/
def choices (g : Grammar) : Tree → List Nat
  | leaf _ => []
  | node name children => (g.alternatives name).idxOf (children.map symbol) :: choicesOf g children

def choicesOf (g : Grammar) : List Tree → List Nat
  | [] => []
  | t :: rest => t.choices g ++ choicesOf g rest

end

end Tree

/-- Lists are compared by their fronts, where neither front can begin the other. -/
theorem lt_or_of_append_lt {a b x y : List Nat} (apart : ∀ u v, a ++ u = b ++ v → a = b)
    (h : a ++ x < b ++ y) : a < b ∨ a = b ∧ x < y := by
  induction a generalizing b with
  | nil =>
    obtain rfl := apart b [] (List.append_nil b).symm
    exact Or.inr ⟨rfl, h⟩
  | cons m a ih =>
    cases b with
    | nil => cases apart [] (m :: a) (List.append_nil _)
    | cons n b =>
      rw [List.cons_append, List.cons_append, List.cons_lt_cons_iff] at h
      rcases h with first | ⟨rfl, later⟩
      · exact Or.inl (List.cons_lt_cons_iff.2 (Or.inl first))
      · have behind : ∀ u v, a ++ u = b ++ v → a = b :=
          fun u v same => (List.cons.inj (apart u v (congrArg (m :: ·) same))).2
        rcases ih behind later with front | ⟨rfl, rest⟩
        · exact Or.inl (List.cons_lt_cons_iff.2 (Or.inr ⟨rfl, front⟩))
        · exact Or.inr ⟨rfl, rest⟩

/-- What has its first place in front of another entry stands before it. -/
theorem mem_of_idxOf_lt {α : Type} [BEq α] [LawfulBEq α] {before after : List α} {a b : α}
    (h : (before ++ a :: after).idxOf b < (before ++ a :: after).idxOf a) : b ∈ before := by
  by_contra absent
  rw [List.idxOf_append_of_notMem absent] at h
  have place : (before ++ a :: after).idxOf a ≤ before.length := by
    by_cases earlier : a ∈ before
    · rw [List.idxOf_append_of_mem earlier]
      exact List.idxOf_le_length
    · rw [List.idxOf_append_of_notMem earlier, List.idxOf_cons_self, Nat.add_zero]
  omega

namespace Backtracking

variable {α : Type} {g : Grammar} {limits : Limits} {tokens : Array Token}
  {calls calls' : List Call} {name : String} {pos mid mid' stop stop' : Nat} {t u : Tree}
  {ts us : List Tree} {symbols : List Symbol} {x y : List Nat}

/-- From their choices, trees at one position are known, and so is where their choices end. -/
theorem Admitted.eq_of_choices (h : Admitted g tokens calls ts pos stop)
    (h' : Admitted g tokens calls' us pos stop')
    (symbols : us.map Tree.symbol = ts.map Tree.symbol)
    (same : Tree.choicesOf g us ++ x = Tree.choicesOf g ts ++ y) :
    us = ts ∧ stop' = stop ∧ x = y := by
  induction h generalizing calls' us stop' x y with
  | nil =>
    obtain rfl := List.map_eq_nil_iff.1 symbols
    cases h'
    exact ⟨rfl, rfl, same⟩
  | leaf here rest ih =>
    cases h' with
    | nil => cases symbols
    | node => cases (List.cons.inj symbols).1
    | leaf here' rest' =>
      obtain rfl := Option.some.inj (here'.symm.trans here)
      obtain ⟨rfl, ends, rest⟩ := ih rest' (List.cons.inj symbols).2 same
      exact ⟨rfl, ends, rest⟩
  | node room alt below rest ihBelow ih =>
    cases h' with
    | nil => cases symbols
    | leaf => cases (List.cons.inj symbols).1
    | node room' alt' below' rest' =>
      obtain ⟨symbol, others⟩ := List.cons.inj symbols
      obtain rfl := Symbol.nonterminal.inj symbol
      simp only [Tree.choicesOf, Tree.choices, List.cons_append, List.append_assoc] at same
      obtain ⟨place, same⟩ := List.cons.inj same
      obtain ⟨rfl, rfl, same⟩ := ihBelow below' ((List.idxOf_inj alt').1 place) same
      obtain ⟨rfl, ends, rest⟩ := ih rest' others same
      exact ⟨rfl, ends, rest⟩

/-- A tree with earlier choices is another tree with earlier choices, or the same tree with earlier
choices behind it. -/
theorem Admitted.lt_or_of_choices (h : Admitted g tokens calls [t] pos mid)
    (h' : Admitted g tokens calls' [u] pos mid') (symbol : u.symbol = t.symbol)
    (earlier : u.choices g ++ x < t.choices g ++ y) :
    u.choices g < t.choices g ∨ u = t ∧ mid' = mid ∧ x < y := by
  have known : ∀ v w, u.choices g ++ v = t.choices g ++ w → u = t ∧ mid' = mid := by
    intro v w same
    have whole : Tree.choicesOf g [u] ++ v = Tree.choicesOf g [t] ++ w := by
      simpa [Tree.choicesOf] using same
    obtain ⟨trees, ends, -⟩ := h.eq_of_choices h' (congrArg (· :: []) symbol) whole
    exact ⟨(List.cons.inj trees).1, ends⟩
  rcases lt_or_of_append_lt (fun v w same => congrArg _ (known v w same).1) earlier with
    front | ⟨same, rest⟩
  · exact Or.inl front
  · obtain ⟨trees, ends⟩ := known [] [] (congrArg (· ++ []) same)
    exact Or.inr ⟨trees, ends, rest⟩

/-! ## The order of a search -/

/-- What is found is found through an offered result, when all offered results with an earlier key
have been refused. -/
def FindsFirst (key : α → List Nat) (offers : Nat → α → Prop)
    (run : Continuation α → Progress → Outcome) : Prop :=
  ∀ next p q tree, run next p = .found tree q →
    ∃ stop value p', offers stop value ∧ next stop value p' = .found tree q ∧
      ∀ stop' value', offers stop' value' → key value' < key value →
        ∃ p' q', next stop' value' p' = .failed q'

section Sequence

variable {enter : String → Nat → Continuation Tree → Progress → Outcome}

theorem matchSequence_first_terminal (kind : Kind)
    (rest : FindsFirst (Tree.choicesOf g) (offeredForests g tokens calls symbols (pos + 1))
      (matchSequence limits tokens enter symbols (pos + 1))) :
    FindsFirst (Tree.choicesOf g) (offeredForests g tokens calls (.terminal kind :: symbols) pos)
      (matchSequence limits tokens enter (.terminal kind :: symbols) pos) := by
  intro next p q tree h
  rw [matchSequence] at h
  replace h := tick_eq_found h
  split at h
  · next token here =>
    split at h
    · next same =>
      obtain ⟨stop, ts, p₂, offered, hnext, earlier⟩ := rest _ _ _ _ h
      refine ⟨stop, .leaf token :: ts, p₂, ?_, hnext, fun stop' us offered' before => ?_⟩
      · exact offeredForests_terminal.2 ⟨token, ts, rfl, same, here, offered⟩
      · obtain ⟨token', us, rfl, -, here', offered'⟩ := offeredForests_terminal.1 offered'
        obtain rfl := Option.some.inj (here'.symm.trans here)
        exact earlier stop' us offered' before
    · cases h
  · cases h

theorem matchSequence_first_nonterminal
    (first : FindsFirst (Tree.choices g) (offeredTrees g tokens calls name pos) (enter name pos))
    (explores : ∀ mid, Explores (offeredForests g tokens calls symbols mid)
      (matchSequence limits tokens enter symbols mid))
    (rest : ∀ mid, FindsFirst (Tree.choicesOf g) (offeredForests g tokens calls symbols mid)
      (matchSequence limits tokens enter symbols mid)) :
    FindsFirst (Tree.choicesOf g) (offeredForests g tokens calls (.nonterminal name :: symbols) pos)
      (matchSequence limits tokens enter (.nonterminal name :: symbols) pos) := by
  intro next p q tree h
  rw [matchSequence] at h
  replace h := tick_eq_found h
  obtain ⟨mid, t, p₂, offered, h, earlier⟩ := first _ _ _ _ h
  obtain ⟨stop, ts, p₃, offeredRest, hnext, earlierRest⟩ := rest mid _ _ _ _ h
  refine ⟨stop, t :: ts, p₃, ?_, hnext, fun stop' trees offered' before => ?_⟩
  · exact offeredForests_nonterminal.2 ⟨mid, t, ts, rfl, offered, offeredRest⟩
  · obtain ⟨mid', u, us, rfl, offered', offeredRest'⟩ := offeredForests_nonterminal.1 offered'
    have symbol : u.symbol = t.symbol := offered'.1.trans offered.1.symm
    rcases offered.2.lt_or_of_choices offered'.2 symbol before with front | ⟨rfl, rfl, behind⟩
    · -- the whole search behind the earlier tree has failed
      obtain ⟨p₄, q₄, failed⟩ := earlier mid' u offered' front
      exact (explores mid').of_failed failed stop' us offeredRest'
    · exact earlierRest stop' us offeredRest' behind

theorem matchSequence_first (limits : Limits)
    (explores : ∀ name pos, Explores (offeredTrees g tokens calls name pos) (enter name pos))
    (henter : ∀ name pos, FindsFirst (Tree.choices g) (offeredTrees g tokens calls name pos)
      (enter name pos)) (symbols : List Symbol) (pos : Nat) :
    FindsFirst (Tree.choicesOf g) (offeredForests g tokens calls symbols pos)
      (matchSequence limits tokens enter symbols pos) := by
  induction symbols generalizing pos with
  | nil =>
    intro next p q tree h
    refine ⟨pos, [], p, ⟨rfl, .nil⟩, h, fun stop' us offered before => ?_⟩
    rw [List.map_eq_nil_iff.1 offered.1] at before
    exact absurd before (lt_irrefl _)
  | cons a symbols ih =>
    cases a with
    | terminal kind => exact matchSequence_first_terminal kind (ih (pos + 1))
    | nonterminal name =>
      exact matchSequence_first_nonterminal (henter name pos)
        (matchSequence_explores limits explores symbols) ih

end Sequence

theorem matchNonterminal_first (ceiling : Nat) (calls : List Call) (depth : Nat) (name : String)
    (pos : Nat) : FindsFirst (Tree.choices g) (offeredTrees g tokens calls name pos)
      (matchNonterminal g limits tokens ceiling calls depth name pos) := by
  induction ceiling generalizing calls depth name pos with
  | zero =>
    intro next p q tree h
    cases h
  | succ ceiling ih =>
    have explores (inner : String) (pos' : Nat) :
        Explores (offeredTrees g tokens (⟨pos, name⟩ :: calls) inner pos')
          (matchNonterminal g limits tokens ceiling (⟨pos, name⟩ :: calls)
            (depthBelow g depth inner) inner pos') :=
      matchNonterminal_explores ceiling (⟨pos, name⟩ :: calls) (depthBelow g depth inner) inner pos'
    have sequence := matchSequence_first limits explores
      fun inner pos' => ih (⟨pos, name⟩ :: calls) (depthBelow g depth inner) inner pos'
    intro next p q tree h
    rw [matchNonterminal] at h
    split at h
    · cases h
    · next room =>
      split at h
      · cases h
      · obtain ⟨before, alt, after, declared, refused, p₁, h⟩ := tryEach_eq_found h
        obtain ⟨stop, children, p₂, offered, hnext, earlier⟩ := sequence alt pos _ _ _ _ h
        have halt : alt ∈ g.alternatives name :=
          declared ▸ List.mem_append_right _ List.mem_cons_self
        refine ⟨stop, .node name children, p₂, ?_, hnext, fun stop' u offered' first => ?_⟩
        · exact offeredTrees_iff.2 ⟨by omega, alt, halt, children, rfl, offered⟩
        · obtain ⟨-, other, hother, us, rfl, below⟩ := offeredTrees_iff.1 offered'
          rw [Tree.choices, Tree.choices, offered.1, below.1, List.cons_lt_cons_iff] at first
          rcases first with place | ⟨place, behind⟩
          · -- an alternative in front of the one that was taken has failed
            rw [declared] at place
            obtain ⟨p₃, q₃, failed⟩ := refused other (mem_of_idxOf_lt place)
            exact (matchSequence_explores limits explores other pos).of_failed failed stop' us
              below
          · obtain rfl := (List.idxOf_inj hother).1 place
            exact earlier stop' us below behind

/-- The tree that a search finds is admitted, and no admitted tree of the tokens comes before it. -/
theorem search_first {ceiling : Nat} {start : String} {tree : Tree} {q : Progress}
    (h : search ceiling g limits tokens = .found tree q) (hstart : g.start = some start) :
    offeredTrees g tokens [] start 0 tokens.size tree ∧
      ∀ u, offeredTrees g tokens [] start 0 tokens.size u → u ≠ tree →
        tree.choices g < u.choices g := by
  rw [search, hstart] at h
  obtain ⟨stop, t, p, offered, hfinish, earlier⟩ :=
    matchNonterminal_first ceiling [] 0 start 0 _ _ _ _ h
  obtain ⟨rfl, rfl⟩ := finish_eq_found hfinish
  refine ⟨offered, fun u offered' other => ?_⟩
  rcases lt_trichotomy (t.choices g) (u.choices g) with before | same | behind
  · exact before
  · have whole : Tree.choicesOf g [u] ++ [] = Tree.choicesOf g [t] ++ [] := by
      simp [Tree.choicesOf, same]
    have symbol : u.symbol = t.symbol := offered'.1.trans offered.1.symm
    obtain ⟨trees, -⟩ := offered.2.eq_of_choices offered'.2 (congrArg (· :: []) symbol) whole
    exact absurd (List.cons.inj trees).1 other
  · obtain ⟨p', q', failed⟩ := earlier _ u offered' behind
    rw [finish, if_pos rfl] at failed
    cases failed

end Backtracking

namespace BacktrackingParser

open Backtracking (Curtailed)

variable {g : Grammar} {parser : BacktrackingParser} {ceiling : Nat} {limits : Limits}

/-- What the parser returns is the first of the derivation trees of the tokens that are curtailed,
when they are compared by their choices. In a grammar without left recursion this is the first of
all derivation trees. -/
theorem parseBelow_first {tokens : List Token} {tree : Tree} (built : ofGrammar g = .ok parser)
    (returned : parser.parseBelow ceiling limits tokens = .ok tree) :
    ∃ start, g.start = some start ∧
      tree ∈ derivationTrees g start tokens ∧ Curtailed tokens tree ∧
      (∀ u ∈ derivationTrees g start tokens, Curtailed tokens u → u ≠ tree →
        tree.choices g < u.choices g) ∧
      (g.leftRecursive = [] → ∀ u ∈ derivationTrees g start tokens,
        Curtailed tokens u ∧ (u ≠ tree → tree.choices g < u.choices g)) := by
  obtain ⟨valid, rfl⟩ := ofGrammar_eq_ok built
  obtain ⟨start, hstart, -⟩ := Grammar.exists_start_of_validate valid
  obtain ⟨q, found⟩ := Backtracking.result_eq_ok returned
  obtain ⟨⟨symbol, admitted⟩, earliest⟩ := Backtracking.search_first found hstart
  obtain ⟨derivation, leaves, curtailed⟩ := Backtracking.admitted_iff.1 admitted
  have first : ∀ u ∈ derivationTrees g start tokens, Curtailed tokens u → u ≠ tree →
      tree.choices g < u.choices g := by
    rintro u ⟨derivation, symbol, leaves⟩ curtailed other
    exact earliest u ⟨symbol, Backtracking.admitted_iff.2 ⟨derivation, leaves, curtailed⟩⟩ other
  refine ⟨start, hstart, ⟨derivation, symbol, leaves⟩, curtailed, first, ?_⟩
  intro acyclic u hu
  have free := Backtracking.curtailed_of_not_leftRecursive acyclic hu.1 tokens
  exact ⟨free, first u hu free⟩

/-- Returns inside returns; a semicolon can end any of them. -/
def endings : Grammar :=
  .assemble (some "s")
    [("s", [[.terminal .returnWord, .nonterminal "s", .terminal .semicolon],
       [.terminal .returnWord, .nonterminal "s"], [.terminal .identifier]])] []

/-- The tokens of `return return x ;`. -/
def endingsTokens : List Token :=
  [⟨.returnWord, some "return", ⟨0, 1, 1⟩⟩, ⟨.returnWord, some "return", ⟨7, 1, 8⟩⟩,
   ⟨.identifier, some "x", ⟨14, 1, 15⟩⟩, ⟨.semicolon, some ";", ⟨16, 1, 17⟩⟩]

/-- The semicolon ends the outer return. -/
def endingsOutside : Tree :=
  .node "s" [.leaf ⟨.returnWord, some "return", ⟨0, 1, 1⟩⟩,
    .node "s" [.leaf ⟨.returnWord, some "return", ⟨7, 1, 8⟩⟩,
      .node "s" [.leaf ⟨.identifier, some "x", ⟨14, 1, 15⟩⟩]],
    .leaf ⟨.semicolon, some ";", ⟨16, 1, 17⟩⟩]

/-- The semicolon ends the inner return. -/
def endingsInside : Tree :=
  .node "s" [.leaf ⟨.returnWord, some "return", ⟨0, 1, 1⟩⟩,
    .node "s" [.leaf ⟨.returnWord, some "return", ⟨7, 1, 8⟩⟩,
      .node "s" [.leaf ⟨.identifier, some "x", ⟨14, 1, 15⟩⟩],
      .leaf ⟨.semicolon, some ";", ⟨16, 1, 17⟩⟩]]

theorem parseBelow_first_endings :
    ∃ parser, ofGrammar endings = .ok parser ∧
      parser.parse .standard endingsTokens = .ok endingsOutside ∧ endings.leftRecursive = [] ∧
      endingsInside ∈ derivationTrees endings "s" endingsTokens ∧
      endingsOutside.choices endings < endingsInside.choices endings := by
  have built : ofGrammar endings = .ok ⟨endings⟩ := by rfl
  have returned : parse ⟨endings⟩ .standard endingsTokens = .ok endingsOutside := by rfl
  have acyclic : endings.leftRecursive = [] := by decide +kernel
  have name : Tree.IsDerivation endings
      (.node "s" [.leaf ⟨.identifier, some "x", ⟨14, 1, 15⟩⟩]) :=
    .node (by decide) (by simp [Tree.IsDerivation.leaf])
  have ended : Tree.IsDerivation endings
      (.node "s" [.leaf ⟨.returnWord, some "return", ⟨7, 1, 8⟩⟩,
        .node "s" [.leaf ⟨.identifier, some "x", ⟨14, 1, 15⟩⟩],
        .leaf ⟨.semicolon, some ";", ⟨16, 1, 17⟩⟩]) :=
    .node (by decide) (by simp [Tree.IsDerivation.leaf, name])
  have inside : endingsInside ∈ derivationTrees endings "s" endingsTokens :=
    ⟨.node (by decide) (by simp [Tree.IsDerivation.leaf, ended]), rfl, rfl⟩
  obtain ⟨start, hstart, -, -, -, first⟩ := parseBelow_first built returned
  cases hstart
  refine ⟨_, built, returned, acyclic, inside, (first acyclic _ inside).2 ?_⟩
  intro same
  simp [endingsInside, endingsOutside] at same

end BacktrackingParser

end TopDown
