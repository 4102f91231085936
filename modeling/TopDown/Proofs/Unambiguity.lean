import TopDown.Proofs.Predictive

/-
  A grammar without conflicts is unambiguous.

  Two derivation trees of one nonterminal that begin at the same token are the same tree, wherever
  they end, as long as each of them ends where the tokens go on as the nonterminal awaits
  (`determined_of_isDerivation`). Both of their alternatives are candidates on the next kind, so
  it is one alternative; and inside it each child again ends where the tokens go on as awaited,
  because the children after it derive what comes.
-/

namespace TopDown

open PredictiveParser (Awaited awaited_inside awaited_end candidate_of_derivation)

variable {g : Grammar} {tokens : List Token}

/-- No other derivation tree of the same nonterminal begins at the same token, when both end where
the tokens go on as awaited. -/
def Determined (g : Grammar) (tokens : List Token) (t : Tree) : Prop :=
  ∀ (u : Tree) (name : String) (pos stop stop' : Nat), u.IsDerivation g →
    t.symbol = .nonterminal name → u.symbol = .nonterminal name →
    Segment tokens pos stop t.leaves → Segment tokens pos stop' u.leaves →
    Awaited g (tokens.map Token.kind) name stop → Awaited g (tokens.map Token.kind) name stop' →
    t = u

/-- The words of trees for the last symbols of an alternative. -/
theorem wordOf_mem_language_of_derivations {ts : List Tree} (h : ∀ t ∈ ts, t.IsDerivation g) :
    Tree.wordOf ts ∈ Alternative.language g.language (ts.map Tree.symbol) :=
  Tree.wordOf_mem_language fun t ht => (h t ht).mem_language

/-- Determined trees for the last symbols of an alternative are the only ones. -/
theorem forest_determined {owner : String} {before : Alternative} {ts us : List Tree}
    {pos stop stop' : Nat} (single : ∀ t ∈ ts, Determined g tokens t)
    (derivT : ∀ t ∈ ts, t.IsDerivation g) (derivU : ∀ u ∈ us, u.IsDerivation g)
    (halt : before ++ ts.map Tree.symbol ∈ g.alternatives owner)
    (same : us.map Tree.symbol = ts.map Tree.symbol)
    (segT : Segment tokens pos stop (Tree.leavesOf ts))
    (segU : Segment tokens pos stop' (Tree.leavesOf us))
    (awaitedT : Awaited g (tokens.map Token.kind) owner stop)
    (awaitedU : Awaited g (tokens.map Token.kind) owner stop') : ts = us := by
  induction ts generalizing us pos before with
  | nil => exact (List.map_eq_nil_iff.1 same).symm
  | cons t ts ih =>
    cases us with
    | nil => cases same
    | cons u us =>
      obtain ⟨symbol, symbols⟩ := List.cons.inj same
      rw [List.forall_mem_cons] at single derivT derivU
      rw [Tree.leavesOf, segment_append] at segT segU
      obtain ⟨mid, segT, restT⟩ := segT
      obtain ⟨mid', segU, restU⟩ := segU
      have first : t = u := by
        cases ht : t.symbol with
        | terminal kind =>
          rw [ht] at symbol
          cases t with
          | node name children => cases ht
          | leaf token =>
            cases u with
            | node name children => cases symbol
            | leaf token' =>
              rw [Tree.leaves, segment_cons] at segT segU
              rw [Option.some.inj (segT.1.symm.trans segU.1)]
        | nonterminal name =>
          rw [List.map_cons, ht] at halt
          have wordT := wordOf_mem_language_of_derivations derivT.2
          have wordU := wordOf_mem_language_of_derivations derivU.2
          rw [symbols] at wordU
          exact single.1 u name pos mid mid' derivU.1 ht (symbol.trans ht) segT segU
            (awaited_inside halt wordT (restT.map Token.kind) awaitedT)
            (awaited_inside halt wordU (restU.map Token.kind) awaitedU)
      subst first
      obtain rfl : mid = mid' := segT.2.symm.trans segU.2
      have shifted : (before ++ [t.symbol]) ++ ts.map Tree.symbol ∈ g.alternatives owner := by
        rwa [List.append_assoc]
      rw [ih single.2 derivT.2 derivU.2 shifted symbols restT restU]

/-- Without conflicts every derivation tree is determined. -/
theorem determined_of_isDerivation (quiet : g.conflicts = []) {t : Tree} (h : t.IsDerivation g) :
    Determined g tokens t := by
  induction h with
  | leaf token =>
    intro u name pos stop stop' _ symbol
    cases symbol
  | @node name children alt below ih =>
    intro u name' pos stop stop' hu symbol symbolU segT segU awaitedT awaitedU
    cases hu with
    | leaf token => cases symbolU
    | @node _ childrenU altU belowU =>
      cases symbol
      cases symbolU
      rw [Tree.leaves] at segT segU
      obtain ⟨i, hi⟩ := List.getElem?_of_mem alt
      obtain ⟨j, hj⟩ := List.getElem?_of_mem altU
      have candidateT := candidate_of_derivation hi (wordOf_mem_language_of_derivations below)
        (segT.map Token.kind) awaitedT
      have candidateU := candidate_of_derivation hj (wordOf_mem_language_of_derivations belowU)
        (segU.map Token.kind) awaitedU
      obtain rfl := DecisionTable.candidates_unique quiet candidateT candidateU
      have same := Option.some.inj (hj.symm.trans hi)
      have whole : [] ++ children.map Tree.symbol ∈ g.alternatives name := alt
      rw [forest_determined ih below belowU whole same segT segU awaitedT awaitedU]

/-- Without conflicts, tokens have at most one derivation tree. -/
theorem derivation_unique (quiet : g.conflicts = []) {name : String} {t u : Tree}
    (ht : t.IsDerivation g) (hu : u.IsDerivation g) (symbolT : t.symbol = .nonterminal name)
    (symbolU : u.symbol = .nonterminal name) (leavesT : t.leaves = tokens)
    (leavesU : u.leaves = tokens) : t = u := by
  have ended := awaited_end g tokens name
  exact determined_of_isDerivation quiet ht u name 0 tokens.length tokens.length hu symbolT symbolU
    (segment_whole.2 leavesT) (segment_whole.2 leavesU) ended ended

end TopDown
