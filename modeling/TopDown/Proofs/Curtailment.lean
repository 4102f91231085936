import TopDown.Parsing.Backtracking
import TopDown.Proofs.DerivationTree

/-
  Which trees the bound on open calls leaves to the backtracking parser, and that it leaves enough.

  A nonterminal is not entered at a position at which it is already open more often than there are
  tokens left, and once more. `Admitted` describes the trees that never break this rule. Every word
  has such a tree (`exists_admitted`): along a derivation with as few replacements as possible, the
  open calls of one nonterminal at one position end at different places, because two that end at
  the same place would cover the same word and the part between them could be left out. There are
  only as many places as there are tokens left, and one more.
-/

namespace TopDown.Backtracking

open Grammar (Unfolds)

/-- Trees that cover the tokens between two positions one after the other, each node over one of
its alternatives and entered while there is room for it among the open calls. -/
inductive Admitted (g : Grammar) (tokens : Array Token) : List Call → List Tree → Nat → Nat → Prop
  where
  | nil {calls : List Call} {pos : Nat} : Admitted g tokens calls [] pos pos
  | leaf {calls : List Call} {token : Token} {ts : List Tree} {pos stop : Nat}
      (here : tokens[pos]? = some token) (rest : Admitted g tokens calls ts (pos + 1) stop) :
      Admitted g tokens calls (.leaf token :: ts) pos stop
  | node {calls : List Call} {name : String} {children ts : List Tree} {pos mid stop : Nat}
      (room : calls.count ⟨pos, name⟩ < tokens.size - pos + 1)
      (alt : children.map Tree.symbol ∈ g.alternatives name)
      (below : Admitted g tokens (⟨pos, name⟩ :: calls) children pos mid)
      (rest : Admitted g tokens calls ts mid stop) :
      Admitted g tokens calls (.node name children :: ts) pos stop

variable {g : Grammar} {tokens : Array Token} {calls : List Call} {name : String}
  {pos mid stop : Nat}

/-- Every node stands over an alternative. -/
theorem Admitted.isDerivation {ts : List Tree} (h : Admitted g tokens calls ts pos stop) :
    ∀ t ∈ ts, t.IsDerivation g := by
  induction h with
  | nil => simp
  | leaf here rest ih =>
    rw [List.forall_mem_cons]
    exact ⟨.leaf _, ih⟩
  | node room alt below rest ihBelow ih =>
    rw [List.forall_mem_cons]
    exact ⟨.node alt ihBelow, ih⟩

/-- The leaves are the tokens between the two positions. -/
theorem Admitted.segment {ts : List Tree} (h : Admitted g tokens calls ts pos stop) :
    Segment tokens.toList pos stop (Tree.leavesOf ts) := by
  induction h with
  | nil => exact segment_nil.2 rfl
  | leaf here rest ih =>
    rw [Tree.leavesOf, Tree.leaves, List.singleton_append, segment_cons, Array.getElem?_toList]
    exact ⟨here, ih⟩
  | node room alt below rest ihBelow ih =>
    rw [Tree.leavesOf, Tree.leaves]
    exact segment_append.2 ⟨_, ihBelow, ih⟩

theorem Admitted.append {ts us : List Tree} (h₁ : Admitted g tokens calls ts pos mid)
    (h₂ : Admitted g tokens calls us mid stop) : Admitted g tokens calls (ts ++ us) pos stop := by
  induction h₁ with
  | nil => exact h₂
  | leaf here rest ih => exact .leaf here (ih h₂)
  | node room alt below rest _ ih => exact .node room alt below (ih h₂)

/-- The first of several trees ends where the others begin. -/
theorem Admitted.uncons {t : Tree} {ts : List Tree}
    (h : Admitted g tokens calls (t :: ts) pos stop) :
    ∃ mid, Admitted g tokens calls [t] pos mid ∧ Admitted g tokens calls ts mid stop := by
  cases h with
  | leaf here rest => exact ⟨pos + 1, .leaf here .nil, rest⟩
  | node room alt below rest => exact ⟨_, .node room alt below .nil, rest⟩

/-! ## Room among the open calls -/

/-- Every open call ends no earlier than `stop`, at a place that its open copies have not used up,
and takes more than `n` replacements. -/
def Roomy (g : Grammar) (kinds : List Kind) (calls : List Call) (stop n : Nat) : Prop :=
  ∀ c ∈ calls, ∃ place, stop ≤ place ∧ calls.count c + place ≤ kinds.length + 1 ∧
    ∀ m u, Segment kinds c.pos place u → g.Unfolds m [.nonterminal c.name] u → n < m

variable {kinds : List Kind} {n m : Nat} {w : List Kind}

theorem Roomy.mono (h : Roomy g kinds calls stop n) (hmid : mid ≤ stop) (hm : m ≤ n) :
    Roomy g kinds calls mid m := by
  intro c hc
  obtain ⟨place, hstop, hcount, longer⟩ := h c hc
  refine ⟨place, by omega, hcount, ?_⟩
  intro k u hu hk
  have := longer k u hu hk
  omega

/-- A call that takes few replacements ends strictly before its open copies. -/
theorem Roomy.count_add_le (h : Roomy g kinds calls stop n) (hw : Segment kinds pos stop w)
    (hn : g.Unfolds n [.nonterminal name] w) (hstop : stop ≤ kinds.length) :
    calls.count ⟨pos, name⟩ + stop ≤ kinds.length := by
  by_cases hc : ⟨pos, name⟩ ∈ calls
  · obtain ⟨place, hle, hcount, longer⟩ := h _ hc
    have apart : stop ≠ place := by
      rintro rfl
      exact Nat.lt_irrefl n (longer n w hw hn)
    omega
  · rw [List.count_eq_zero.2 hc]
    omega

/-- Entering a call that takes no more replacements than necessary. -/
theorem Roomy.push (h : Roomy g kinds calls stop n)
    (room : calls.count ⟨pos, name⟩ + stop ≤ kinds.length)
    (least : ∀ m u, Segment kinds pos stop u → g.Unfolds m [.nonterminal name] u → n ≤ m)
    (hmn : m < n) : Roomy g kinds (⟨pos, name⟩ :: calls) stop m := by
  intro c hc
  by_cases same : c = ⟨pos, name⟩
  · subst same
    rw [List.count_cons_self]
    refine ⟨stop, Nat.le_refl stop, by omega, ?_⟩
    intro k u hu hk
    have := least k u hu hk
    omega
  · have known : c ∈ calls := (List.mem_cons.1 hc).resolve_left same
    rw [List.count_cons_of_ne (Ne.symm same)]
    exact h.mono (Nat.le_refl stop) (Nat.le_of_lt hmn) c known

/-! ## Every word has an admitted tree -/

/-- Trees for a list of symbols from trees for its nonterminals. -/
theorem exists_admitted_forest {s : List Symbol}
    (single : ∀ name i pos mid u, i ≤ n → mid ≤ stop → g.Unfolds i [.nonterminal name] u →
      Segment (tokens.toList.map Token.kind) pos mid u →
      ∃ children, Admitted g tokens calls [.node name children] pos mid)
    (hm : m ≤ n) (hs : g.Unfolds m s w) (hw : Segment (tokens.toList.map Token.kind) pos stop w) :
    ∃ ts, ts.map Tree.symbol = s ∧ Admitted g tokens calls ts pos stop := by
  induction s generalizing m w pos with
  | nil =>
    cases hs
    rw [segment_nil] at hw
    exact ⟨[], rfl, hw ▸ .nil⟩
  | cons a s ih =>
    cases a with
    | terminal kind =>
      cases hs with
      | terminal hs =>
        rw [segment_cons, List.getElem?_map, Array.getElem?_toList, Option.map_eq_some_iff] at hw
        obtain ⟨⟨token, here, rfl⟩, hw⟩ := hw
        obtain ⟨ts, rfl, hts⟩ := ih hm hs hw
        exact ⟨.leaf token :: ts, rfl, .leaf here hts⟩
    | nonterminal name =>
      obtain ⟨i, j, u, v, hij, rfl, hname, hrest⟩ := Unfolds.split (s := [.nonterminal name]) hs
      obtain ⟨mid, hu, hv⟩ := segment_append.1 hw
      obtain ⟨children, hnode⟩ := single name i pos mid u (by omega) hv.le hname hu
      obtain ⟨ts, rfl, hts⟩ := ih (by omega) hrest hv
      exact ⟨.node name children :: ts, rfl, hnode.append hts⟩

/-- A word that a nonterminal derives has an admitted tree, inside any open calls that are longer
than its derivation. -/
theorem exists_admitted (hn : g.Unfolds n [.nonterminal name] w)
    (hw : Segment (tokens.toList.map Token.kind) pos stop w) (hstop : stop ≤ tokens.size)
    (roomy : Roomy g (tokens.toList.map Token.kind) calls stop n) :
    ∃ children, Admitted g tokens calls [.node name children] pos stop := by
  induction n using Nat.strong_induction_on generalizing name w pos stop calls with
  | _ n ih =>
    have hsize : (tokens.toList.map Token.kind).length = tokens.size := by simp
    by_cases shorter : ∃ m < n, g.Unfolds m [.nonterminal name] w
    · obtain ⟨m, hm, hunfolds⟩ := shorter
      exact ih m hm hunfolds hw hstop (roomy.mono (Nat.le_refl stop) (Nat.le_of_lt hm))
    · have least : ∀ m u, Segment (tokens.toList.map Token.kind) pos stop u →
          g.Unfolds m [.nonterminal name] u → n ≤ m := by
        intro m u hu hm
        rw [hu.unique hw] at hm
        exact Nat.le_of_not_lt fun hlt => shorter ⟨m, hlt, hm⟩
      have room := roomy.count_add_le hw hn (by omega)
      cases hn with
      | @nonterminal k _ alt _ _ halt hk =>
        rw [List.append_nil] at hk
        -- the children are admitted inside the open calls and this one
        have single : ∀ inner i pos' mid u, i ≤ k → mid ≤ stop →
            g.Unfolds i [.nonterminal inner] u →
            Segment (tokens.toList.map Token.kind) pos' mid u →
            ∃ children, Admitted g tokens (⟨pos, name⟩ :: calls) [.node inner children] pos' mid := by
          intro inner i pos' mid u hi hmid hu hseg
          have pushed := roomy.push room least (Nat.lt_succ_of_le hi)
          exact ih i (by omega) hu hseg (by omega) (pushed.mono hmid (Nat.le_refl i))
        obtain ⟨children, rfl, below⟩ := exists_admitted_forest single (Nat.le_refl k) hk hw
        have := hw.le
        exact ⟨children, .node (by omega) halt below .nil⟩

end TopDown.Backtracking
