import TopDown.Proofs.Curtailment

/-
  What the backtracking parser tries.

  A match hands its results to a continuation. `Explores offers run` says which results these are:
  a tree is found only through one of the offered results, and a failure means that the
  continuation has refused every one of them. Matching a nonterminal explores exactly the admitted
  trees (`matchNonterminal_explores`).
-/

namespace TopDown.Backtracking

variable {α : Type} {g : Grammar} {limits : Limits} {tokens : Array Token} {calls : List Call}
  {name : String} {pos stop : Nat}

/-- The continuation is called with the offered results only, and with all of them before the
search fails. -/
structure Explores (offers : Nat → α → Prop) (run : Continuation α → Progress → Outcome) : Prop
    where
  of_found {next : Continuation α} {p q : Progress} {tree : Tree} :
    run next p = .found tree q →
      ∃ stop value p', offers stop value ∧ next stop value p' = .found tree q
  of_failed {next : Continuation α} {p q : Progress} :
    run next p = .failed q →
      ∀ stop value, offers stop value → ∃ p' q', next stop value p' = .failed q'

theorem tick_eq_found {p q : Progress} {next : Progress → Outcome} {tree : Tree}
    (h : tick limits pos p next = .found tree q) :
    next { p with steps := p.steps + 1 } = .found tree q := by
  unfold tick at h
  split at h
  · cases h
  · exact h

theorem tick_eq_failed {p q : Progress} {next : Progress → Outcome}
    (h : tick limits pos p next = .failed q) :
    next { p with steps := p.steps + 1 } = .failed q := by
  unfold tick at h
  split at h
  · cases h
  · exact h

/-- What is found is found by the first that does not fail. -/
theorem tryEach_eq_found {attempt : α → Progress → Outcome} {l : List α} {p q : Progress}
    {tree : Tree} (h : tryEach attempt l p = .found tree q) :
    ∃ before a after, l = before ++ a :: after ∧
      (∀ b ∈ before, ∃ p' q', attempt b p' = .failed q') ∧ ∃ p', attempt a p' = .found tree q := by
  induction l generalizing p with
  | nil => cases h
  | cons a l ih =>
    rw [tryEach] at h
    split at h
    · next p₁ hp₁ =>
      obtain ⟨before, b, after, rfl, refused, found⟩ := ih h
      exact ⟨a :: before, b, after, rfl, List.forall_mem_cons.2 ⟨⟨p, p₁, hp₁⟩, refused⟩, found⟩
    · exact ⟨[], a, l, rfl, fun b hb => absurd hb List.not_mem_nil, p, h⟩

theorem tryEach_eq_failed {attempt : α → Progress → Outcome} {l : List α} {p q : Progress}
    (h : tryEach attempt l p = .failed q) : ∀ a ∈ l, ∃ p' q', attempt a p' = .failed q' := by
  induction l generalizing p with
  | nil => simp
  | cons a l ih =>
    rw [tryEach] at h
    split at h
    · next p₁ hp₁ =>
      rw [List.forall_mem_cons]
      exact ⟨⟨p, p₁, hp₁⟩, ih h⟩
    · next refused => exact absurd h (refused q)

/-- The results of a list of symbols: trees for them, one after the other. -/
def offeredForests (g : Grammar) (tokens : Array Token) (calls : List Call) (s : List Symbol)
    (pos stop : Nat) (ts : List Tree) : Prop :=
  ts.map Tree.symbol = s ∧ Admitted g tokens calls ts pos stop

/-- The results of a nonterminal. -/
def offeredTrees (g : Grammar) (tokens : Array Token) (calls : List Call) (name : String)
    (pos stop : Nat) (t : Tree) : Prop :=
  t.symbol = .nonterminal name ∧ Admitted g tokens calls [t] pos stop

theorem offeredForests_terminal {kind : Kind} {s : List Symbol} {ts : List Tree} :
    offeredForests g tokens calls (.terminal kind :: s) pos stop ts ↔
      ∃ token rest, ts = .leaf token :: rest ∧ token.kind = kind ∧ tokens[pos]? = some token ∧
        offeredForests g tokens calls s (pos + 1) stop rest := by
  constructor
  · rintro ⟨symbols, h⟩
    cases h with
    | nil => simp at symbols
    | leaf here rest =>
      simp only [List.map_cons, Tree.symbol, List.cons.injEq, Symbol.terminal.injEq] at symbols
      exact ⟨_, _, rfl, symbols.1, here, symbols.2, rest⟩
    | node => simp [Tree.symbol] at symbols
  · rintro ⟨token, rest, rfl, rfl, here, rfl, h⟩
    exact ⟨rfl, .leaf here h⟩

theorem offeredForests_nonterminal {s : List Symbol} {ts : List Tree} :
    offeredForests g tokens calls (.nonterminal name :: s) pos stop ts ↔
      ∃ mid t rest, ts = t :: rest ∧ offeredTrees g tokens calls name pos mid t ∧
        offeredForests g tokens calls s mid stop rest := by
  constructor
  · rintro ⟨symbols, h⟩
    cases ts with
    | nil => simp at symbols
    | cons t ts =>
      obtain ⟨mid, first, rest⟩ := h.uncons
      obtain ⟨symbol, symbols⟩ := List.cons.inj symbols
      exact ⟨mid, t, ts, rfl, ⟨symbol, first⟩, symbols, rest⟩
  · rintro ⟨mid, t, rest, rfl, ⟨symbol, first⟩, symbols, h⟩
    exact ⟨by rw [List.map_cons, symbol, symbols], first.append h⟩

section Sequence

variable {enter : String → Nat → Continuation Tree → Progress → Outcome} {symbols : List Symbol}

theorem matchSequence_explores_terminal (kind : Kind)
    (rest : Explores (offeredForests g tokens calls symbols (pos + 1))
      (matchSequence limits tokens enter symbols (pos + 1))) :
    Explores (offeredForests g tokens calls (.terminal kind :: symbols) pos)
      (matchSequence limits tokens enter (.terminal kind :: symbols) pos) := by
  refine ⟨?_, ?_⟩
  · intro next p q tree h
    rw [matchSequence] at h
    replace h := tick_eq_found h
    split at h
    · next token here =>
      split at h
      · next same =>
        obtain ⟨stop, ts, p₂, offered, hnext⟩ := rest.of_found h
        refine ⟨stop, .leaf token :: ts, p₂, ?_, hnext⟩
        exact offeredForests_terminal.2 ⟨token, ts, rfl, same, here, offered⟩
      · cases h
    · cases h
  · intro next p q h stop ts offered
    rw [offeredForests_terminal] at offered
    obtain ⟨token, ts, rfl, same, here, offered⟩ := offered
    rw [matchSequence] at h
    replace h := tick_eq_failed h
    simp only [here, same, if_true] at h
    exact rest.of_failed h stop ts offered

theorem matchSequence_explores_nonterminal
    (first : Explores (offeredTrees g tokens calls name pos) (enter name pos))
    (rest : ∀ mid, Explores (offeredForests g tokens calls symbols mid)
      (matchSequence limits tokens enter symbols mid)) :
    Explores (offeredForests g tokens calls (.nonterminal name :: symbols) pos)
      (matchSequence limits tokens enter (.nonterminal name :: symbols) pos) := by
  refine ⟨?_, ?_⟩
  · intro next p q tree h
    rw [matchSequence] at h
    replace h := tick_eq_found h
    obtain ⟨mid, t, p₂, offered, h⟩ := first.of_found h
    obtain ⟨stop, ts, p₃, offeredRest, hnext⟩ := (rest mid).of_found h
    refine ⟨stop, t :: ts, p₃, ?_, hnext⟩
    exact offeredForests_nonterminal.2 ⟨mid, t, ts, rfl, offered, offeredRest⟩
  · intro next p q h stop ts offered
    rw [offeredForests_nonterminal] at offered
    obtain ⟨mid, t, ts, rfl, offered, offeredRest⟩ := offered
    rw [matchSequence] at h
    replace h := tick_eq_failed h
    obtain ⟨p₂, q₂, h⟩ := first.of_failed h mid t offered
    exact (rest mid).of_failed h stop ts offeredRest

theorem matchSequence_explores (limits : Limits)
    (henter : ∀ name pos, Explores (offeredTrees g tokens calls name pos) (enter name pos))
    (symbols : List Symbol) (pos : Nat) :
    Explores (offeredForests g tokens calls symbols pos)
      (matchSequence limits tokens enter symbols pos) := by
  induction symbols generalizing pos with
  | nil =>
    refine ⟨?_, ?_⟩
    · intro next p q tree h
      exact ⟨pos, [], p, ⟨rfl, .nil⟩, h⟩
    · intro next p q h stop ts offered
      obtain ⟨symbols, hts⟩ := offered
      rw [List.map_eq_nil_iff] at symbols
      subst symbols
      cases hts
      exact ⟨p, q, h⟩
  | cons a symbols ih =>
    cases a with
    | terminal kind => exact matchSequence_explores_terminal kind (ih (pos + 1))
    | nonterminal name => exact matchSequence_explores_nonterminal (henter name pos) ih

end Sequence

/-- A node is offered over the trees that are offered for one of its alternatives, when there is
room for the call. -/
theorem offeredTrees_iff {t : Tree} :
    offeredTrees g tokens calls name pos stop t ↔
      calls.count ⟨pos, name⟩ < tokens.size - pos + 1 ∧
        ∃ alt ∈ g.alternatives name, ∃ children, t = .node name children ∧
          offeredForests g tokens (⟨pos, name⟩ :: calls) alt pos stop children := by
  constructor
  · rintro ⟨symbol, h⟩
    cases h with
    | leaf => cases symbol
    | node room alt below rest =>
      cases rest
      obtain rfl := Symbol.nonterminal.inj symbol
      exact ⟨room, _, alt, _, rfl, rfl, below⟩
  · rintro ⟨room, alt, halt, children, rfl, rfl, below⟩
    exact ⟨rfl, .node room halt below .nil⟩

theorem matchNonterminal_explores (ceiling : Nat) (calls : List Call) (depth : Nat)
    (name : String) (pos : Nat) :
    Explores (offeredTrees g tokens calls name pos)
      (matchNonterminal g limits tokens ceiling calls depth name pos) := by
  induction ceiling generalizing calls depth name pos with
  | zero =>
    refine ⟨?_, ?_⟩
    · intro next p q tree h
      cases h
    · intro next p q h
      cases h
  | succ ceiling ih =>
    have sequence := fun alt => matchSequence_explores limits
      (fun inner pos' => ih (⟨pos, name⟩ :: calls) (depthBelow g depth inner) inner pos') alt pos
    refine ⟨?_, ?_⟩
    · intro next p q tree h
      rw [matchNonterminal] at h
      split at h
      · cases h
      · next room =>
        split at h
        · cases h
        · obtain ⟨before, alt, after, split, -, p₁, h⟩ := tryEach_eq_found h
          have halt : alt ∈ g.alternatives name := split ▸ List.mem_append_right _ List.mem_cons_self
          obtain ⟨stop, children, p₂, offered, hnext⟩ := (sequence alt).of_found h
          refine ⟨stop, .node name children, p₂, ?_, hnext⟩
          exact offeredTrees_iff.2 ⟨by omega, alt, halt, children, rfl, offered⟩
    · intro next p q h stop t offered
      rw [offeredTrees_iff] at offered
      obtain ⟨room, alt, halt, children, rfl, offered⟩ := offered
      rw [matchNonterminal] at h
      split at h
      · omega
      · split at h
        · cases h
        · obtain ⟨p₁, q₁, h⟩ := tryEach_eq_failed h alt halt
          exact (sequence alt).of_failed h stop children offered

end TopDown.Backtracking
