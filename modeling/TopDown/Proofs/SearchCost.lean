import TopDown.Parsing.Backtracking
import TopDown.Proofs.Rules

/-
  How long the backtracking parser searches.

  The search is finite because entering a call uses up room: `room` adds up how often each call may
  still be opened, and no call is entered without making it smaller. `callCost` turns the room into
  a number of steps (`matchNonterminal_bounded`).
-/

namespace TopDown.Backtracking

variable {α : Type} {g : Grammar} {limits : Limits} {tokens : Array Token} {calls : List Call}
  {name : String} {pos stop : Nat}

/-! ## Steps of the parts -/

/-- The search ends within a number of steps, unless the limits leave it fewer. -/
def Bounded (limits : Limits) (cost : Nat) (run : Progress → Outcome) : Prop :=
  ∀ p, p.steps + cost ≤ limits.maxSteps →
    (∀ limit, run p ≠ .exhausted limit) ∧ ∀ q, run p = .failed q → q.steps ≤ p.steps + cost

theorem Bounded.mono {cost more : Nat} {run : Progress → Outcome} (h : Bounded limits cost run)
    (hle : cost ≤ more) : Bounded limits more run := by
  intro p hp
  obtain ⟨ends, steps⟩ := h p (by omega)
  refine ⟨ends, ?_⟩
  intro q hq
  have := steps q hq
  omega

theorem bounded_failed {run : Progress → Progress} (h : ∀ p, (run p).steps = p.steps) :
    Bounded limits 0 fun p => .failed (run p) := by
  intro p _
  refine ⟨?_, ?_⟩
  · intro limit h
    cases h
  · rintro q ⟨⟩
    exact Nat.le_of_eq (h p)

theorem steps_note (p : Progress) (pos : Nat) (kind : Kind) :
    (p.note pos kind).steps = p.steps := by
  unfold Progress.note
  split
  · rfl
  · split <;> rfl

theorem Bounded.tick {cost : Nat} {next : Progress → Outcome} (h : Bounded limits cost next)
    (pos : Nat) : Bounded limits (cost + 1) fun p => tick limits pos p next := by
  intro p hp
  have granted : Backtracking.tick limits pos p next = next { p with steps := p.steps + 1 } := by
    unfold Backtracking.tick
    rw [if_neg (by omega)]
  simp only [granted]
  obtain ⟨ends, steps⟩ := h { p with steps := p.steps + 1 } (by simp only; omega)
  refine ⟨ends, ?_⟩
  intro q hq
  have := steps q hq
  simp only at this
  omega

theorem Bounded.tryEach {attempt : α → Progress → Outcome} {cost : α → Nat} {l : List α}
    (h : ∀ a ∈ l, Bounded limits (cost a) (attempt a)) :
    Bounded limits (l.map cost).sum (tryEach attempt l) := by
  induction l with
  | nil => exact bounded_failed fun p => rfl
  | cons a l ih =>
    rw [List.forall_mem_cons] at h
    intro p hp
    rw [List.map_cons, List.sum_cons] at hp ⊢
    obtain ⟨ends, steps⟩ := h.1 p (by omega)
    rw [Backtracking.tryEach]
    split
    · next p₁ hp₁ =>
      have used := steps p₁ hp₁
      obtain ⟨ends', steps'⟩ := ih h.2 p₁ (by omega)
      refine ⟨ends', ?_⟩
      intro q hq
      have := steps' q hq
      omega
    · next refused =>
      refine ⟨ends, ?_⟩
      intro q hq
      exact absurd hq (refused q)

/-! ## Steps of a call -/

/-- Steps for a list of symbols before a continuation that takes `cost`, when nonterminals take
`call`. -/
def sequenceCost (call : Nat → Nat) : List Symbol → Nat → Nat
  | [], cost => cost
  | .terminal _ :: rest, cost => sequenceCost call rest cost + 1
  | .nonterminal _ :: rest, cost => call (sequenceCost call rest cost) + 1

/-- Steps for any nonterminal when so much room is left: each alternative of the grammar once. -/
def callCost (g : Grammar) : Nat → Nat → Nat
  | 0, _ => 0
  | room + 1, cost =>
    (g.productions.map fun (_, alt) => sequenceCost (callCost g room) alt cost).sum

/-- The continuation takes no more than `cost` wherever the tokens can lead. -/
def BoundedNext (limits : Limits) (tokens : Array Token) (cost : Nat) (next : Continuation α) :
    Prop :=
  ∀ stop ≤ tokens.size, ∀ value, Bounded limits cost (next stop value)

theorem matchSequence_bounded
    {enter : String → Nat → Continuation Tree → Progress → Outcome} {call : Nat → Nat}
    {s : List Symbol}
    (henter : ∀ name, .nonterminal name ∈ s → ∀ pos ≤ tokens.size, ∀ cost next,
      BoundedNext limits tokens cost next → Bounded limits (call cost) (enter name pos next))
    {cost : Nat} {next : Continuation (List Tree)} (hnext : BoundedNext limits tokens cost next)
    (hpos : pos ≤ tokens.size) :
    Bounded limits (sequenceCost call s cost) (matchSequence limits tokens enter s pos next) := by
  induction s generalizing pos next with
  | nil => exact hnext pos hpos []
  | cons a s ih =>
    have inner := fun name (h : .nonterminal name ∈ s) => henter name (List.mem_cons_of_mem a h)
    cases a with
    | terminal kind =>
      refine Bounded.tick ?_ pos
      cases here : tokens[pos]? with
      | none => exact (bounded_failed fun p => steps_note p pos kind).mono (Nat.zero_le _)
      | some token =>
        have inside : pos < tokens.size := (Array.getElem?_eq_some_iff.1 here).1
        by_cases same : token.kind = kind
        · simp only [same, if_true]
          exact ih inner (fun stop hstop ts => hnext stop hstop (.leaf token :: ts)) inside
        · simp only [same, if_false]
          exact (bounded_failed fun p => steps_note p pos kind).mono (Nat.zero_le _)
    | nonterminal name =>
      refine Bounded.tick ?_ pos
      refine henter name List.mem_cons_self pos hpos _ _ ?_
      intro mid hmid t
      exact ih inner (fun stop hstop ts => hnext stop hstop (t :: ts)) hmid

/-! ## Room for calls -/

/-- The calls that a search can make: names in use, at positions up to the end. -/
def callsOf (names : List String) (tokens : Array Token) : List Call :=
  names.flatMap fun name => (List.range (tokens.size + 1)).map fun pos => ⟨pos, name⟩

/-- How many more calls can be opened inside the open ones. -/
def room (names : List String) (tokens : Array Token) (calls : List Call) : Nat :=
  ((callsOf names tokens).map fun c => tokens.size - c.pos + 1 - calls.count c).sum

theorem mem_callsOf {names : List String} (hname : name ∈ names) (hpos : pos ≤ tokens.size) :
    ⟨pos, name⟩ ∈ callsOf names tokens := by
  simp only [callsOf, List.mem_flatMap, List.mem_map, List.mem_range]
  exact ⟨name, hname, pos, by omega, rfl⟩

/-- Opening a call for which there is room leaves less room. -/
theorem room_lt {names : List String} (hname : name ∈ names) (hpos : pos ≤ tokens.size)
    (h : calls.count ⟨pos, name⟩ < tokens.size - pos + 1) :
    room names tokens (⟨pos, name⟩ :: calls) < room names tokens calls := by
  refine List.sum_lt_sum _ _ ?_ ⟨⟨pos, name⟩, mem_callsOf hname hpos, ?_⟩
  · intro c _
    have : calls.count c ≤ (⟨pos, name⟩ :: calls).count c := List.count_le_count_cons
    omega
  · rw [List.count_cons_self]
    simp only
    omega

theorem alternatives_sublist_productions (g : Grammar) (name : String) :
    ((g.alternatives name).map fun alt => (name, alt)).Sublist g.productions := by
  unfold Grammar.alternatives
  cases h : g.rules.get? name with
  | none => exact List.nil_sublist _
  | some alts =>
    unfold Grammar.productions
    rw [List.flatMap_def]
    refine List.sublist_flatten_of_mem (List.mem_map.2 ⟨(name, alts), ?_, rfl⟩)
    exact Catalog.mem_entries_iff.2 h

/-- The alternatives of one nonterminal take no longer than those of all. -/
theorem sum_le_callCost (g : Grammar) (name : String) (r cost : Nat) :
    ((g.alternatives name).map fun alt => sequenceCost (callCost g r) alt cost).sum ≤
      callCost g (r + 1) cost := by
  have sub := (alternatives_sublist_productions g name).map
    fun (_, alt) => sequenceCost (callCost g r) alt cost
  rw [List.map_map] at sub
  exact sub.sum_le_sum fun n _ => Nat.zero_le n

theorem bounded_of_full {ceiling depth : Nat} {next : Continuation Tree}
    (full : tokens.size - pos + 1 ≤ calls.count ⟨pos, name⟩) :
    Bounded limits 0
      (matchNonterminal g limits tokens (ceiling + 1) calls depth name pos next) := by
  have refused : matchNonterminal g limits tokens (ceiling + 1) calls depth name pos next =
      fun p => .failed p := by
    funext p
    rw [matchNonterminal, if_pos full]
  rw [refused]
  exact bounded_failed fun p => rfl

/-- With enough room for nesting, a call ends within `callCost` steps. -/
theorem matchNonterminal_bounded {names : List String}
    (closed : ∀ inner, g.Mentions (.nonterminal inner) → inner ∈ names) {r ceiling depth : Nat}
    (hroom : room names tokens calls ≤ r) (hceiling : r < ceiling)
    (hdepth : depth + r ≤ limits.maxDepth) (hname : name ∈ names) (hpos : pos ≤ tokens.size)
    {cost : Nat} {next : Continuation Tree} (hnext : BoundedNext limits tokens cost next) :
    Bounded limits (callCost g r cost)
      (matchNonterminal g limits tokens ceiling calls depth name pos next) := by
  induction r generalizing ceiling calls depth name pos cost next with
  | zero =>
    obtain ⟨ceiling, rfl⟩ := Nat.exists_eq_succ_of_ne_zero (by omega : ceiling ≠ 0)
    have full : tokens.size - pos + 1 ≤ calls.count ⟨pos, name⟩ := by
      by_contra h
      have := room_lt hname hpos (by omega : calls.count ⟨pos, name⟩ < _)
      omega
    exact bounded_of_full full
  | succ r ih =>
    obtain ⟨ceiling, rfl⟩ := Nat.exists_eq_succ_of_ne_zero (by omega : ceiling ≠ 0)
    by_cases full : tokens.size - pos + 1 ≤ calls.count ⟨pos, name⟩
    · exact (bounded_of_full full).mono (Nat.zero_le _)
    · have smaller := room_lt hname hpos (by omega : calls.count ⟨pos, name⟩ < _)
      have shallow : ¬ limits.maxDepth < depth := by omega
      have alternatives := sum_le_callCost g name r cost
      suffices h : Bounded limits _ (tryEach _ (g.alternatives name)) by
        intro p hp
        rw [matchNonterminal, if_neg full, if_neg shallow]
        exact h.mono alternatives p hp
      refine Bounded.tryEach ?_
      intro alt halt
      refine matchSequence_bounded ?_ (fun stop hstop ts => hnext stop hstop _) hpos
      intro inner hinner pos' hpos' cost' next' hnext'
      have deeper : depthBelow g depth inner ≤ depth + 1 := by
        unfold depthBelow
        split <;> omega
      have known : inner ∈ names := closed inner ⟨name, alt, halt, hinner⟩
      exact ih (by omega) (by omega) (by omega) known hpos' hnext'

end TopDown.Backtracking
