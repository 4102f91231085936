import TopDown.Proofs.Backtracking

/-
  Raising the limits of a backtracking parse.

  A limit that is passed ends the whole search, even inside a branch that would have failed and
  been given up; it never cuts off that branch alone. So a search that comes to an end of its own
  has passed no limit anywhere, and under higher limits it goes the same way, step by step.

  `Outlasts` says of two runs that one ends like the other unless the other is cut off. Every part
  of a search takes this over from its continuation, so it holds of whole searches
  (`search_outlasts`).
-/

namespace TopDown

namespace Backtracking

variable {α : Type} {g : Grammar} {limits higher : Limits} {tokens : Array Token}

/-- From any progress, `raised` ends like `run`, unless `run` is cut off. -/
def Outlasts (raised run : Progress → Outcome) : Prop :=
  ∀ p, (∃ limit, run p = .exhausted limit) ∨ raised p = run p

theorem Outlasts.refl (run : Progress → Outcome) : Outlasts run run :=
  fun _ => Or.inr rfl

theorem Outlasts.tick (steps : limits.maxSteps ≤ higher.maxSteps)
    {raised next : Progress → Outcome} (h : Outlasts raised next) (pos : Nat) :
    Outlasts (fun p => tick higher pos p raised) (fun p => tick limits pos p next) := by
  intro p
  unfold Backtracking.tick
  by_cases spent : limits.maxSteps < p.steps + 1
  · exact Or.inl ⟨_, if_pos spent⟩
  · have granted : ¬ higher.maxSteps < p.steps + 1 := by omega
    simp only [spent, granted, if_false]
    exact h _

theorem Outlasts.tryEach {raised attempt : α → Progress → Outcome} {l : List α}
    (h : ∀ a ∈ l, Outlasts (raised a) (attempt a)) :
    Outlasts (tryEach raised l) (tryEach attempt l) := by
  induction l with
  | nil => exact Outlasts.refl _
  | cons a l ih =>
    rw [List.forall_mem_cons] at h
    intro p
    unfold Backtracking.tryEach
    -- A limit that is passed in one branch leaves none of the later ones to be tried.
    obtain ⟨limit, cut⟩ | same := h.1 p
    · rw [cut]
      exact Or.inl ⟨limit, rfl⟩
    · rw [same]
      cases attempt a p with
      | found tree q => exact Or.inr rfl
      | failed q => exact ih h.2 q
      | exhausted limit => exact Or.inr rfl

/-- `raised` outlasts `next` wherever it goes on. -/
def OutlastsNext (raised next : Continuation α) : Prop :=
  ∀ stop value, Outlasts (raised stop value) (next stop value)

theorem matchSequence_outlasts (steps : limits.maxSteps ≤ higher.maxSteps)
    {enter raisedEnter : String → Nat → Continuation Tree → Progress → Outcome}
    (henter : ∀ name pos raised next, OutlastsNext raised next →
      Outlasts (raisedEnter name pos raised) (enter name pos next))
    {raised next : Continuation (List Tree)} (hnext : OutlastsNext raised next)
    (symbols : List Symbol) (pos : Nat) :
    Outlasts (matchSequence higher tokens raisedEnter symbols pos raised)
      (matchSequence limits tokens enter symbols pos next) := by
  induction symbols generalizing pos raised next with
  | nil => exact hnext pos []
  | cons s symbols ih =>
    cases s with
    | terminal kind =>
      apply Outlasts.tick steps
      intro p
      cases tokens[pos]? with
      | none => exact Or.inr rfl
      | some token =>
        by_cases same : token.kind = kind
        · simp only [same, if_true]
          exact ih (fun stop trees => hnext stop (.leaf token :: trees)) (pos + 1) p
        · right
          simp [same]
    | nonterminal name =>
      apply Outlasts.tick steps
      apply henter
      intro mid tree
      exact ih (fun stop trees => hnext stop (tree :: trees)) mid

theorem matchNonterminal_outlasts (depths : limits.maxDepth ≤ higher.maxDepth)
    (steps : limits.maxSteps ≤ higher.maxSteps) {ceiling above : Nat} (nesting : ceiling ≤ above)
    (calls : List Call) (depth : Nat) (name : String) (pos : Nat) {raised next : Continuation Tree}
    (hnext : OutlastsNext raised next) :
    Outlasts (matchNonterminal g higher tokens above calls depth name pos raised)
      (matchNonterminal g limits tokens ceiling calls depth name pos next) := by
  induction ceiling generalizing above calls depth name pos raised next with
  | zero => exact fun p => Or.inl ⟨.nesting, rfl⟩
  | succ ceiling ih =>
    obtain ⟨above, rfl⟩ := Nat.exists_eq_succ_of_ne_zero (by omega : above ≠ 0)
    intro p
    unfold matchNonterminal
    by_cases full : tokens.size - pos + 1 ≤ calls.count ⟨pos, name⟩
    · right
      simp [full]
    · by_cases deep : limits.maxDepth < depth
      · simp only [full, deep, if_true, if_false]
        exact Or.inl ⟨_, rfl⟩
      · have shallow : ¬ higher.maxDepth < depth := by omega
        simp only [full, deep, shallow, if_false]
        refine Outlasts.tryEach (fun alt _ => ?_) p
        apply matchSequence_outlasts steps
        · intro inner pos raised next hnext
          exact ih (by omega) _ _ _ _ hnext
        · exact fun stop trees => hnext stop (.node name trees)

/-- A search under higher limits ends like the search under the lower ones, unless that one is cut
off. -/
theorem search_outlasts (g : Grammar) (tokens : Array Token)
    (depths : limits.maxDepth ≤ higher.maxDepth) (steps : limits.maxSteps ≤ higher.maxSteps)
    {ceiling above : Nat} (nesting : ceiling ≤ above) :
    (∃ limit, search ceiling g limits tokens = .exhausted limit) ∨
      search above g higher tokens = search ceiling g limits tokens := by
  unfold search
  cases g.start with
  | none => exact Or.inr rfl
  | some start =>
    exact matchNonterminal_outlasts depths steps nesting [] 0 start 0
      (fun _ _ => Outlasts.refl _) .start

end Backtracking

namespace BacktrackingParser

/-- Raising the limits never changes an answer: a tree that is returned, or a rejection with its
position, token and expected kinds, stays the same under limits that are at least as high, when
there is at least as much nesting. -/
theorem parseBelow_outlasts {parser : BacktrackingParser} {limits higher : Limits}
    {ceiling above : Nat} (depths : limits.maxDepth ≤ higher.maxDepth)
    (steps : limits.maxSteps ≤ higher.maxSteps) (nesting : ceiling ≤ above) (tokens : List Token) :
    (∀ tree, parser.parseBelow ceiling limits tokens = .ok tree →
      parser.parseBelow above higher tokens = .ok tree) ∧
    (∀ failure, parser.parseBelow ceiling limits tokens = .error failure →
      failure.isRejection = true → parser.parseBelow above higher tokens = .error failure) := by
  have same : ∀ answer, parser.parseBelow ceiling limits tokens = answer →
      (∀ limit, answer ≠ .error (.exhausted limit)) →
      parser.parseBelow above higher tokens = answer := by
    intro answer answered uncut
    unfold parseBelow at answered ⊢
    obtain ⟨limit, cut⟩ | same := Backtracking.search_outlasts parser.grammar tokens.toArray
      depths steps nesting
    · rw [cut] at answered
      exact absurd answered.symm (uncut limit)
    · rw [same, answered]
  constructor
  · intro tree returned
    apply same _ returned
    intro limit cut
    cases cut
  · intro failure raised rejection
    apply same _ raised
    intro limit cut
    cases cut
    cases rejection

/-- The least limits for one tree and for one rejection; a million levels and a billion steps give
the same. -/
theorem parseBelow_outlasts_loops :
    ofGrammar loops = .ok ⟨loops⟩ ∧
      (∃ tree, parse ⟨loops⟩ ⟨3, 16⟩ [identifierToken, semicolonToken] = .ok tree ∧
        (∃ limit, parse ⟨loops⟩ ⟨3, 15⟩ [identifierToken, semicolonToken]
          = .error (.exhausted limit)) ∧
        parseBelow 1000000 ⟨loops⟩ ⟨1000000, 1000000000⟩ [identifierToken, semicolonToken]
          = .ok tree) ∧
      (∃ failure, parse ⟨loops⟩ ⟨2, 12⟩ [semicolonToken] = .error failure ∧
        failure.isRejection = true ∧
        (∃ limit, parse ⟨loops⟩ ⟨1, 12⟩ [semicolonToken] = .error (.exhausted limit)) ∧
        parseBelow 1000000 ⟨loops⟩ ⟨1000000, 1000000000⟩ [semicolonToken] = .error failure) := by
  have built : ofGrammar loops = .ok ⟨loops⟩ := by rfl
  obtain ⟨tree, returned⟩ :
      ∃ tree, parse ⟨loops⟩ ⟨3, 16⟩ [identifierToken, semicolonToken] = .ok tree := ⟨_, rfl⟩
  obtain ⟨failure, raised, rejection⟩ :
      ∃ failure, parse ⟨loops⟩ ⟨2, 12⟩ [semicolonToken] = .error failure ∧
        failure.isRejection = true := ⟨_, rfl, rfl⟩
  have nesting : nestingCeiling ≤ 1000000 := by decide
  refine ⟨built, ⟨tree, returned, ⟨_, rfl⟩, ?_⟩, failure, raised, rejection, ⟨_, rfl⟩, ?_⟩
  · apply (parseBelow_outlasts _ _ nesting _).1 tree returned
    · decide
    · decide
  · apply (parseBelow_outlasts _ _ nesting _).2 failure raised rejection
    · decide
    · decide

end BacktrackingParser

end TopDown
