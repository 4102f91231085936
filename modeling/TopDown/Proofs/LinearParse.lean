import TopDown.Proofs.LeftRecursion
import TopDown.Proofs.PredictiveFrontier

/-
  Without conflicts, a predictive parse takes linearly many steps.

  A call that can begin with the next token goes down to that token through one alternative after
  another. Each of them is the one by which the search for first kinds came upon the kind, so each
  call is found in an earlier round than the one above it (`Pays.opening`). A call that cannot
  begin with the next token has to come to nothing, and then so have all calls inside it; each of
  their alternatives is the one by which the search for nullable nonterminals came upon its owner
  (`Pays.leaving`). No nonterminal has both ways open, since what begins a nullable nonterminal
  does not follow it (`not_mem_follow_of_first`).

  So there is a bound on the steps between two tokens, on the way down and in what is left of the
  alternatives on the way back. The bill is kept in advance: `potential` adds to the steps taken
  what the remaining tokens will bring in, and every part of a parse says by how much it lets the
  sum grow. A limit that cuts a parse off has not exceeded the steps taken there.
-/

namespace TopDown

namespace Grammar

variable {g : Grammar} {name : String} {alt : Alternative} {kind : Kind} {m : Nat}

/-! ## Rounds of the searches -/

/-- The first kinds found in some number of rounds. -/
def firstRound (g : Grammar) (m : Nat) : Catalog KindSet :=
  (g.firstStep g.nullable)^[m] (g.rules.map fun _ _ => ∅)

/-- The nullable nonterminals found in some number of rounds. -/
def nullableRound (g : Grammar) (m : Nat) : List String :=
  g.nullableStep^[m] []

theorem mem_firstRound_succ :
    kind ∈ (g.firstRound (m + 1)).kinds name ↔
      ∃ alt ∈ g.alternatives name, kind ∈ Alternative.first g.nullable (g.firstRound m) alt := by
  rw [firstRound, Function.iterate_succ_apply', mem_firstStep]
  rfl

theorem mem_nullableRound_succ :
    name ∈ g.nullableRound (m + 1) ↔
      ∃ alt ∈ g.alternatives name, Alternative.isNullable (g.nullableRound m) alt = true := by
  rw [nullableRound, Function.iterate_succ_apply', mem_nullableStep]
  rfl

theorem mem_first_of_firstRound (h : kind ∈ (g.firstRound m).kinds name) :
    kind ∈ g.lookahead.first.kinds name := by
  induction m generalizing name kind with
  | zero => exact absurd h not_mem_kinds_blank
  | succ m ih =>
    obtain ⟨alt, halt, first⟩ := mem_firstRound_succ.1 h
    exact mem_first_iff.2 ⟨alt, halt, Alternative.first_mono (fun _ _ => ih) alt kind first⟩

theorem mem_firstOf_of_firstRound (h : kind ∈ Alternative.first g.nullable (g.firstRound m) alt) :
    kind ∈ g.lookahead.firstOf alt :=
  Alternative.first_mono (fun _ _ => mem_first_of_firstRound) alt kind h

theorem mem_nullable_of_nullableRound (h : name ∈ g.nullableRound m) : name ∈ g.nullable := by
  induction m generalizing name with
  | zero => cases h
  | succ m ih =>
    obtain ⟨alt, halt, null⟩ := mem_nullableRound_succ.1 h
    exact mem_nullable_iff.2 ⟨alt, halt, Alternative.isNullable_mono (fun _ => ih) null⟩

/-- Rounds after which both searches have found all there is. -/
structure Rounds (g : Grammar) where
  first : Nat
  nullable : Nat
  first_eq : g.lookahead.first = g.firstRound first
  nullable_eq : g.nullable = g.nullableRound nullable

theorem exists_rounds (g : Grammar) : Nonempty g.Rounds := by
  obtain ⟨first, hfirst⟩ := stabilize_eq_iterate (g.firstStep g.nullable)
    (19 * g.nonterminals.length) (g.rules.map fun _ _ => ∅)
  obtain ⟨nullable, hnullable⟩ := stabilize_eq_iterate g.nullableStep g.nonterminals.length []
  exact ⟨⟨first, nullable, hfirst, hnullable⟩⟩

/-! ## First kinds of what can be left out -/

/-- Without conflicts, what begins a nullable nonterminal does not follow it. -/
theorem not_mem_follow_of_first (quiet : g.conflicts = []) (null : name ∈ g.nullable)
    (first : kind ∈ g.lookahead.first.kinds name) : kind ∉ g.lookahead.follow.kinds name := by
  obtain ⟨rounds⟩ := exists_rounds g
  rw [rounds.first_eq] at first
  -- otherwise the alternative that can be left out also begins with the kind, so a nullable
  -- nonterminal in it was found to begin with the kind, which follows it as well, a round before
  generalize rounds.first = m at first
  induction m generalizing name with
  | zero => exact absurd first not_mem_kinds_blank
  | succ m ih =>
    intro follows
    obtain ⟨alt, halt, first⟩ := mem_firstRound_succ.1 first
    obtain ⟨other, hother, nullOther⟩ := mem_nullable_iff.1 null
    obtain ⟨i, hi⟩ := List.getElem?_of_mem halt
    obtain ⟨j, hj⟩ := List.getElem?_of_mem hother
    have begins := (mem_candidates_iff hi).2 (Or.inl (mem_firstOf_of_firstRound first))
    have leaves := (mem_candidates_iff hj).2
      (Or.inr ⟨nullOther, KindSet.mem_insert.2 (Or.inr follows)⟩)
    obtain rfl := DecisionTable.candidates_unique quiet begins leaves
    obtain rfl := Option.some.inj (hi.symm.trans hj)
    have null : g.lookahead.isNullable alt = true := nullOther
    have nullAt : ∀ a ∈ alt, ∃ before after, alt = before ++ a :: after ∧
        g.lookahead.isNullable [a] = true ∧ g.lookahead.isNullable after = true := by
      intro a ha
      obtain ⟨before, after, rfl⟩ := List.append_of_mem ha
      obtain ⟨-, nullRest⟩ := Lookahead.isNullable_append.1 null
      obtain ⟨nullA, nullAfter⟩ := Lookahead.isNullable_cons.1 nullRest
      exact ⟨before, after, rfl, nullA, nullAfter⟩
    rcases Alternative.mem_first_cases first with here | ⟨inner, here, found⟩
    · obtain ⟨-, -, -, taken, -⟩ := nullAt _ here
      cases taken
    · obtain ⟨before, after, rfl, nullInner, nullAfter⟩ := nullAt _ here
      exact ih (Lookahead.isNullable_nonterminal.1 nullInner) found
        (mem_follow_of_owner halt nullAfter follows)

/-! ## Rates -/

theorem length_le_size (halt : alt ∈ g.alternatives name) : alt.length ≤ g.size := by
  have filed : (name, alt) ∈ g.productions := mem_productions.2 halt
  change alt.length ≤ g.productions.foldr (fun p total => p.2.length + 1 + total) 0
  generalize g.productions = productions at filed ⊢
  induction productions with
  | nil => cases filed
  | cons production rest ih =>
    rw [List.foldr_cons]
    rcases List.mem_cons.1 filed with rfl | filed
    · dsimp only
      omega
    · have := ih filed
      omega

/-- The steps that it takes at most to come to nothing from a nonterminal that some number of rounds
have found to be nullable. -/
def leaveCost (g : Grammar) : Nat → Nat
  | 0 => 1
  | m + 1 => g.size * leaveCost g m + 1

namespace Rounds

/-- What it takes at most to leave out any one nonterminal. -/
def leave (r : g.Rounds) : Nat :=
  g.leaveCost r.nullable

/-- What it takes at most to go down one level, or to finish the alternative there. -/
def level (r : g.Rounds) : Nat :=
  g.size * r.leave + 1

/-- What a token brings in: its own step, and all levels from one token down to the next. -/
def perToken (r : g.Rounds) : Nat :=
  r.first * r.level + 1

theorem leave_pos (r : g.Rounds) : 0 < r.leave := by
  unfold leave
  cases r.nullable <;> exact Nat.succ_pos _

theorem length_mul_leave_lt (r : g.Rounds) (halt : alt ∈ g.alternatives name) :
    alt.length * r.leave < r.level :=
  Nat.lt_succ_of_le (Nat.mul_le_mul_right _ (length_le_size halt))

end Rounds

end Grammar

/-- How much a limit allows, where nesting ends at a ceiling. -/
def Limits.allowance (limits : Limits) (ceiling : Nat) : Exhaustion → Nat
  | .steps .. => limits.maxSteps
  | .depth .. => limits.maxDepth
  | .nesting => ceiling

namespace PredictiveParser

open Grammar (Rounds)

variable {α β : Type} {g : Grammar} {tokens : Array Token} {name : String} {symbols : List Symbol}
  {kind : Kind} {s : State} {m floor ceiling depth : Nat}

/-! ## Bounded parses -/

/-- The limits of a parse, how deep it may nest, and a number of steps to stay within. -/
structure Budget where
  limits : Limits
  ceiling : Nat
  total : Nat

variable {B : Budget} {Mid Post : State → Prop}

/-- A parse ends as described if it returns, and is cut off only by limits below the budget. -/
structure Budget.Within (B : Budget) (Post : State → Prop)
    (r : Except ParseFailure (α × State)) : Prop where
  returns : ∀ value s, r = .ok (value, s) → Post s
  cut : ∀ limit, r = .error (.exhausted limit) → B.limits.allowance B.ceiling limit < B.total

theorem within_ok {value : α} (h : Post s) : B.Within Post (.ok (value, s)) where
  returns value' s' same := by
    cases same
    exact h
  cut limit same := by cases same

theorem within_error {e : ParseFailure}
    (h : ∀ limit, e = .exhausted limit → B.limits.allowance B.ceiling limit < B.total) :
    B.Within Post (.error e : Except ParseFailure (α × State)) where
  returns value s same := by cases same
  cut limit same := h limit (Except.error.inj same)

theorem within_failure {expected : KindSet} :
    B.Within Post (.error (failure tokens s expected) : Except ParseFailure (α × State)) :=
  within_error fun _ same => absurd same failure_ne_exhausted

theorem Budget.Within.bind {r : Except ParseFailure (α × State)}
    {f : α × State → Except ParseFailure (β × State)} (h : B.Within Mid r)
    (later : ∀ value s, Mid s → B.Within Post (f (value, s))) : B.Within Post (r >>= f) := by
  cases r with
  | error e =>
    refine ⟨fun value s same => (by cases same), fun limit same => ?_⟩
    cases same
    exact h.cut limit rfl
  | ok value => exact later value.1 value.2 (h.returns _ _ rfl)

theorem Budget.Within.mono {r : Except ParseFailure (α × State)} (h : B.Within Mid r)
    (imp : ∀ s, Mid s → Post s) : B.Within Post r :=
  ⟨fun value s same => imp s (h.returns value s same), h.cut⟩

theorem Budget.Within.map {r : Except ParseFailure (α × State)} (h : B.Within Post r)
    (wrap : α → β) : B.Within Post (r >>= fun x => .ok (wrap x.1, x.2)) :=
  h.bind fun _ _ post => within_ok post

/-! ## The potential -/

/-- The steps taken and all that the remaining tokens bring in. -/
def potential (r : g.Rounds) (tokens : Array Token) (s : State) : Nat :=
  s.steps + r.perToken * (tokens.size - s.pos)

theorem steps_le_potential (r : g.Rounds) (tokens : Array Token) (s : State) :
    s.steps ≤ potential r tokens s :=
  Nat.le_add_right _ _

theorem potential_of_pos_eq (r : g.Rounds) (tokens : Array Token) {s' : State}
    (pos : s'.pos = s.pos) :
    potential r tokens s' + s.steps = potential r tokens s + s'.steps := by
  unfold potential
  rw [pos]
  omega

/-- After a token there is one step more, and what the token brought in is gone. -/
theorem potential_of_taken (r : g.Rounds) {s' : State} (more : s.pos < tokens.size)
    (pos : s'.pos = s.pos + 1) (steps : s'.steps = s.steps + 1) :
    potential r tokens s' + r.first * r.level = potential r tokens s := by
  have left : tokens.size - s.pos = (tokens.size - s'.pos) + 1 := by omega
  unfold potential
  rw [left, Nat.mul_succ, steps, Rounds.perToken]
  omega

theorem look_congr {s' : State} (pos : s'.pos = s.pos) : look tokens s' = look tokens s := by
  rw [look, look, pos]

/-! ## What calls cost -/

/-- What it costs to call a nonterminal when some number of steps have been taken. -/
structure Pays (r : g.Rounds) (B : Budget) (tokens : Array Token) (floor : Nat) (name : String)
    (enter : State → Except ParseFailure (Tree × State)) : Prop where
  /-- From a kind that begins the nonterminal by the `m`-th round, `m` levels lead down to the
  token, which brings in those for the next one. -/
  opening : ∀ m s, floor ≤ s.steps → look tokens s ∈ (g.firstRound m).kinds name →
    potential r tokens s + m * r.level ≤ B.total →
    B.Within (fun s' => s.steps ≤ s'.steps ∧
      potential r tokens s' + r.first * r.level ≤ potential r tokens s + m * r.level) (enter s)
  /-- Where a nullable nonterminal does not begin with the next kind, no token is taken. -/
  leaving : ∀ m s, floor ≤ s.steps → name ∈ g.nullableRound m →
    look tokens s ∉ g.lookahead.first.kinds name → s.steps + g.leaveCost m ≤ B.total →
    B.Within (fun s' => s'.pos = s.pos ∧ s.steps ≤ s'.steps ∧
      s'.steps ≤ s.steps + g.leaveCost m) (enter s)
  /-- Any other nonterminal is refused. -/
  refusing : ∀ s, floor ≤ s.steps → name ∉ g.nullable →
    look tokens s ∉ g.lookahead.first.kinds name → s.steps < B.total →
    B.Within (fun _ => False) (enter s)

section

variable {r : g.Rounds} {enter : String → State → Except ParseFailure (Tree × State)}

/-- A call at any kind uses up no more than what it costs to leave the nonterminal out, given all
levels down to the next token. -/
theorem Pays.any (pays : Pays r B tokens floor name (enter name)) (from_floor : floor ≤ s.steps)
    (paid : potential r tokens s + r.first * r.level + r.leave ≤ B.total) :
    B.Within (fun s' => s.steps ≤ s'.steps ∧
      potential r tokens s' ≤ potential r tokens s + r.leave) (enter name s) := by
  have steps : s.steps ≤ potential r tokens s := steps_le_potential r tokens s
  have costs := r.leave_pos
  by_cases first : look tokens s ∈ g.lookahead.first.kinds name
  · rw [r.first_eq] at first
    refine (pays.opening r.first s from_floor first (by omega)).mono fun s' post => ?_
    exact ⟨post.1, by omega⟩
  · by_cases null : name ∈ g.nullable
    · rw [r.nullable_eq] at null
      have cost : g.leaveCost r.nullable = r.leave := rfl
      refine (pays.leaving r.nullable s from_floor null first (by omega)).mono fun s' post => ?_
      have same := potential_of_pos_eq r tokens post.1
      exact ⟨post.2.1, by omega⟩
    · exact (pays.refusing s from_floor null first (by omega)).mono fun s' post => post.elim

/-- A token takes one step. -/
theorem take_within (paid : s.steps < B.total) :
    B.Within (fun s' => s.pos < tokens.size ∧ s'.pos = s.pos + 1 ∧ s'.steps = s.steps + 1)
      (tick B.limits s >>= take tokens kind) := by
  rcases Nat.lt_or_ge s.steps B.limits.maxSteps with more | spent
  · rw [tick_of_lt more]
    change B.Within _ (take tokens kind { s with steps := s.steps + 1 })
    unfold take
    split
    · exact within_failure
    · split
      · next token here => exact within_ok ⟨(Array.getElem?_eq_some_iff.1 here).1, rfl, rfl⟩
      · exact within_error fun limit same => by cases same
  · rw [tick_of_le spent]
    refine within_error fun limit same => ?_
    cases same
    exact Nat.lt_of_le_of_lt spent paid

variable (pays : ∀ inner, Pays r B tokens floor inner (enter inner))

include pays in
/-- Symbols that are to be left out. -/
theorem parseSequence_leaving (from_floor : floor ≤ s.steps)
    (null : Alternative.isNullable (g.nullableRound m) symbols = true)
    (behind : look tokens s ∉ g.lookahead.firstOf symbols)
    (paid : s.steps + symbols.length * g.leaveCost m ≤ B.total) :
    B.Within (fun s' => s'.pos = s.pos ∧ s.steps ≤ s'.steps ∧
        s'.steps ≤ s.steps + symbols.length * g.leaveCost m)
      (parseSequence B.limits tokens enter symbols s) := by
  induction symbols generalizing s with
  | nil => exact within_ok ⟨rfl, le_rfl, Nat.le_add_right _ _⟩
  | cons a symbols ih =>
    rw [List.length_cons, Nat.succ_mul] at paid ⊢
    cases a with
    | terminal kind => cases null
    | nonterminal inner =>
      obtain ⟨nullInner, null⟩ := Alternative.isNullable_cons_nonterminal.1 null
      rw [Lookahead.mem_firstOf_cons, not_or, not_and] at behind
      have later := behind.2 (Grammar.mem_nullable_of_nullableRound nullInner)
      rw [parseSequence]
      refine ((pays inner).leaving m s from_floor nullInner behind.1 (by omega)).bind ?_
      rintro t s₁ ⟨pos, grown, steps⟩
      rw [← look_congr pos] at later
      refine (((ih (by omega) null later (by omega)).mono ?_).map (t :: ·))
      rintro s₂ ⟨pos₂, grown₂, steps₂⟩
      exact ⟨pos₂.trans pos, by omega, by omega⟩

include pays in
/-- Symbols behind a token, with all levels down to the next one paid. -/
theorem parseSequence_behind (from_floor : floor ≤ s.steps)
    (paid : potential r tokens s + r.first * r.level + symbols.length * r.leave ≤ B.total) :
    B.Within (fun s' => s.steps ≤ s'.steps ∧
        potential r tokens s' ≤ potential r tokens s + symbols.length * r.leave)
      (parseSequence B.limits tokens enter symbols s) := by
  induction symbols generalizing s with
  | nil => exact within_ok ⟨le_rfl, Nat.le_add_right _ _⟩
  | cons a symbols ih =>
    rw [List.length_cons, Nat.succ_mul] at paid ⊢
    have costs := r.leave_pos
    have steps : s.steps ≤ potential r tokens s := steps_le_potential r tokens s
    cases a with
    | terminal kind =>
      rw [parseSequence, ← bind_assoc]
      refine (take_within (by omega)).bind ?_
      rintro t s₁ ⟨more, pos, step⟩
      have taken := potential_of_taken r more pos step
      refine ((ih (by omega) (by omega)).mono ?_).map (t :: ·)
      rintro s₂ ⟨grown, rest⟩
      exact ⟨by omega, by omega⟩
    | nonterminal inner =>
      rw [parseSequence]
      refine ((pays inner).any from_floor (by omega)).bind ?_
      rintro t s₁ ⟨grown, spent⟩
      refine ((ih (by omega) (by omega)).mono ?_).map (t :: ·)
      rintro s₂ ⟨grown₂, rest⟩
      exact ⟨by omega, by omega⟩

include pays in
/-- Symbols that begin with the next token. -/
theorem parseSequence_opening (quiet : g.conflicts = []) {before : Alternative}
    (halt : before ++ symbols ∈ g.alternatives name) (from_floor : floor ≤ s.steps)
    (first : look tokens s ∈ Alternative.first g.nullable (g.firstRound m) symbols)
    (paid : potential r tokens s + m * r.level + symbols.length * r.leave ≤ B.total) :
    B.Within (fun s' => s.steps ≤ s'.steps ∧
        potential r tokens s' + r.first * r.level
          ≤ potential r tokens s + m * r.level + symbols.length * r.leave)
      (parseSequence B.limits tokens enter symbols s) := by
  induction symbols generalizing before s with
  | nil => exact absurd first (KindSet.not_mem_empty _)
  | cons a symbols ih =>
    rw [List.length_cons, Nat.succ_mul] at paid ⊢
    have costs := r.leave_pos
    have steps : s.steps ≤ potential r tokens s := steps_le_potential r tokens s
    cases a with
    | terminal kind =>
      rw [parseSequence, ← bind_assoc]
      refine (take_within (by omega)).bind ?_
      rintro t s₁ ⟨more, pos, step⟩
      have taken := potential_of_taken r more pos step
      refine ((parseSequence_behind pays (by omega) (by omega)).mono ?_).map (t :: ·)
      rintro s₂ ⟨grown, rest⟩
      exact ⟨by omega, by omega⟩
    | nonterminal inner =>
      rw [parseSequence]
      by_cases here : look tokens s ∈ (g.firstRound m).kinds inner
      · refine ((pays inner).opening m s from_floor here (by omega)).bind ?_
        rintro t s₁ ⟨grown, spent⟩
        refine ((parseSequence_behind pays (by omega) (by omega)).mono ?_).map (t :: ·)
        rintro s₂ ⟨grown₂, rest⟩
        exact ⟨by omega, by omega⟩
      · -- the kind begins what comes after, so the nonterminal is not one to begin with it at all
        obtain ⟨null, later⟩ := (Alternative.mem_first_cons.1 first).resolve_left here
        have follows := Grammar.mem_follow_of_first halt (Grammar.mem_firstOf_of_firstRound later)
        have behind : look tokens s ∉ g.lookahead.first.kinds inner :=
          fun begins => Grammar.not_mem_follow_of_first quiet null begins follows
        rw [r.nullable_eq] at null
        have cost : g.leaveCost r.nullable = r.leave := rfl
        refine ((pays inner).leaving r.nullable s from_floor null behind (by omega)).bind ?_
        rintro t s₁ ⟨pos, grown, steps₁⟩
        have same := potential_of_pos_eq r tokens pos
        have shifted : (before ++ [.nonterminal inner]) ++ symbols ∈ g.alternatives name := by
          rwa [List.append_assoc]
        rw [← look_congr pos] at later
        refine ((ih shifted (by omega) later (by omega)).mono ?_).map (t :: ·)
        rintro s₂ ⟨grown₂, rest⟩
        exact ⟨by omega, by omega⟩

end

/-! ## Calls -/

/-- A call is cut off only by limits that have been reached, and otherwise goes on in the selected
alternative. -/
theorem parseNonterminal_within {parser : PredictiveParser} (shallow : depth ≤ s.steps)
    (room : B.ceiling ≤ ceiling + s.steps) (paid : s.steps < B.total)
    (inside : ∀ below i, ceiling = below + 1 →
      parser.table.select name (look tokens s) = some i →
      B.Within Post (parseSequence B.limits tokens (parser.enterBelow B.limits tokens below depth)
        (parser.chosen name i) (parser.entry tokens name i s))) :
    B.Within Post (parser.parseNonterminal B.limits tokens ceiling depth name s) := by
  rcases parser.parseNonterminal_limits B.limits tokens ceiling depth name s with
    ⟨rfl, cut⟩ | ⟨deep, cut⟩ | ⟨spent, cut⟩ | ⟨below, rfl, within, more⟩
  · rw [cut]
    refine within_error fun limit same => ?_
    cases same
    change B.ceiling < B.total
    omega
  · rw [cut]
    refine within_error fun limit same => ?_
    cases same
    change B.limits.maxDepth < B.total
    omega
  · rw [cut]
    refine within_error fun limit same => ?_
    cases same
    change B.limits.maxSteps < B.total
    omega
  · rw [parseNonterminal_succ within more]
    cases selected : parser.table.select name (look tokens s) with
    | none => exact within_failure
    | some i => exact (inside below i rfl selected).map (Tree.node name)

variable {r : g.Rounds}

/-- The way down goes on in an earlier round. -/
theorem selected_opening (quiet : g.conflicts = [])
    (first : kind ∈ (g.firstRound (m + 1)).kinds name) {i : Nat}
    (selected : g.decisionTable.select name kind = some i) :
    chosen ⟨g, g.decisionTable⟩ name i ∈ g.alternatives name ∧
      kind ∈ Alternative.first g.nullable (g.firstRound m)
        (chosen ⟨g, g.decisionTable⟩ name i) := by
  obtain ⟨alt, halt, first⟩ := Grammar.mem_firstRound_succ.1 first
  obtain ⟨j, hj⟩ := List.getElem?_of_mem halt
  have candidate := (Grammar.mem_candidates_iff hj).2
    (Or.inl (Grammar.mem_firstOf_of_firstRound first))
  have same := selected.symm.trans (DecisionTable.select_eq_some quiet candidate)
  obtain rfl := Option.some.inj same
  have taken : chosen ⟨g, g.decisionTable⟩ name i = alt := by
    rw [chosen, hj]
    rfl
  exact taken ▸ ⟨halt, first⟩

/-- Where the next kind does not begin the nonterminal, the selected alternative can be left out and
does not begin with the kind either. -/
theorem selected_leaving (behind : kind ∉ g.lookahead.first.kinds name) {i : Nat}
    (selected : g.decisionTable.select name kind = some i) :
    ∃ alt, (g.alternatives name)[i]? = some alt ∧ chosen ⟨g, g.decisionTable⟩ name i = alt ∧
      kind ∉ g.lookahead.firstOf alt ∧ g.lookahead.isNullable alt = true := by
  obtain ⟨alt, halt, hi⟩ := Grammar.exists_alternative_of_select selected
  have away : kind ∉ g.lookahead.firstOf alt :=
    fun first => behind (Grammar.mem_first_iff.2 ⟨alt, halt, first⟩)
  have candidate := (Grammar.mem_candidates_iff hi).1
    (DecisionTable.mem_candidates_of_select selected)
  refine ⟨alt, hi, ?_, away, (candidate.resolve_left away).1⟩
  rw [chosen, hi]
  rfl

/-- Where the next kind does not begin a nonterminal found to be nullable, the selected alternative
is the one it was found by. -/
theorem selected_nullable (quiet : g.conflicts = []) (null : name ∈ g.nullableRound (m + 1))
    {i : Nat} {alt : Alternative} (hi : (g.alternatives name)[i]? = some alt)
    (nullAlt : g.lookahead.isNullable alt = true) :
    Alternative.isNullable (g.nullableRound m) alt = true := by
  obtain ⟨other, hother, nullOther⟩ := Grammar.mem_nullableRound_succ.1 null
  obtain ⟨j, hj⟩ := List.getElem?_of_mem hother
  have known : g.lookahead.isNullable other = true :=
    Alternative.isNullable_mono (fun _ => Grammar.mem_nullable_of_nullableRound) nullOther
  obtain rfl := eq_of_isNullable quiet hi hj nullAlt known
  obtain rfl := Option.some.inj (hi.symm.trans hj)
  exact nullOther

/-- A call pays for itself when the calls in it do, as long as its depth and nesting have not
outgrown the steps taken. -/
theorem pays_of_below (quiet : g.conflicts = []) (shallow : depth ≤ floor)
    (room : B.ceiling ≤ ceiling + floor)
    (pays : ∀ below, ceiling = below + 1 → ∀ inner, Pays r B tokens (floor + 1) inner
      (enterBelow ⟨g, g.decisionTable⟩ B.limits tokens below depth inner)) :
    Pays r B tokens floor name
      (parseNonterminal ⟨g, g.decisionTable⟩ B.limits tokens ceiling depth name) := by
  constructor
  case opening =>
    intro m s from_floor first paid
    cases m with
    | zero => exact absurd first Grammar.not_mem_kinds_blank
    | succ m =>
      have steps := steps_le_potential r tokens s
      have levels : (m + 1) * r.level = m * r.level + r.level := Nat.succ_mul m r.level
      have level : 0 < r.level := Nat.succ_pos _
      refine parseNonterminal_within (by omega) (by omega) (by omega) ?_
      intro below i hbelow selected
      obtain ⟨halt, later⟩ := selected_opening quiet first selected
      have whole : [] ++ chosen ⟨g, g.decisionTable⟩ name i ∈ g.alternatives name := halt
      have fits := r.length_mul_leave_lt halt
      have one : (entry ⟨g, g.decisionTable⟩ tokens name i s).steps = s.steps + 1 := rfl
      have entered : potential r tokens (entry ⟨g, g.decisionTable⟩ tokens name i s) + s.steps
          = potential r tokens s + (entry ⟨g, g.decisionTable⟩ tokens name i s).steps :=
        potential_of_pos_eq r tokens rfl
      refine (parseSequence_opening (s := entry ⟨g, g.decisionTable⟩ tokens name i s)
        (pays below hbelow) quiet whole (by omega) later (by omega)).mono ?_
      rintro s' ⟨grown, spent⟩
      exact ⟨by omega, by omega⟩
  case leaving =>
    intro m s from_floor null behind paid
    cases m with
    | zero => cases null
    | succ m =>
      rw [Grammar.leaveCost] at paid ⊢
      refine parseNonterminal_within (by omega) (by omega) (by omega) ?_
      intro below i hbelow selected
      obtain ⟨alt, hi, taken, away, nullAlt⟩ := selected_leaving behind selected
      have found := selected_nullable quiet null hi nullAlt
      have one : (entry ⟨g, g.decisionTable⟩ tokens name i s).steps = s.steps + 1 := rfl
      have few := Nat.mul_le_mul_right (g.leaveCost m)
        (Grammar.length_le_size (List.mem_of_getElem? hi))
      rw [taken]
      refine (parseSequence_leaving (s := entry ⟨g, g.decisionTable⟩ tokens name i s)
        (pays below hbelow) (by omega) found away (by omega)).mono ?_
      rintro s' ⟨pos, grown, steps⟩
      exact ⟨pos, by omega, by omega⟩
  case refusing =>
    intro s from_floor never behind paid
    refine parseNonterminal_within (by omega) (by omega) (by omega) ?_
    intro below i hbelow selected
    obtain ⟨alt, hi, -, -, nullAlt⟩ := selected_leaving behind selected
    exact absurd (Grammar.mem_nullable_iff.2 ⟨alt, List.mem_of_getElem? hi, nullAlt⟩) never

theorem parseNonterminal_pays (quiet : g.conflicts = []) (shallow : depth ≤ floor)
    (room : B.ceiling ≤ ceiling + floor) :
    Pays r B tokens floor name
      (parseNonterminal ⟨g, g.decisionTable⟩ B.limits tokens ceiling depth name) := by
  induction ceiling generalizing depth floor name with
  | zero => exact pays_of_below quiet shallow room fun below same => by cases same
  | succ ceiling ih =>
    refine pays_of_below quiet shallow room fun below same inner => ?_
    obtain rfl := Nat.succ.inj same
    refine ih ?_ (by omega)
    split <;> omega

/-! ## Whole parses -/

/-- A constant for all parses with a grammar, read off the searches for first kinds and for nullable
nonterminals. -/
def linearBound (r : g.Rounds) : Nat :=
  r.perToken + r.first * r.level + r.leave

theorem parse_within (quiet : g.conflicts = []) (r : g.Rounds) (tokens : Array Token)
    (limits : Limits) (ceiling : Nat) (name : String) :
    Budget.Within ⟨limits, ceiling, linearBound r * (tokens.size + 1)⟩
      (fun s => s.steps ≤ linearBound r * (tokens.size + 1))
      (parseNonterminal ⟨g, g.decisionTable⟩ limits tokens ceiling 0 name .start) := by
  let B : Budget := ⟨limits, ceiling, linearBound r * (tokens.size + 1)⟩
  have pays : Pays r B tokens 0 name
      (parseNonterminal ⟨g, g.decisionTable⟩ limits tokens ceiling 0 name) :=
    parseNonterminal_pays quiet le_rfl (Nat.le_add_right _ _)
  have start : potential r tokens .start = r.perToken * tokens.size := Nat.zero_add _
  have total : r.perToken * tokens.size + r.first * r.level + r.leave ≤ B.total := by
    have spread : linearBound r * (tokens.size + 1)
        = linearBound r * tokens.size + linearBound r := Nat.mul_succ _ _
    have perToken : r.perToken * tokens.size ≤ linearBound r * tokens.size :=
      Nat.mul_le_mul_right _ (by unfold linearBound; omega)
    have rest : r.first * r.level + r.leave ≤ linearBound r := by unfold linearBound; omega
    change _ ≤ linearBound r * (tokens.size + 1)
    omega
  refine (pays.any le_rfl (start ▸ total)).mono ?_
  rintro s ⟨-, spent⟩
  have steps := steps_le_potential r tokens s
  change s.steps ≤ B.total
  omega

theorem run_steps_le {start : String} (hstart : g.start = some start) (quiet : g.conflicts = [])
    (r : g.Rounds) {tokens : Array Token} {limits : Limits} {tree : Tree} {steps : Nat}
    (returned : (⟨g, g.decisionTable⟩ : PredictiveParser).run ceiling limits tokens
      = .ok (tree, steps)) :
    steps ≤ linearBound r * (tokens.size + 1) := by
  unfold run at returned
  have known : g.start.getD "" = start := by
    rw [hstart]
    rfl
  rw [known] at returned
  obtain ⟨⟨t, s⟩, node, returned⟩ := bind_eq_ok_iff.1 returned
  dsimp only at returned
  split at returned
  · cases returned
  · cases returned
    exact (parse_within quiet r tokens limits ceiling start).returns tree s node

theorem parseBelow_cut {start : String} (hstart : g.start = some start) (quiet : g.conflicts = [])
    (r : g.Rounds) {tokens : List Token} {limits : Limits} {limit : Exhaustion}
    (failed : (⟨g, g.decisionTable⟩ : PredictiveParser).parseBelow ceiling limits tokens
      = .error (.exhausted limit)) :
    limits.allowance ceiling limit < linearBound r * (tokens.length + 1) := by
  have within := parse_within quiet r tokens.toArray limits ceiling start
  rw [parseBelow_eq hstart] at failed
  rcases bind_eq_error_iff.1 failed with failed | ⟨⟨tree, s⟩, -, failed⟩
  · exact within.cut limit failed
  · dsimp only at failed
    split at failed
    · exact absurd (Except.error.inj failed) failure_ne_exhausted
    · cases failed

/-- A predictive parse with a grammar without conflicts ends in linearly many steps, whether or not
it accepts the tokens: for the grammar there is a constant such that a parse is cut off only by
limits below that many steps, levels or calls for each token, and once more. So no parse counts
more steps or nests deeper than that. -/
theorem parseBelow_linear (valid : g.validate = .ok ()) (quiet : g.conflicts = []) :
    ∃ parser bound, ofGrammar g false = .ok parser ∧
      ∀ (tokens : List Token) (ceiling : Nat) (limits : Limits),
        (∀ tree steps, parser.run ceiling limits tokens.toArray = .ok (tree, steps) →
          steps ≤ bound * (tokens.length + 1)) ∧
        (∀ limit, parser.parseBelow ceiling limits tokens = .error (.exhausted limit) →
          limits.allowance ceiling limit < bound * (tokens.length + 1)) ∧
        (bound * (tokens.length + 1) ≤ limits.maxSteps →
          bound * (tokens.length + 1) ≤ limits.maxDepth →
          ∀ limit, parser.parseBelow ceiling limits tokens = .error (.exhausted limit) →
            limit = .nesting ∧ ceiling < bound * (tokens.length + 1)) := by
  obtain ⟨start, hstart, -⟩ := Grammar.exists_start_of_validate valid
  obtain ⟨rounds⟩ := Grammar.exists_rounds g
  refine ⟨⟨g, g.decisionTable⟩, linearBound rounds, ofGrammar_of_conflicts valid quiet false, ?_⟩
  intro tokens ceiling limits
  refine ⟨fun tree steps => run_steps_le hstart quiet rounds,
    fun limit => parseBelow_cut hstart quiet rounds, ?_⟩
  intro steps depth limit failed
  have below := parseBelow_cut hstart quiet rounds failed
  cases limit with
  | steps => exact absurd steps (Nat.not_le_of_lt below)
  | depth => exact absurd depth (Nat.not_le_of_lt below)
  | nesting => exact ⟨rfl, below⟩

/-- Statements, and a rule that goes on for ever without taking a token. -/
def endless : Grammar :=
  .assemble (some "s")
    [("s", [[.terminal .identifier, .nonterminal "value", .terminal .semicolon, .nonterminal "s"],
       [.nonterminal "loop"], []]),
     ("value", [[.terminal .equals, .terminal .integer], []]),
     ("loop", [[.nonterminal "loop", .terminal .plus]])] []

/-- The tokens of `x ; y`. -/
def endlessTokens : List Token :=
  [⟨.identifier, some "x", ⟨0, 1, 1⟩⟩, ⟨.semicolon, some ";", ⟨2, 1, 3⟩⟩,
   ⟨.identifier, some "y", ⟨4, 1, 5⟩⟩]

theorem parseBelow_linear_endless :
    endless.validate = .ok () ∧ endless.conflicts = [] ∧ endless.leftRecursive = ["loop"] ∧
      ∃ parser bound, ofGrammar endless false = .ok parser ∧
        accepted (parser.parse .standard endlessTokens) = .ok false ∧
        ∀ limit, parser.parseBelow (bound * 4) ⟨bound * 4, bound * 4⟩ endlessTokens
          ≠ .error (.exhausted limit) := by
  have valid : endless.validate = .ok () := by rfl
  have quiet : endless.conflicts = [] := by decide +kernel
  have loops : endless.leftRecursive = ["loop"] := by decide +kernel
  obtain ⟨parser, bound, strict, linear⟩ := parseBelow_linear valid quiet
  obtain ⟨-, rfl⟩ := ofGrammar_eq_ok strict
  refine ⟨valid, quiet, loops, _, bound, strict, by decide +kernel, fun limit cut => ?_⟩
  exact Nat.lt_irrefl _ ((linear endlessTokens (bound * 4) ⟨bound * 4, bound * 4⟩).2.2 le_rfl le_rfl
    limit cut).2

end PredictiveParser

end TopDown
