import TopDown.Grammar.Build
import TopDown.Parsing.Predictive
import TopDown.Proofs.Decision
import TopDown.Proofs.DerivationTree
import TopDown.Proofs.Failable
import TopDown.Proofs.Lookahead

/-
  The predictive parser and the language of its grammar.

  On every grammar, what it returns is a derivation tree of the tokens (`parseBelow_sound`), and it
  asks for the end of input as a token only if some rule does (`parseBelow_ne_endTaken`). On a
  grammar without conflicts it also misses nothing: `Arrives` says that a parse ends where a
  derivation ends, or is cut off, and along a derivation the next kind is always foreseen for the
  alternative at hand, which is then the only candidate (`parseNonterminal_arrives`).

  `parseNonterminal_limits` and `parseNonterminal_succ` are the only places that look into a call.
-/

namespace TopDown.PredictiveParser

variable {α β : Type} {parser : PredictiveParser} {limits : Limits} {tokens : Array Token}
  {name : String} {kind : Kind} {s s' : State}

/-! ## Single steps -/

theorem tick_of_lt (h : s.steps < limits.maxSteps) :
    tick limits s = .ok { s with steps := s.steps + 1 } :=
  if_neg (Nat.not_lt_of_le h)

theorem tick_of_le (h : limits.maxSteps ≤ s.steps) :
    tick limits s = .error (.exhausted (.steps limits.maxSteps s.pos)) :=
  if_pos (Nat.lt_succ_of_le h)

theorem tick_cases (limits : Limits) (s : State) :
    (∃ limit, tick limits s = .error (.exhausted limit)) ∨
      tick limits s = .ok { s with steps := s.steps + 1 } := by
  rcases Nat.lt_or_ge s.steps limits.maxSteps with more | spent
  · exact Or.inr (tick_of_lt more)
  · exact Or.inl ⟨_, tick_of_le spent⟩

theorem tick_eq_ok (h : tick limits s = .ok s') : s' = { s with steps := s.steps + 1 } := by
  rcases tick_cases limits s with ⟨limit, failed⟩ | ok
  · rw [failed] at h
    cases h
  · rw [ok] at h
    cases h
    rfl

theorem take_eq_ok {t : Tree} (h : take tokens kind s = .ok (t, s')) :
    ∃ token, tokens[s.pos]? = some token ∧ token.kind = kind ∧ t = .leaf token ∧
      s'.pos = s.pos + 1 := by
  unfold take at h
  split at h
  · cases h
  · next same =>
    split at h
    · next token here =>
      rw [look, here] at same
      cases h
      exact ⟨token, here, Decidable.not_not.1 same, rfl, rfl⟩
    · cases h

theorem take_of_getElem? {token : Token} (here : tokens[s.pos]? = some token) :
    take tokens token.kind s = .ok (.leaf token, { s with pos := s.pos + 1, skipped := ∅ }) := by
  unfold take look
  simp [here]

/-- Failures at a position are rejections. -/
theorem failure_ne_endTaken {expected : KindSet} : failure tokens s expected ≠ .endTaken := by
  unfold failure ParseFailure.atPosition
  split <;> exact fun h => by cases h

theorem failure_ne_exhausted {expected : KindSet} {limit : Exhaustion} :
    failure tokens s expected ≠ .exhausted limit := by
  unfold failure ParseFailure.atPosition
  split <;> exact fun h => by cases h

theorem take_eq_endTaken (h : take tokens kind s = .error .endTaken) : kind = .endOfInput := by
  unfold take at h
  split at h
  · exact absurd (Except.error.inj h) failure_ne_endTaken
  · next same =>
    split at h
    · cases h
    · next gone =>
      rw [look, gone] at same
      exact (Decidable.not_not.1 same).symm

/-- The alternative that is parsed when the table selects `i`. -/
def chosen (parser : PredictiveParser) (name : String) (i : Nat) : Alternative :=
  (parser.grammar.alternatives name)[i]?.getD []

/-- How a nonterminal inside a call is parsed. -/
def enterBelow (parser : PredictiveParser) (limits : Limits) (tokens : Array Token)
    (ceiling depth : Nat) (inner : String) : State → Except ParseFailure (Tree × State) :=
  parser.parseNonterminal limits tokens ceiling
    (if parser.grammar.isFactorTail inner then depth else depth + 1) inner

/-- Where the symbols of the selected alternative are parsed from. -/
def entry (parser : PredictiveParser) (tokens : Array Token) (name : String) (i : Nat)
    (s : State) : State :=
  ⟨s.pos, s.steps + 1, s.skipped ∪ givenUp (parser.table.row name) i (look tokens s)⟩

/-- Within the limits, a call has no alternative for the next kind, or parses the selected one. -/
theorem parseNonterminal_succ {depth : Nat} (shallow : depth ≤ limits.maxDepth)
    (more : s.steps < limits.maxSteps) (ceiling : Nat) (name : String) :
    parser.parseNonterminal limits tokens (ceiling + 1) depth name s =
      match parser.table.select name (look tokens s) with
      | none => .error (failure tokens s (parser.table.expected name))
      | some i => parseSequence limits tokens (parser.enterBelow limits tokens ceiling depth)
          (parser.chosen name i) (parser.entry tokens name i s) >>= fun r =>
            .ok (.node name r.1, r.2) := by
  have same : look tokens { s with steps := s.steps + 1 } = look tokens s := rfl
  rw [parseNonterminal, if_neg (Nat.not_lt_of_le shallow), tick_of_lt more]
  cases selected : parser.table.select name (look tokens s) with
  | none =>
    simp only [bind, Except.bind, same, selected]
    rfl
  | some i =>
    simp only [bind, Except.bind, same, selected]
    rfl

/-- How a call goes on: cut off for want of nesting, depth or steps, in this order, or within its
limits. -/
theorem parseNonterminal_limits (parser : PredictiveParser) (limits : Limits)
    (tokens : Array Token) (ceiling depth : Nat) (name : String) (s : State) :
    (ceiling = 0 ∧ parser.parseNonterminal limits tokens ceiling depth name s
      = .error (.exhausted .nesting)) ∨
    (limits.maxDepth < depth ∧ parser.parseNonterminal limits tokens ceiling depth name s
      = .error (.exhausted (.depth limits.maxDepth s.pos))) ∨
    (limits.maxSteps ≤ s.steps ∧ parser.parseNonterminal limits tokens ceiling depth name s
      = .error (.exhausted (.steps limits.maxSteps s.pos))) ∨
    ∃ below, ceiling = below + 1 ∧ depth ≤ limits.maxDepth ∧ s.steps < limits.maxSteps := by
  cases ceiling with
  | zero => exact Or.inl ⟨rfl, rfl⟩
  | succ below =>
    refine Or.inr ?_
    by_cases deep : limits.maxDepth < depth
    · refine Or.inl ⟨deep, ?_⟩
      rw [parseNonterminal, if_pos deep]
      rfl
    · refine Or.inr ?_
      by_cases spent : limits.maxSteps ≤ s.steps
      · refine Or.inl ⟨spent, ?_⟩
        rw [parseNonterminal, if_neg deep, tick_of_le spent]
        rfl
      · exact Or.inr ⟨below, rfl, Nat.le_of_not_lt deep, Nat.lt_of_not_le spent⟩

/-- A call is cut off, or has no alternative for the next kind, or parses the selected one. -/
theorem parseNonterminal_cases (parser : PredictiveParser) (limits : Limits) (tokens : Array Token)
    (ceiling depth : Nat) (name : String) (s : State) :
    (∃ limit, parser.parseNonterminal limits tokens ceiling depth name s
      = .error (.exhausted limit)) ∨
    (parser.table.select name (look tokens s) = none ∧
      parser.parseNonterminal limits tokens ceiling depth name s
        = .error (failure tokens s (parser.table.expected name))) ∨
    ∃ below i, ceiling = below + 1 ∧ parser.table.select name (look tokens s) = some i ∧
      parser.parseNonterminal limits tokens ceiling depth name s
        = parseSequence limits tokens (parser.enterBelow limits tokens below depth)
            (parser.chosen name i) (parser.entry tokens name i s)
          >>= fun r => .ok (.node name r.1, r.2) := by
  rcases parser.parseNonterminal_limits limits tokens ceiling depth name s with
    ⟨-, cut⟩ | ⟨-, cut⟩ | ⟨-, cut⟩ | ⟨below, rfl, shallow, more⟩
  · exact Or.inl ⟨_, cut⟩
  · exact Or.inl ⟨_, cut⟩
  · exact Or.inl ⟨_, cut⟩
  · refine Or.inr ?_
    rw [parseNonterminal_succ shallow more]
    cases selected : parser.table.select name (look tokens s) with
    | none => exact Or.inl ⟨rfl, rfl⟩
    | some i => exact Or.inr ⟨below, i, rfl, rfl, rfl⟩

/-- A call that returns has parsed the selected alternative. -/
theorem parseNonterminal_eq_ok {ceiling depth : Nat} {t : Tree}
    (h : parser.parseNonterminal limits tokens ceiling depth name s = .ok (t, s')) :
    ∃ below i ts, ceiling = below + 1 ∧ parser.table.select name (look tokens s) = some i ∧
      t = .node name ts ∧
      parseSequence limits tokens (parser.enterBelow limits tokens below depth)
        (parser.chosen name i) (parser.entry tokens name i s) = .ok (ts, s') := by
  rcases parser.parseNonterminal_cases limits tokens ceiling depth name s with
    ⟨limit, failed⟩ | ⟨-, failed⟩ | ⟨below, i, hbelow, selected, step⟩
  · rw [failed] at h
    cases h
  · rw [failed] at h
    cases h
  · rw [step] at h
    obtain ⟨⟨ts, s₂⟩, hseq, h⟩ := bind_eq_ok_iff.1 h
    cases h
    exact ⟨below, i, ts, hbelow, selected, rfl, hseq⟩

/-! ## Soundness -/

/-- Trees for the symbols that cover the tokens between two positions. -/
def Covers (g : Grammar) (tokens : Array Token) (symbols : List Symbol) (ts : List Tree)
    (pos stop : Nat) : Prop :=
  ts.map Tree.symbol = symbols ∧ (∀ t ∈ ts, t.IsDerivation g) ∧
    Segment tokens.toList pos stop (Tree.leavesOf ts)

theorem Covers.cons {g : Grammar} {a : Symbol} {symbols : List Symbol} {t : Tree} {ts : List Tree}
    {pos mid stop : Nat} (first : Covers g tokens [a] [t] pos mid)
    (rest : Covers g tokens symbols ts mid stop) :
    Covers g tokens (a :: symbols) (t :: ts) pos stop := by
  obtain ⟨symbol, derivation, leaves⟩ := first
  obtain ⟨symbols, derivations, leavesRest⟩ := rest
  rw [Tree.leavesOf_singleton] at leaves
  refine ⟨?_, ?_, ?_⟩
  · rw [List.map_cons, symbols, (List.cons.inj symbol).1]
  · exact List.forall_mem_cons.2 ⟨derivation t List.mem_cons_self, derivations⟩
  · rw [Tree.leavesOf]
    exact segment_append.2 ⟨mid, leaves, leavesRest⟩

theorem covers_leaf {g : Grammar} {token : Token} {pos : Nat}
    (here : tokens[pos]? = some token) :
    Covers g tokens [.terminal token.kind] [.leaf token] pos (pos + 1) := by
  refine ⟨rfl, ?_, ?_⟩
  · exact List.forall_mem_singleton.2 (.leaf token)
  · rw [Tree.leavesOf_singleton, Tree.leaves, segment_cons, Array.getElem?_toList]
    exact ⟨here, segment_nil.2 rfl⟩

theorem parseSequence_covers {g : Grammar}
    {enter : String → State → Except ParseFailure (Tree × State)}
    (henter : ∀ inner s t s', enter inner s = .ok (t, s') →
      Covers g tokens [.nonterminal inner] [t] s.pos s'.pos)
    {symbols : List Symbol} {ts : List Tree}
    (h : parseSequence limits tokens enter symbols s = .ok (ts, s')) :
    Covers g tokens symbols ts s.pos s'.pos := by
  induction symbols generalizing s ts with
  | nil =>
    cases h
    exact ⟨rfl, fun t ht => absurd ht List.not_mem_nil, segment_nil.2 rfl⟩
  | cons a symbols ih =>
    cases a with
    | terminal kind =>
      rw [parseSequence] at h
      obtain ⟨s₁, hs₁, h⟩ := bind_eq_ok_iff.1 h
      obtain ⟨⟨t, s₂⟩, htake, h⟩ := bind_eq_ok_iff.1 h
      obtain ⟨⟨rest, s₃⟩, hrest, h⟩ := bind_eq_ok_iff.1 h
      cases h
      obtain rfl := tick_eq_ok hs₁
      obtain ⟨token, here, rfl, rfl, hpos⟩ := take_eq_ok htake
      have covered := ih hrest
      rw [hpos] at covered
      exact (covers_leaf here).cons covered
    | nonterminal inner =>
      rw [parseSequence] at h
      obtain ⟨⟨t, s₁⟩, hinner, h⟩ := bind_eq_ok_iff.1 h
      obtain ⟨⟨rest, s₂⟩, hrest, h⟩ := bind_eq_ok_iff.1 h
      cases h
      exact (henter inner s t s₁ hinner).cons (ih hrest)

/-- What a nonterminal is parsed to is a derivation tree of the tokens that it takes. -/
theorem parseNonterminal_covers (built : parser.table = parser.grammar.decisionTable)
    {ceiling depth : Nat} {t : Tree}
    (h : parser.parseNonterminal limits tokens ceiling depth name s = .ok (t, s')) :
    Covers parser.grammar tokens [.nonterminal name] [t] s.pos s'.pos := by
  induction ceiling generalizing depth name s t s' with
  | zero => cases h
  | succ ceiling ih =>
    obtain ⟨below, i, ts, hbelow, selected, rfl, hseq⟩ := parseNonterminal_eq_ok h
    obtain rfl := Nat.succ.inj hbelow
    rw [built] at selected
    obtain ⟨alt, halt, hi⟩ := Grammar.exists_alternative_of_select selected
    have taken : parser.chosen name i = alt := by
      rw [chosen, hi]
      rfl
    rw [taken] at hseq
    obtain ⟨symbols, derivations, leaves⟩ :=
      parseSequence_covers (fun _ _ _ _ hinner => ih hinner) hseq
    refine ⟨rfl, List.forall_mem_singleton.2 (.node (symbols ▸ halt) derivations), ?_⟩
    rwa [Tree.leavesOf_singleton, Tree.leaves]

/-! ## The end of input is no token -/

theorem parseSequence_eq_endTaken {enter : String → State → Except ParseFailure (Tree × State)}
    {symbols : List Symbol}
    (h : parseSequence limits tokens enter symbols s = .error .endTaken) :
    .terminal .endOfInput ∈ symbols ∨ ∃ inner s', enter inner s' = .error .endTaken := by
  induction symbols generalizing s with
  | nil => cases h
  | cons a symbols ih =>
    have later : (∃ s', parseSequence limits tokens enter symbols s' = .error .endTaken) →
        .terminal .endOfInput ∈ a :: symbols ∨ ∃ inner s', enter inner s' = .error .endTaken := by
      rintro ⟨s', h⟩
      exact (ih h).imp_left (List.mem_cons_of_mem a)
    cases a with
    | terminal kind =>
      rw [parseSequence] at h
      rcases bind_eq_error_iff.1 h with h | ⟨s₁, -, h⟩
      · rcases tick_cases limits s with ⟨limit, failed⟩ | ok
        · rw [failed] at h
          cases h
        · rw [ok] at h
          cases h
      · rcases bind_eq_error_iff.1 h with h | ⟨⟨t, s₂⟩, -, h⟩
        · rw [take_eq_endTaken h]
          exact Or.inl List.mem_cons_self
        · rcases bind_eq_error_iff.1 h with h | ⟨⟨rest, s₃⟩, -, h⟩
          · exact later ⟨s₂, h⟩
          · cases h
    | nonterminal inner =>
      rw [parseSequence] at h
      rcases bind_eq_error_iff.1 h with h | ⟨⟨t, s₁⟩, -, h⟩
      · exact Or.inr ⟨inner, s, h⟩
      · rcases bind_eq_error_iff.1 h with h | ⟨⟨rest, s₂⟩, -, h⟩
        · exact later ⟨s₁, h⟩
        · cases h

/-- The end of input is asked for as a token only where a rule mentions it. -/
theorem parseNonterminal_eq_endTaken (built : parser.table = parser.grammar.decisionTable)
    {ceiling depth : Nat}
    (h : parser.parseNonterminal limits tokens ceiling depth name s = .error .endTaken) :
    parser.grammar.Mentions (.terminal .endOfInput) := by
  induction ceiling generalizing depth name s with
  | zero => cases h
  | succ ceiling ih =>
    rcases parser.parseNonterminal_cases limits tokens (ceiling + 1) depth name s with
      ⟨limit, failed⟩ | ⟨-, failed⟩ | ⟨below, i, hbelow, selected, step⟩
    · rw [failed] at h
      cases h
    · rw [failed] at h
      exact absurd (Except.error.inj h) failure_ne_endTaken
    · obtain rfl := Nat.succ.inj hbelow
      rw [step] at h
      rcases bind_eq_error_iff.1 h with h | ⟨⟨ts, s₂⟩, -, h⟩
      · rcases parseSequence_eq_endTaken h with mentioned | ⟨inner, s', h⟩
        · rw [built] at selected
          obtain ⟨alt, halt, hi⟩ := Grammar.exists_alternative_of_select selected
          rw [chosen, hi] at mentioned
          exact ⟨name, alt, halt, mentioned⟩
        · exact ih h
      · cases h

/-! ## Completeness without conflicts -/

/-- A parse ends at a position, or is cut off. -/
def Arrives (stop : Nat) (r : Except ParseFailure (α × State)) : Prop :=
  (∃ value s, r = .ok (value, s) ∧ s.pos = stop) ∨ ∃ limit, r = .error (.exhausted limit)

theorem Arrives.bind {mid stop : Nat} {r : Except ParseFailure (α × State)}
    {f : α × State → Except ParseFailure (β × State)} (h : Arrives mid r)
    (hf : ∀ value s, s.pos = mid → Arrives stop (f (value, s))) : Arrives stop (r >>= f) := by
  rcases h with ⟨value, s, rfl, hpos⟩ | ⟨limit, rfl⟩
  · exact hf value s hpos
  · exact Or.inr ⟨limit, rfl⟩

/-- The kind at a position, or the end of input. -/
def kindAt (kinds : List Kind) (pos : Nat) : Kind :=
  kinds[pos]?.getD .endOfInput

theorem look_eq_kindAt (tokens : Array Token) (s : State) :
    look tokens s = kindAt (tokens.toList.map Token.kind) s.pos := by
  unfold look kindAt
  rw [List.getElem?_map, Array.getElem?_toList]
  cases tokens[s.pos]? <;> rfl

/-- The kind at a position can come after the nonterminal, or the tokens end there. -/
def Awaited (g : Grammar) (kinds : List Kind) (name : String) (stop : Nat) : Prop :=
  kindAt kinds stop ∈ (g.lookahead.follow.kinds name).insert .endOfInput

/-- After the last token every nonterminal has what it awaits. -/
theorem awaited_end (g : Grammar) (tokens : List Token) (name : String) :
    Awaited g (tokens.map Token.kind) name tokens.length := by
  unfold Awaited kindAt
  rw [List.getElem?_eq_none (Nat.le_of_eq (List.length_map _))]
  exact KindSet.mem_insert.2 (Or.inl rfl)

/-- Inside an alternative, what comes after an occurrence is what its nonterminal awaits. -/
theorem awaited_inside {g : Grammar} {kinds v : List Kind} {owner : String}
    {before rest : Alternative} {mid stop : Nat}
    (halt : before ++ .nonterminal name :: rest ∈ g.alternatives owner)
    (hv : v ∈ Alternative.language g.language rest) (hseg : Segment kinds mid stop v)
    (awaited : Awaited g kinds owner stop) : Awaited g kinds name mid := by
  have foreseen := Grammar.foresees_of_mem hv
  unfold Awaited at awaited ⊢
  cases v with
  | nil =>
    obtain rfl := segment_nil.1 hseg
    rw [KindSet.mem_insert] at awaited ⊢
    exact awaited.imp_right (Grammar.mem_follow_of_owner halt foreseen)
  | cons kind v =>
    rw [kindAt, (segment_cons.1 hseg).1, Option.getD_some, KindSet.mem_insert]
    exact Or.inr (Grammar.mem_follow_of_first halt foreseen)

/-- The alternative of a derivation is a candidate where the derivation begins. -/
theorem candidate_of_derivation {g : Grammar} {kinds u : List Kind} {alt : Alternative} {i : Nat}
    {pos stop : Nat} (hi : (g.alternatives name)[i]? = some alt)
    (hu : u ∈ Alternative.language g.language alt) (hseg : Segment kinds pos stop u)
    (awaited : Awaited g kinds name stop) :
    i ∈ g.decisionTable.candidates name (kindAt kinds pos) := by
  have foreseen := Grammar.foresees_of_mem hu
  rw [Grammar.mem_candidates_iff hi]
  cases u with
  | nil =>
    obtain rfl := segment_nil.1 hseg
    exact Or.inr ⟨foreseen, awaited⟩
  | cons kind u =>
    rw [kindAt, (segment_cons.1 hseg).1, Option.getD_some]
    exact Or.inl foreseen

theorem parseSequence_arrives {g : Grammar} {owner : String} {stop : Nat}
    {enter : String → State → Except ParseFailure (Tree × State)}
    (henter : ∀ inner u s stop, u ∈ g.language inner →
      Segment (tokens.toList.map Token.kind) s.pos stop u →
      Awaited g (tokens.toList.map Token.kind) inner stop → Arrives stop (enter inner s))
    (awaited : Awaited g (tokens.toList.map Token.kind) owner stop)
    {before symbols : List Symbol} (halt : before ++ symbols ∈ g.alternatives owner)
    {w : List Kind} (hw : w ∈ Alternative.language g.language symbols)
    (hseg : Segment (tokens.toList.map Token.kind) s.pos stop w) :
    Arrives stop (parseSequence limits tokens enter symbols s) := by
  induction symbols generalizing before s w with
  | nil =>
    rw [Alternative.language_nil, Language.mem_one] at hw
    subst hw
    exact Or.inl ⟨[], s, rfl, (segment_nil.1 hseg).symm⟩
  | cons a symbols ih =>
    have shifted : (before ++ [a]) ++ symbols ∈ g.alternatives owner := by
      rwa [List.append_assoc]
    rw [Alternative.language_cons] at hw
    obtain ⟨u, hu, v, hv, rfl⟩ := Language.mem_mul.1 hw
    obtain ⟨mid, segU, segV⟩ := segment_append.1 hseg
    cases a with
    | terminal kind =>
      obtain rfl := Symbol.mem_language_terminal.1 hu
      rw [segment_cons, List.getElem?_map, Array.getElem?_toList, Option.map_eq_some_iff,
        segment_nil] at segU
      obtain ⟨⟨token, here, rfl⟩, rfl⟩ := segU
      rw [parseSequence]
      rcases tick_cases limits s with ⟨limit, failed⟩ | ok
      · rw [failed]
        exact Or.inr ⟨limit, rfl⟩
      · rw [ok]
        have taken : Arrives (s.pos + 1) (take tokens token.kind { s with steps := s.steps + 1 }) :=
          Or.inl ⟨_, _, take_of_getElem? here, rfl⟩
        refine taken.bind fun t s₂ hs₂ => ?_
        rw [← hs₂] at segV
        refine (ih shifted hv segV).bind fun rest s₃ hs₃ => ?_
        exact Or.inl ⟨_, s₃, rfl, hs₃⟩
    | nonterminal inner =>
      rw [parseSequence]
      refine (henter inner u s mid hu segU (awaited_inside halt hv segV awaited)).bind ?_
      intro t s₁ hs₁
      rw [← hs₁] at segV
      refine (ih shifted hv segV).bind fun rest s₂ hs₂ => ?_
      exact Or.inl ⟨_, s₂, rfl, hs₂⟩

/-- Without conflicts, a nonterminal is parsed to the end of any word that it derives and after
which the tokens go on as awaited. -/
theorem parseNonterminal_arrives (built : parser.table = parser.grammar.decisionTable)
    (quiet : parser.grammar.conflicts = []) {ceiling depth stop : Nat} {w : List Kind}
    (hw : w ∈ parser.grammar.language name)
    (hseg : Segment (tokens.toList.map Token.kind) s.pos stop w)
    (awaited : Awaited parser.grammar (tokens.toList.map Token.kind) name stop) :
    Arrives stop (parser.parseNonterminal limits tokens ceiling depth name s) := by
  induction ceiling generalizing depth name s stop w with
  | zero => exact Or.inr ⟨_, rfl⟩
  | succ ceiling ih =>
    obtain ⟨alt, halt, hu⟩ := Grammar.exists_alternative hw
    obtain ⟨i, hi⟩ := List.getElem?_of_mem halt
    have candidate := candidate_of_derivation hi hu hseg awaited
    have select : parser.table.select name (look tokens s) = some i := by
      rw [built, look_eq_kindAt]
      exact DecisionTable.select_eq_some quiet candidate
    rcases parser.parseNonterminal_cases limits tokens (ceiling + 1) depth name s with
      cut | ⟨none, -⟩ | ⟨below, j, hbelow, selected, step⟩
    · exact Or.inr cut
    · rw [none] at select
      cases select
    · obtain rfl := Nat.succ.inj hbelow
      obtain rfl := Option.some.inj (selected.symm.trans select)
      have taken : parser.chosen name j = alt := by
        rw [chosen, hi]
        rfl
      have whole : [] ++ alt ∈ parser.grammar.alternatives name := halt
      rw [step, taken]
      refine Arrives.bind (parseSequence_arrives ?_ awaited whole hu hseg) ?_
      · intro inner u s stop hu hseg awaited
        exact ih hu hseg awaited
      · intro ts s₂ hs₂
        exact Or.inl ⟨_, s₂, rfl, hs₂⟩

/-! ## Whole parses -/

theorem ofGrammar_eq_ok {g : Grammar} {allowConflicts : Bool}
    (h : ofGrammar g allowConflicts = .ok parser) :
    g.validate = .ok () ∧ parser = ⟨g, g.decisionTable⟩ := by
  unfold ofGrammar at h
  cases hv : g.validate with
  | error e =>
    rw [hv] at h
    cases h
  | ok u =>
    rw [hv] at h
    refine ⟨rfl, ?_⟩
    dsimp only [bind, Except.bind] at h
    split at h
    · cases h
    · cases h
      rfl

/-- A valid grammar without conflicts has a parser. -/
theorem ofGrammar_of_conflicts {g : Grammar} (valid : g.validate = .ok ())
    (quiet : g.conflicts = []) (allowConflicts : Bool) :
    ofGrammar g allowConflicts = .ok ⟨g, g.decisionTable⟩ := by
  have none : g.decisionTable.conflicts.isEmpty = true := List.isEmpty_iff.2 quiet
  unfold ofGrammar
  rw [valid]
  simp [none]

/-- When conflicts are allowed, every valid grammar has a parser. -/
theorem ofGrammar_allowing {g : Grammar} (valid : g.validate = .ok ()) :
    ofGrammar g true = .ok ⟨g, g.decisionTable⟩ := by
  unfold ofGrammar
  rw [valid]
  simp

/-- A parse is a call of the start symbol that has to reach the end of the tokens. -/
theorem parseBelow_eq {ceiling : Nat} {tokens : List Token} {start : String}
    (hstart : parser.grammar.start = some start) :
    parser.parseBelow ceiling limits tokens
      = parser.parseNonterminal limits tokens.toArray ceiling 0 start .start >>= fun r =>
          if r.2.pos < tokens.length then
            .error (failure tokens.toArray r.2 (KindSet.singleton .endOfInput))
          else .ok r.1 := by
  unfold parseBelow run
  rw [hstart, Option.getD_some]
  dsimp only
  cases parser.parseNonterminal limits tokens.toArray ceiling 0 start .start with
  | error e => rfl
  | ok r =>
    obtain ⟨t, s⟩ := r
    by_cases short : s.pos < tokens.length
    · simp only [bind, Except.bind, List.size_toArray, if_pos short]
      rfl
    · simp only [bind, Except.bind, List.size_toArray, if_neg short]
      rfl

/-- What the parser returns is a derivation tree of the tokens. -/
theorem parseBelow_sound {ceiling : Nat} {tokens : List Token} {tree : Tree} {start : String}
    (built : parser.table = parser.grammar.decisionTable)
    (hstart : parser.grammar.start = some start)
    (h : parser.parseBelow ceiling limits tokens = .ok tree) :
    tree.IsDerivation parser.grammar ∧ tree.symbol = .nonterminal start ∧ tree.leaves = tokens := by
  rw [parseBelow_eq hstart] at h
  obtain ⟨⟨t, s⟩, hnode, h⟩ := bind_eq_ok_iff.1 h
  dsimp only at h
  split at h
  · cases h
  · next reached =>
    cases h
    obtain ⟨symbol, derivation, leaves⟩ := parseNonterminal_covers built hnode
    have covered : Segment tokens 0 s.pos tree.leaves := by
      rwa [Tree.leavesOf_singleton] at leaves
    have stop : s.pos = tokens.length := by
      have := covered.le_length (Nat.zero_le _)
      omega
    rw [stop, segment_whole] at covered
    exact ⟨derivation tree List.mem_cons_self, (List.cons.inj symbol).1, covered⟩

theorem parseBelow_ne_endTaken {ceiling : Nat} {tokens : List Token} {start : String}
    (built : parser.table = parser.grammar.decisionTable)
    (hstart : parser.grammar.start = some start)
    (unmentioned : ¬ parser.grammar.Mentions (.terminal .endOfInput)) :
    parser.parseBelow ceiling limits tokens ≠ .error .endTaken := by
  intro h
  rw [parseBelow_eq hstart] at h
  rcases bind_eq_error_iff.1 h with h | ⟨⟨t, s⟩, -, h⟩
  · exact unmentioned (parseNonterminal_eq_endTaken built h)
  · dsimp only at h
    split at h
    · exact failure_ne_endTaken (Except.error.inj h)
    · cases h

/-- Without conflicts, a word of the language is parsed, unless the parse is cut off. -/
theorem parseBelow_complete {ceiling : Nat} {tokens : List Token} {start : String}
    (built : parser.table = parser.grammar.decisionTable)
    (hstart : parser.grammar.start = some start) (quiet : parser.grammar.conflicts = [])
    (hw : tokens.map Token.kind ∈ parser.grammar.language start) :
    (∃ tree, parser.parseBelow ceiling limits tokens = .ok tree) ∨
      ∃ limit, parser.parseBelow ceiling limits tokens = .error (.exhausted limit) := by
  have whole := segment_map_whole Token.kind tokens
  have ended := awaited_end parser.grammar tokens start
  rw [parseBelow_eq hstart]
  have arrives : Arrives tokens.length
      (parser.parseNonterminal limits tokens.toArray ceiling 0 start .start) :=
    parseNonterminal_arrives built quiet hw whole ended
  rcases arrives with ⟨t, s, ok, hpos⟩ | ⟨limit, cut⟩
  · rw [ok]
    refine Or.inl ⟨t, if_neg ?_⟩
    simp only
    omega
  · rw [cut]
    exact Or.inr ⟨limit, rfl⟩

/-- Without conflicts, a predictive parse that is not cut off answers whether the tokens are in the
language. -/
theorem exists_answer {start : String} {ceiling : Nat} {tokens : List Token}
    (built : parser.table = parser.grammar.decisionTable)
    (hstart : parser.grammar.start = some start) (quiet : parser.grammar.conflicts = [])
    (unmentioned : ¬ parser.grammar.Mentions (.terminal .endOfInput))
    (uncut : ∀ limit, parser.parseBelow ceiling limits tokens ≠ .error (.exhausted limit)) :
    ∃ answer, accepted (parser.parseBelow ceiling limits tokens) = .ok answer ∧
      (answer = true ↔ tokens.map Token.kind ∈ parser.grammar.language start) := by
  refine exists_accepted uncut (parseBelow_ne_endTaken built hstart unmentioned) ?_ ?_
  · intro tree returned
    obtain ⟨derivation, symbol, leaves⟩ := parseBelow_sound built hstart returned
    exact derivation.mem_language_start symbol leaves
  · intro hw
    rcases parseBelow_complete built hstart quiet hw with returned | ⟨limit, cut⟩
    · exact returned
    · exact absurd cut (uncut limit)

/-- The parser of a valid grammar without a terminal for the end of input returns only derivation
trees of the tokens, whether or not conflicts are allowed, and never takes the end of input for a
token. Without conflicts it decides the language, as far as it is not cut off. -/
theorem parseBelow_sound_and_exact {g : Grammar} (valid : g.validate = .ok ())
    (plain : .endOfInput ∉ g.terminals) :
    ∃ start parser, g.start = some start ∧ ofGrammar g true = .ok parser ∧
      (∀ ceiling limits tokens,
        (∀ tree, parser.parseBelow ceiling limits tokens = .ok tree →
          tree.IsDerivation g ∧ tree.symbol = .nonterminal start ∧ tree.leaves = tokens) ∧
        parser.parseBelow ceiling limits tokens ≠ .error .endTaken) ∧
      (g.conflicts = [] → ofGrammar g false = .ok parser ∧
        ∀ ceiling limits tokens,
          (∀ limit, parser.parseBelow ceiling limits tokens ≠ .error (.exhausted limit)) →
          ((∃ tree, parser.parseBelow ceiling limits tokens = .ok tree) ↔
            g.Derives [.nonterminal start] (tokens.map fun token => .terminal token.kind))) := by
  obtain ⟨start, hstart, -⟩ := Grammar.exists_start_of_validate valid
  have unmentioned : ¬ g.Mentions (.terminal .endOfInput) :=
    fun h => plain (Grammar.mem_terminals.2 h)
  obtain ⟨parser, built⟩ : ∃ parser, ofGrammar g true = .ok parser := ⟨_, ofGrammar_allowing valid⟩
  obtain ⟨-, hparser⟩ := ofGrammar_eq_ok built
  have table : parser.table = parser.grammar.decisionTable := by rw [hparser]
  obtain rfl : parser.grammar = g := by rw [hparser]
  refine ⟨start, parser, hstart, built, ?_, ?_⟩
  · intro ceiling limits tokens
    refine ⟨fun tree returned => parseBelow_sound table hstart returned, ?_⟩
    exact parseBelow_ne_endTaken table hstart unmentioned
  · intro quiet
    refine ⟨hparser ▸ ofGrammar_of_conflicts valid quiet false, ?_⟩
    intro ceiling limits tokens uncut
    have word : tokens.map (fun token => Symbol.terminal token.kind)
        = (tokens.map Token.kind).map .terminal := by
      rw [List.map_map]
      rfl
    rw [word, ← Grammar.mem_language]
    constructor
    · rintro ⟨tree, returned⟩
      obtain ⟨derivation, symbol, leaves⟩ := parseBelow_sound table hstart returned
      exact derivation.mem_language_start symbol leaves
    · intro hw
      rcases parseBelow_complete table hstart quiet hw with returned | ⟨limit, cut⟩
      · exact returned
      · exact absurd cut (uncut limit)

/-- Calls inside calls, with or without arguments. -/
def callChains : Grammar :=
  .assemble (some "call")
    [("call", [[.terminal .identifier, .terminal .openParen, .nonterminal "args",
       .terminal .closeParen]]),
     ("args", [[.nonterminal "call", .nonterminal "more"], []]),
     ("more", [[.terminal .comma, .nonterminal "call", .nonterminal "more"], []])] []

/-- The tokens of `f(g())`. -/
def callChainTokens : List Token :=
  [⟨.identifier, some "f", ⟨0, 1, 1⟩⟩, ⟨.openParen, some "(", ⟨1, 1, 2⟩⟩,
   ⟨.identifier, some "g", ⟨2, 1, 3⟩⟩, ⟨.openParen, some "(", ⟨3, 1, 4⟩⟩,
   ⟨.closeParen, some ")", ⟨4, 1, 5⟩⟩, ⟨.closeParen, some ")", ⟨5, 1, 6⟩⟩]

theorem parseBelow_sound_and_exact_callChains :
    callChains.validate = .ok () ∧ .endOfInput ∉ callChains.terminals ∧
      callChains.conflicts = [] ∧
      ∃ parser tree, ofGrammar callChains false = .ok parser ∧
        parser.parse .standard callChainTokens = .ok tree ∧ tree.IsDerivation callChains ∧
        tree.leaves = callChainTokens ∧
        ¬ callChains.Derives [.nonterminal "call"] [.terminal .identifier] := by
  have valid : callChains.validate = .ok () := by rfl
  have plain : .endOfInput ∉ callChains.terminals := by decide +kernel
  have quiet : callChains.conflicts = [] := by decide +kernel
  obtain ⟨start, parser, hstart, -, sound, decides⟩ := parseBelow_sound_and_exact valid plain
  cases hstart
  obtain ⟨strict, answers⟩ := decides quiet
  obtain ⟨-, rfl⟩ := ofGrammar_eq_ok strict
  let parser : PredictiveParser := ⟨callChains, callChains.decisionTable⟩
  have accepts : accepted (parser.parse .standard callChainTokens) = .ok true := by decide +kernel
  have rejects : accepted (parser.parse .standard (callChainTokens.take 1)) = .ok false := by
    decide +kernel
  obtain ⟨tree, returned⟩ := exists_ok_of_accepted accepts
  obtain ⟨derivation, -, leaves⟩ := (sound _ _ _).1 tree returned
  refine ⟨valid, plain, quiet, _, tree, strict, returned, derivation, leaves, ?_⟩
  intro derives
  obtain ⟨tree, returned⟩ := (answers _ _ _ (ne_exhausted_of_accepted rejects)).2 derives
  have both := rejects.symm.trans (congrArg accepted returned)
  cases both

end TopDown.PredictiveParser
