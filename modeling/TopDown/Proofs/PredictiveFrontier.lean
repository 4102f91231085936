import TopDown.Proofs.Frontier
import TopDown.Proofs.Predictive

/-
  Where the predictive parser says that the tokens leave the language.

  A parse that fails is a run of a small stack machine: `Fails symbols f f'` follows the selected
  alternatives from the frontier `f`, which is the next token with the kinds given up there, to the
  failure `f'` (`parseBelow_fails`). In a grammar without conflicts such a run answers for all
  other choices of alternatives as well (`Fails.covers`): an alternative that is not selected is no
  candidate, so all it can want is wanted at once, and that is either among the kinds given up or
  behind a token that the selected alternative takes (`Fails.advances`).

  Which kinds may come is a matter of the whole stack. `Stacked` says that what stands after each
  nonterminal on it is foreseen by what follows the nonterminal.
-/

namespace TopDown

open PredictiveParser (kindAt givenUp)

variable {g : Grammar} {tokens : Array Token} {name owner start : String} {alt : Alternative}
  {symbols rest : List Symbol} {f f' : Frontier} {kind : Kind} {place : Nat}

/-! ## Stacks -/

/-- The symbols may come after the nonterminal: what they can begin with follows it, and so does the
end of input when they can be left out. -/
structure Continues (g : Grammar) (name : String) (rest : List Symbol) : Prop where
  first : ∀ kind ∈ g.lookahead.firstOf rest, kind ∈ g.lookahead.follow.kinds name
  last : g.lookahead.isNullable rest = true → .endOfInput ∈ g.lookahead.follow.kinds name

/-- After each nonterminal come symbols that may come after it. -/
def Stacked (g : Grammar) : List Symbol → Prop
  | [] => True
  | .terminal _ :: rest => Stacked g rest
  | .nonterminal name :: rest => Continues g name rest ∧ Stacked g rest

/-- What opens an alternative and the symbols after it opens the alternative, or follows the
nonterminal when the alternative can be left out. -/
theorem Continues.of_opens (h : Continues g name rest)
    (opens : g.lookahead.Opens (alt ++ rest) kind) :
    kind ∈ g.lookahead.firstOf alt ∨
      g.lookahead.isNullable alt = true ∧ kind ∈ g.lookahead.follow.kinds name := by
  rcases opens with first | ⟨rfl, null⟩
  · refine (Lookahead.mem_firstOf_append.1 first).imp_right ?_
    exact fun ⟨null, first⟩ => ⟨null, h.first kind first⟩
  · obtain ⟨null, nullRest⟩ := Lookahead.isNullable_append.1 null
    exact Or.inr ⟨null, h.last nullRest⟩

theorem Continues.inside {before after : Alternative} (h : Continues g owner rest)
    (halt : before ++ .nonterminal name :: after ∈ g.alternatives owner) :
    Continues g name (after ++ rest) where
  first kind hk := by
    rcases Lookahead.mem_firstOf_append.1 hk with hk | ⟨null, hk⟩
    · exact Grammar.mem_follow_of_first halt hk
    · exact Grammar.mem_follow_of_owner halt null (h.first kind hk)
  last null := by
    obtain ⟨null, nullRest⟩ := Lookahead.isNullable_append.1 null
    exact Grammar.mem_follow_of_owner halt null (h.last nullRest)

theorem Stacked.enter (h : Stacked g (.nonterminal name :: rest))
    (halt : alt ∈ g.alternatives name) : Stacked g (alt ++ rest) := by
  -- by induction on what is left of the alternative after the symbols before
  suffices ∀ before after, before ++ after ∈ g.alternatives name → Stacked g (after ++ rest) from
    this [] alt halt
  intro before after hsplit
  induction after generalizing before with
  | nil => exact h.2
  | cons a after ih =>
    have shifted : (before ++ [a]) ++ after ∈ g.alternatives name := by
      rwa [List.append_assoc]
    cases a with
    | terminal kind => exact ih (before ++ [.terminal kind]) shifted
    | nonterminal inner =>
      exact ⟨h.1.inside hsplit, ih (before ++ [.nonterminal inner]) shifted⟩

theorem stacked_start (hstart : g.start = some start) (declared : start ∈ g.nonterminals) :
    Stacked g [.nonterminal start] := by
  refine ⟨⟨?_, ?_⟩, trivial⟩
  · exact fun kind hk => absurd hk (KindSet.not_mem_empty kind)
  · exact fun _ => Grammar.endOfInput_mem_follow hstart declared

/-! ## Runs that fail -/

/-- Parsed from the frontier `f` by selected alternatives only, the symbols fail at `f'`. -/
inductive Fails (g : Grammar) (tokens : Array Token) : List Symbol → Frontier → Frontier → Prop
    where
  | unfinished {f : Frontier} (more : f.place ≠ tokens.size) :
      Fails g tokens [] f ⟨f.place, KindSet.singleton .endOfInput ∪ f.kinds⟩
  | refused {kind : Kind} {rest : List Symbol} {f : Frontier}
      (other : ∀ token, tokens[f.place]? = some token → token.kind ≠ kind) :
      Fails g tokens (.terminal kind :: rest) f ⟨f.place, KindSet.singleton kind ∪ f.kinds⟩
  | taken {token : Token} {rest : List Symbol} {f f' : Frontier}
      (here : tokens[f.place]? = some token) (later : Fails g tokens rest ⟨f.place + 1, ∅⟩ f') :
      Fails g tokens (.terminal token.kind :: rest) f f'
  | unselected {name : String} {rest : List Symbol} {f : Frontier}
      (none : g.decisionTable.select name (kindAt (tokens.toList.map Token.kind) f.place) = none) :
      Fails g tokens (.nonterminal name :: rest) f
        ⟨f.place, g.decisionTable.expected name ∪ f.kinds⟩
  | selected {name : String} {i : Nat} {alt : Alternative} {rest : List Symbol} {f f' : Frontier}
      (select : g.decisionTable.select name (kindAt (tokens.toList.map Token.kind) f.place)
        = some i)
      (halt : (g.alternatives name)[i]? = some alt)
      (later : Fails g tokens (alt ++ rest) ⟨f.place, f.kinds ∪ givenUp (g.decisionTable.row name) i
        (kindAt (tokens.toList.map Token.kind) f.place)⟩ f') :
      Fails g tokens (.nonterminal name :: rest) f f'

/-- What has been given up is not forgotten. -/
theorem Fails.le (h : Fails g tokens symbols f f') : f ≤ f' := by
  induction h with
  | unfinished more => exact Or.inr ⟨rfl, fun kind hk => KindSet.mem_union.2 (Or.inr hk)⟩
  | refused other => exact Or.inr ⟨rfl, fun kind hk => KindSet.mem_union.2 (Or.inr hk)⟩
  | taken here later ih => exact Or.inl (Frontier.place_le ih)
  | unselected none => exact Or.inr ⟨rfl, fun kind hk => KindSet.mem_union.2 (Or.inr hk)⟩
  | selected select halt later ih =>
    refine le_trans ?_ ih
    exact Or.inr ⟨rfl, fun kind hk => KindSet.mem_union.2 (Or.inl hk)⟩

theorem Fails.reaches (h : Fails g tokens symbols f f') :
    Reaches g tokens symbols f.place f'.place := by
  induction h with
  | unfinished more => exact .here
  | refused other => exact .here
  | taken here later ih => exact .taken here ih
  | unselected none => exact .here
  | selected select halt later ih => exact .entered (List.mem_of_getElem? halt) ih

/-! ## One run for all choices -/

theorem kindAt_of_getElem? {token : Token} {pos : Nat} (here : tokens[pos]? = some token) :
    kindAt (tokens.toList.map Token.kind) pos = token.kind := by
  rw [kindAt, List.getElem?_map, Array.getElem?_toList, here]
  rfl

theorem kindAt_of_none {pos : Nat} (gone : tokens[pos]? = none) :
    kindAt (tokens.toList.map Token.kind) pos = .endOfInput := by
  rw [kindAt, List.getElem?_map, Array.getElem?_toList, gone]
  rfl

/-- An alternative that can begin with a kind, with the symbols after it, is a candidate. -/
theorem Continues.candidate (h : Continues g name rest) {i : Nat}
    (hi : (g.alternatives name)[i]? = some alt)
    (opens : g.lookahead.Opens (alt ++ rest) kind) :
    i ∈ g.decisionTable.candidates name kind := by
  rw [Grammar.mem_candidates_iff hi]
  refine (h.of_opens opens).imp_right fun ⟨null, follows⟩ => ⟨null, ?_⟩
  exact KindSet.mem_insert.2 (Or.inr follows)

/-- What a nonterminal and the symbols after it can begin with is foreseen through one of the
alternatives. -/
theorem exists_alternative_of_firstOf (h : kind ∈ g.lookahead.firstOf (.nonterminal name :: rest)) :
    ∃ (i : Nat) (alt : Alternative), (g.alternatives name)[i]? = some alt ∧
      kind ∈ g.lookahead.firstOf (alt ++ rest) := by
  rw [Lookahead.mem_firstOf_cons] at h
  rcases h with first | ⟨null, first⟩
  · obtain ⟨alt, halt, first⟩ := Grammar.mem_first_iff.1 first
    obtain ⟨i, hi⟩ := List.getElem?_of_mem halt
    exact ⟨i, alt, hi, Lookahead.mem_firstOf_append.2 (Or.inl first)⟩
  · obtain ⟨alt, halt, null⟩ := Grammar.mem_nullable_iff.1 null
    obtain ⟨i, hi⟩ := List.getElem?_of_mem halt
    exact ⟨i, alt, hi, Lookahead.mem_firstOf_append.2 (Or.inr ⟨null, first⟩)⟩

/-- A run does not fail at a token that the symbols can begin with. -/
theorem Fails.advances (quiet : g.conflicts = []) (h : Fails g tokens symbols f f')
    (stacked : Stacked g symbols) {token : Token} (here : tokens[f.place]? = some token)
    (first : token.kind ∈ g.lookahead.firstOf symbols) : f.place < f'.place := by
  induction h with
  | unfinished more => exact absurd first (KindSet.not_mem_empty _)
  | refused other => exact absurd (KindSet.mem_singleton.1 first) (other token here)
  | taken _ later => exact Frontier.place_le later.le
  | unselected none =>
    obtain ⟨i, alt, hi, first⟩ := exists_alternative_of_firstOf first
    obtain ⟨j, selected⟩ := DecisionTable.exists_select (stacked.1.candidate hi (Or.inl first))
    rw [kindAt_of_getElem? here, selected] at none
    cases none
  | @selected name i alt rest f f' select halt later ih =>
    obtain ⟨j, other, hj, first⟩ := exists_alternative_of_firstOf first
    have candidate := stacked.1.candidate hj (Or.inl first)
    rw [kindAt_of_getElem? here] at select
    obtain rfl := DecisionTable.candidates_unique quiet candidate
      (DecisionTable.mem_candidates_of_select select)
    obtain rfl := Option.some.inj (hj.symm.trans halt)
    exact ih (stacked.enter (List.mem_of_getElem? halt)) here first

/-- Where an alternative can only be left out, all that the others can begin with is given up. -/
theorem mem_givenUp {i j : Nat} {other : Alternative} (hij : j ≠ i)
    (hi : (g.alternatives name)[i]? = some alt) (hj : (g.alternatives name)[j]? = some other)
    (null : g.lookahead.isNullable alt = true) {next : Kind}
    (behind : next ∉ g.lookahead.firstOf alt) (first : kind ∈ g.lookahead.firstOf other) :
    kind ∈ givenUp (g.decisionTable.row name) i next := by
  unfold givenUp
  rw [Grammar.row_decisionTable, List.getElem?_map, hi]
  rw [if_pos (by simp [null, behind]), KindSet.mem_unions]
  let prospect : Prospect := ⟨g.lookahead.firstOf other, g.lookahead.isNullable other⟩
  refine ⟨prospect.first, List.mem_map_of_mem (List.mem_eraseIdx_iff_getElem?.2 ⟨j, hij, ?_⟩), first⟩
  rw [List.getElem?_map, hj]
  rfl

/-- Two alternatives that can both be left out are in conflict at the end of input. -/
theorem eq_of_isNullable (quiet : g.conflicts = []) {i j : Nat} {other : Alternative}
    (hi : (g.alternatives name)[i]? = some alt) (hj : (g.alternatives name)[j]? = some other)
    (null : g.lookahead.isNullable alt = true) (nullOther : g.lookahead.isNullable other = true) :
    i = j := by
  have ended : .endOfInput ∈ (g.lookahead.follow.kinds name).insert .endOfInput :=
    KindSet.mem_insert.2 (Or.inl rfl)
  exact DecisionTable.candidates_unique quiet
    ((Grammar.mem_candidates_iff hi).2 (Or.inr ⟨null, ended⟩))
    ((Grammar.mem_candidates_iff hj).2 (Or.inr ⟨nullOther, ended⟩))

/-- The end of input is no first kind of an alternative, unless it is a terminal. -/
theorem endOfInput_notMem_firstOf (plain : ¬ g.Mentions (.terminal .endOfInput))
    (halt : alt ∈ g.alternatives name) : .endOfInput ∉ g.lookahead.firstOf alt := by
  intro first
  rcases Alternative.mem_first_cases first with here | ⟨inner, -, first⟩
  · exact plain ⟨name, alt, halt, here⟩
  · exact plain (Grammar.mentions_of_mem_first first)

/-- What is wanted where no alternative is selected is expected. -/
theorem mem_expected_of_opens (plain : ¬ g.Mentions (.terminal .endOfInput))
    (continues : Continues g name rest) (halt : alt ∈ g.alternatives name)
    (opens : g.lookahead.Opens (alt ++ rest) kind) :
    kind ∈ g.decisionTable.expected name := by
  obtain ⟨i, hi⟩ := List.getElem?_of_mem halt
  rw [DecisionTable.mem_expected]
  refine ⟨⟨i, continues.candidate hi opens⟩, ?_⟩
  rintro rfl
  rcases continues.of_opens opens with first | ⟨-, follows⟩
  · exact absurd first (endOfInput_notMem_firstOf plain halt)
  · exact follows

/-- What another alternative wants, next to the selected one, lies below the failure. -/
theorem Fails.covers_other (quiet : g.conflicts = [])
    (plain : ¬ g.Mentions (.terminal .endOfInput)) {i j : Nat} {other : Alternative}
    (select : g.decisionTable.select name (kindAt (tokens.toList.map Token.kind) f.place) = some i)
    (hi : (g.alternatives name)[i]? = some alt) (hj : (g.alternatives name)[j]? = some other)
    (hij : j ≠ i) (stacked : Stacked g (.nonterminal name :: rest))
    (later : Fails g tokens (alt ++ rest) ⟨f.place, f.kinds ∪ givenUp (g.decisionTable.row name) i
      (kindAt (tokens.toList.map Token.kind) f.place)⟩ f')
    (wants : Wants g tokens (other ++ rest) f.place place kind) :
    Frontier.want place kind ≤ f' := by
  have candidate := DecisionTable.mem_candidates_of_select select
  have halt := List.mem_of_getElem? hi
  rcases wants.foreseen with ⟨rfl, opens⟩ | ⟨-, token, here, first⟩
  · by_cases first : kindAt (tokens.toList.map Token.kind) f.place ∈ g.lookahead.firstOf alt
    · -- the selected alternative takes the next token
      cases here : tokens[f.place]? with
      | none =>
        rw [kindAt_of_none here] at first
        exact absurd first (endOfInput_notMem_firstOf plain halt)
      | some token =>
        rw [kindAt_of_getElem? here] at first
        have advances := later.advances quiet (stacked.enter halt) here
          (Lookahead.mem_firstOf_append.2 (Or.inl first))
        exact Frontier.want_le_iff.2 (Or.inl advances)
    · -- the selected alternative can be left out, and then the other one cannot
      obtain ⟨null, -⟩ := ((Grammar.mem_candidates_iff hi).1 candidate).resolve_left first
      rcases stacked.1.of_opens opens with wanted | ⟨nullOther, -⟩
      · have given := mem_givenUp hij hi hj null first wanted
        refine le_trans ?_ later.le
        exact Frontier.want_le_iff.2 (Or.inr ⟨rfl, KindSet.mem_union.2 (Or.inr given)⟩)
      · exact absurd (eq_of_isNullable quiet hi hj null nullOther).symm hij
  · rw [kindAt_of_getElem? here] at candidate
    exact absurd (DecisionTable.candidates_unique quiet (stacked.1.candidate hj (Or.inl first))
      candidate) hij

/-- Without conflicts, a run that fails answers for every choice of alternatives: whatever any of
them wants lies below its failure. -/
theorem Fails.covers (quiet : g.conflicts = []) (plain : ¬ g.Mentions (.terminal .endOfInput))
    (h : Fails g tokens symbols f f') (stacked : Stacked g symbols)
    (wants : Wants g tokens symbols f.place place kind) : Frontier.want place kind ≤ f' := by
  have wanted : ∀ {kind : Kind} {more kinds : KindSet} {place : Nat}, kind ∈ more →
      Frontier.want place kind ≤ ⟨place, more ∪ kinds⟩ := fun hk =>
    Frontier.want_le_iff.2 (Or.inr ⟨rfl, KindSet.mem_union.2 (Or.inl hk)⟩)
  induction h generalizing place kind with
  | unfinished more =>
    cases wants
    exact wanted (KindSet.mem_singleton.2 rfl)
  | refused other =>
    cases wants with
    | refused => exact wanted (KindSet.mem_singleton.2 rfl)
    | taken here => exact absurd rfl (other _ here)
  | @taken token rest f f' here later ih =>
    generalize same : token.kind = next at wants
    cases wants with
    | refused other => exact absurd same (other _ here)
    | taken _ wants => exact ih stacked wants
  | @unselected name rest f none =>
    cases wants with
    | entered halt wants =>
      rcases wants.foreseen with ⟨rfl, opens⟩ | ⟨-, token, here, first⟩
      · exact wanted (mem_expected_of_opens plain stacked.1 halt opens)
      · obtain ⟨i, hi⟩ := List.getElem?_of_mem halt
        obtain ⟨j, selected⟩ := DecisionTable.exists_select (stacked.1.candidate hi (Or.inl first))
        rw [kindAt_of_getElem? here, selected] at none
        cases none
  | @selected name i alt rest f f' select halt later ih =>
    cases wants with
    | entered hother wants =>
      obtain ⟨j, hj⟩ := List.getElem?_of_mem hother
      by_cases same : j = i
      · subst same
        obtain rfl := Option.some.inj (hj.symm.trans halt)
        exact ih (stacked.enter hother) wants
      · exact Fails.covers_other quiet plain select halt hj same stacked later wants

/-! ## Parses that fail -/

namespace PredictiveParser

variable {α β : Type} {parser : PredictiveParser} {limits : Limits} {s s' : State}

/-- The next token, and the kinds given up there. -/
def State.frontier (s : State) : Frontier := ⟨s.pos, s.skipped⟩

/-- A parse of the symbols takes its part in a run: a run that fails after it fails before it, and
where it fails the run does. Nothing is said of a parse that is cut off. -/
def Traced (g : Grammar) (tokens : Array Token) (symbols : List Symbol) (s : State)
    (r : Except ParseFailure (α × State)) : Prop :=
  (∃ value s', r = .ok (value, s') ∧
    ∀ rest f, Fails g tokens rest s'.frontier f → Fails g tokens (symbols ++ rest) s.frontier f) ∨
  (∃ f : Frontier, r = .error (.atPosition tokens f.place f.kinds) ∧
    ∀ rest, Fails g tokens (symbols ++ rest) s.frontier f) ∨
  ∃ e, r = .error e ∧ e.isRejection = false

theorem Traced.ok {value : α} : Traced g tokens [] s (.ok (value, s)) :=
  Or.inl ⟨value, s, rfl, fun _ _ h => h⟩

theorem Traced.bind {r : Except ParseFailure (α × State)}
    {next : α × State → Except ParseFailure (β × State)} (h : Traced g tokens symbols s r)
    (hnext : ∀ value s', Traced g tokens rest s' (next (value, s'))) :
    Traced g tokens (symbols ++ rest) s (r >>= next) := by
  rcases h with ⟨value, s', rfl, back⟩ | ⟨f, rfl, fails⟩ | ⟨e, rfl, cut⟩
  · rcases hnext value s' with ⟨value', s'', hr, back'⟩ | ⟨f, hr, fails⟩ | ⟨e, hr, cut⟩
    · refine Or.inl ⟨value', s'', hr, fun after f h => ?_⟩
      rw [List.append_assoc]
      exact back _ f (back' after f h)
    · refine Or.inr (Or.inl ⟨f, hr, fun after => ?_⟩)
      rw [List.append_assoc]
      exact back _ f (fails after)
    · exact Or.inr (Or.inr ⟨e, hr, cut⟩)
  · refine Or.inr (Or.inl ⟨f, rfl, fun after => ?_⟩)
    rw [List.append_assoc]
    exact fails _
  · exact Or.inr (Or.inr ⟨e, rfl, cut⟩)

theorem Traced.map {r : Except ParseFailure (α × State)} (h : Traced g tokens symbols s r)
    (wrap : α → β) : Traced g tokens symbols s (r >>= fun x => .ok (wrap x.1, x.2)) := by
  have wrapped : Traced g tokens (symbols ++ []) s (r >>= fun x => .ok (wrap x.1, x.2)) :=
    h.bind fun _ _ => .ok
  rwa [List.append_nil] at wrapped

/-- Symbols may be parsed in the place of others from which every run comes to them. -/
theorem Traced.imp {instead : List Symbol} {r : Except ParseFailure (α × State)}
    (h : Traced g tokens symbols s' r)
    (up : ∀ rest f, Fails g tokens (symbols ++ rest) s'.frontier f →
      Fails g tokens (instead ++ rest) s.frontier f) : Traced g tokens instead s r := by
  rcases h with ⟨value, s'', hr, back⟩ | ⟨f, hr, fails⟩ | cut
  · exact Or.inl ⟨value, s'', hr, fun rest f later => up rest f (back rest f later)⟩
  · exact Or.inr (Or.inl ⟨f, hr, fun rest => up rest f (fails rest)⟩)
  · exact Or.inr (Or.inr cut)

theorem take_traced (kind : Kind) (s : State) :
    Traced g tokens [.terminal kind] s (take tokens kind s) := by
  cases here : tokens[s.pos]? with
  | none =>
    have refused : ∀ token, tokens[s.pos]? = some token → token.kind ≠ kind := by
      intro token there
      rw [here] at there
      cases there
    unfold take
    split
    · refine Or.inr (Or.inl ⟨⟨s.pos, KindSet.singleton kind ∪ s.skipped⟩, rfl, fun rest => ?_⟩)
      exact Fails.refused (f := s.frontier) refused
    · rw [here]
      exact Or.inr (Or.inr ⟨_, rfl, rfl⟩)
  | some token =>
    by_cases same : token.kind = kind
    · subst same
      rw [take_of_getElem? here]
      exact Or.inl ⟨_, _, rfl, fun rest f later => .taken here later⟩
    · have refused : ∀ token, tokens[s.pos]? = some token → token.kind ≠ kind := by
        intro token' there
        rw [here] at there
        cases there
        exact same
      unfold take
      rw [if_pos (by rwa [look, here])]
      refine Or.inr (Or.inl ⟨⟨s.pos, KindSet.singleton kind ∪ s.skipped⟩, rfl, fun rest => ?_⟩)
      exact Fails.refused (f := s.frontier) refused

theorem parseSequence_traced {enter : String → State → Except ParseFailure (Tree × State)}
    (henter : ∀ inner s, Traced g tokens [.nonterminal inner] s (enter inner s))
    (symbols : List Symbol) (s : State) :
    Traced g tokens symbols s (parseSequence limits tokens enter symbols s) := by
  induction symbols generalizing s with
  | nil => exact .ok
  | cons a symbols ih =>
    have remaining : ∀ (tree : Tree) s, Traced g tokens symbols s
        (parseSequence limits tokens enter symbols s >>= fun r => .ok (tree :: r.1, r.2)) :=
      fun tree s => (ih s).map (tree :: ·)
    cases a with
    | terminal kind =>
      rw [parseSequence]
      rcases tick_cases limits s with ⟨limit, cut⟩ | ok
      · rw [cut]
        exact Or.inr (Or.inr ⟨_, rfl, rfl⟩)
      · rw [ok]
        exact (take_traced kind { s with steps := s.steps + 1 }).bind remaining
    | nonterminal inner =>
      rw [parseSequence]
      exact (henter inner s).bind remaining

/-- A call of a nonterminal follows the alternative that is selected. -/
theorem parseNonterminal_traced (built : parser.table = parser.grammar.decisionTable)
    (ceiling depth : Nat) (name : String) (s : State) :
    Traced parser.grammar tokens [.nonterminal name] s
      (parser.parseNonterminal limits tokens ceiling depth name s) := by
  induction ceiling generalizing depth name s with
  | zero => exact Or.inr (Or.inr ⟨_, rfl, rfl⟩)
  | succ ceiling ih =>
    rcases parser.parseNonterminal_cases limits tokens (ceiling + 1) depth name s with
      ⟨limit, cut⟩ | ⟨none, failed⟩ | ⟨below, i, hbelow, select, step⟩
    · rw [cut]
      exact Or.inr (Or.inr ⟨_, rfl, rfl⟩)
    · rw [failed]
      refine Or.inr (Or.inl
        ⟨⟨s.pos, parser.table.expected name ∪ s.skipped⟩, rfl, fun rest => ?_⟩)
      rw [built] at none ⊢
      rw [look_eq_kindAt] at none
      exact Fails.unselected (f := s.frontier) none
    · obtain rfl := Nat.succ.inj hbelow
      rw [step]
      have entered : Traced parser.grammar tokens (parser.chosen name i)
          (parser.entry tokens name i s)
          (parseSequence limits tokens (parser.enterBelow limits tokens ceiling depth)
            (parser.chosen name i) (parser.entry tokens name i s)) :=
        parseSequence_traced (fun inner s => ih _ inner s) _ _
      have halt : (parser.grammar.alternatives name)[i]? = some (parser.chosen name i) := by
        rw [built] at select
        obtain ⟨alt, -, hi⟩ := Grammar.exists_alternative_of_select select
        rw [chosen, hi]
        rfl
      rw [built, look_eq_kindAt] at select
      refine Traced.imp (entered.map (Tree.node name)) fun rest f later => ?_
      unfold State.frontier entry at later
      rw [built, look_eq_kindAt] at later
      exact .selected select halt later

/-- A parse that is rejected is a run of the start symbol that fails. -/
theorem parseBelow_fails {ceiling : Nat} {tokens : List Token} {failure : ParseFailure}
    (built : parser.table = parser.grammar.decisionTable)
    (hstart : parser.grammar.start = some start)
    (h : parser.parseBelow ceiling limits tokens = .error failure)
    (rejection : failure.isRejection = true) :
    ∃ f : Frontier, failure = .atPosition tokens.toArray f.place f.kinds ∧
      Fails parser.grammar tokens.toArray [.nonterminal start] ⟨0, ∅⟩ f := by
  have traced : Traced parser.grammar tokens.toArray [.nonterminal start] .start
      (parser.parseNonterminal limits tokens.toArray ceiling 0 start .start) :=
    parseNonterminal_traced built ceiling 0 start .start
  rw [parseBelow_eq hstart] at h
  rcases traced with ⟨tree, s, hr, back⟩ | ⟨f, hr, fails⟩ | ⟨e, hr, cut⟩
  · rw [hr] at h
    dsimp only [bind, Except.bind] at h
    split at h
    · next short =>
      cases h
      refine ⟨⟨s.pos, KindSet.singleton .endOfInput ∪ s.skipped⟩, rfl, back [] _ ?_⟩
      exact Fails.unfinished (f := s.frontier) (Nat.ne_of_lt short)
    · cases h
  · rw [hr] at h
    cases h
    exact ⟨f, rfl, fails []⟩
  · rw [hr] at h
    cases h
    rw [cut] at rejection
    cases rejection

end PredictiveParser

end TopDown
