import TopDown.Proofs.Agreement

/-
  What the failures of the backtracking parser report.

  A kind can come after some of the tokens when the start symbol derives these tokens with the kind
  after them (`CanCome`). Derivations are followed from left to right, one token or one alternative
  at a time, up to the place where a terminal comes next (`Proceeds`). So what is wanted in some
  choice of alternatives can come (`Wants.canCome`). A kind that can come is wanted, unless it is
  the next token, and then one gets further; so a search that fails and leaves no gaps has noted it,
  or a later one (`Sweeps.want_le`).
-/

namespace TopDown

/-- The tokens as symbols. -/
def terminals (tokens : List Token) : List Symbol :=
  tokens.map fun token => .terminal token.kind

variable {g : Grammar} {tokens : Array Token} {start : String} {s t left rest : List Symbol}
  {pos place : Nat} {kind : Kind} {v : List Token}

/-! ## Derivations from left to right -/

/-- With these symbols to be matched at a position, some choice of alternatives takes all tokens up
to `place` and has `left` to be matched there. -/
inductive Proceeds (g : Grammar) (tokens : Array Token) (left : List Symbol) (place : Nat) :
    List Symbol → Nat → Prop where
  | here : Proceeds g tokens left place left place
  | taken {token : Token} {rest : List Symbol} {pos : Nat} (here : tokens[pos]? = some token)
      (later : Proceeds g tokens left place rest (pos + 1)) :
      Proceeds g tokens left place (.terminal token.kind :: rest) pos
  | entered {name : String} {alt : Alternative} {rest : List Symbol} {pos : Nat}
      (halt : alt ∈ g.alternatives name) (later : Proceeds g tokens left place (alt ++ rest) pos) :
      Proceeds g tokens left place (.nonterminal name :: rest) pos

namespace Proceeds

theorem wants (h : Proceeds g tokens left place s pos)
    (later : Wants g tokens left place place kind) : Wants g tokens s pos place kind := by
  induction h with
  | here => exact later
  | taken here _ ih => exact .taken here ih
  | entered halt _ ih => exact .entered halt ih

theorem reaches {furthest : Nat} (h : Proceeds g tokens left place s pos)
    (later : Reaches g tokens left place furthest) : Reaches g tokens s pos furthest := by
  induction h with
  | here => exact later
  | taken here _ ih => exact .taken here ih
  | entered halt _ ih => exact .entered halt ih

/-- The tokens on the way, with what is left after them, are derived. -/
theorem derives (h : Proceeds g tokens left place s pos) :
    ∃ v, Segment tokens.toList pos place v ∧ g.Derives s (terminals v ++ left) := by
  induction h with
  | here => exact ⟨[], segment_nil.2 rfl, .refl⟩
  | @taken token rest pos here later ih =>
    obtain ⟨v, covered, derived⟩ := ih
    refine ⟨token :: v, segment_cons.2 ⟨Array.getElem?_toList ▸ here, covered⟩, ?_⟩
    exact derived.append_left [.terminal token.kind]
  | @entered name alt rest pos halt later ih =>
    obtain ⟨v, covered, derived⟩ := ih
    exact ⟨v, covered, .head (.replace [] rest halt) derived⟩

theorem of_segment (covered : Segment tokens.toList pos place v) :
    Proceeds g tokens rest place (terminals v ++ rest) pos := by
  induction v generalizing pos with
  | nil => exact segment_nil.1 covered ▸ .here
  | cons token v ih =>
    rw [segment_cons, Array.getElem?_toList] at covered
    exact .taken covered.1 (ih covered.2)

/-- What can be done after a step can be done before it, up to the same symbol. -/
theorem of_rewrites (h : Proceeds g tokens left place t pos) (step : g.Rewrites s t) :
    ∃ left', left'.head? = left.head? ∧ Proceeds g tokens left' place s pos := by
  obtain @⟨before, after, owner, alt, halt⟩ := step
  generalize split : before ++ (alt ++ after) = t at h
  -- the nonterminal is entered as soon as it comes first; if it never does, it is left over
  induction h generalizing before with
  | here =>
    cases before with
    | nil => exact ⟨left, rfl, .entered halt (split ▸ .here)⟩
    | cons a before => exact ⟨a :: (before ++ .nonterminal owner :: after), split ▸ rfl, .here⟩
  | taken here later ih =>
    cases before with
    | nil => exact ⟨left, rfl, .entered halt (split ▸ .taken here later)⟩
    | cons a before =>
      obtain ⟨rfl, below⟩ := List.cons.inj split
      obtain ⟨left', same, later⟩ := ih before below
      exact ⟨left', same, .taken here later⟩
  | @entered inner other rest pos hother later ih =>
    cases before with
    | nil => exact ⟨left, rfl, .entered halt (split ▸ .entered hother later)⟩
    | cons a before =>
      obtain ⟨rfl, below⟩ := List.cons.inj split
      obtain ⟨left', same, later⟩ := ih (other ++ before) (by rw [List.append_assoc, ← below]; rfl)
      rw [List.append_assoc] at later
      exact ⟨left', same, .entered hother later⟩

theorem of_derives (h : Proceeds g tokens left place t pos) (derived : g.Derives s t) :
    ∃ left', left'.head? = left.head? ∧ Proceeds g tokens left' place s pos := by
  induction derived using Relation.ReflTransGen.head_induction_on with
  | refl => exact ⟨left, rfl, h⟩
  | head step _ ih =>
    obtain ⟨left₁, same₁, later⟩ := ih
    obtain ⟨left₂, same₂, now⟩ := later.of_rewrites step
    exact ⟨left₂, same₂.trans same₁, now⟩

end Proceeds

/-- Where tokens are derived, one gets past them to the symbol after them. -/
theorem exists_proceeds (derived : g.Derives s (terminals v ++ rest))
    (covered : Segment tokens.toList pos place v) :
    ∃ left, left.head? = rest.head? ∧ Proceeds g tokens left place s pos :=
  (Proceeds.of_segment covered).of_derives derived

/-- What is wanted comes first among what is left, or nothing is left. -/
theorem Wants.exists_proceeds (h : Wants g tokens s pos place kind) :
    (∃ rest, Proceeds g tokens (.terminal kind :: rest) place s pos) ∨
      kind = .endOfInput ∧ Proceeds g tokens [] place s pos := by
  induction h with
  | unfinished more => exact Or.inr ⟨rfl, .here⟩
  | refused other => exact Or.inl ⟨_, .here⟩
  | taken here later ih =>
    refine ih.imp ?_ (And.imp_right (.taken here))
    exact fun ⟨rest, later⟩ => ⟨rest, .taken here later⟩
  | entered halt later ih =>
    refine ih.imp ?_ (And.imp_right (.entered halt))
    exact fun ⟨rest, later⟩ => ⟨rest, .entered halt later⟩

/-! ## What can come -/

/-- After the tokens the kind can come: the start symbol derives a form that begins with them and
goes on with the kind. The end of input can come when it derives just the tokens. -/
def CanCome (g : Grammar) (start : String) (seen : List Token) (kind : Kind) : Prop :=
  if kind = .endOfInput then g.Derives [.nonterminal start] (terminals seen)
  else ∃ rest, g.Derives [.nonterminal start] (terminals seen ++ .terminal kind :: rest)

theorem canCome_endOfInput {seen : List Token} :
    CanCome g start seen .endOfInput ↔ g.Derives [.nonterminal start] (terminals seen) :=
  iff_of_eq (if_pos rfl)

theorem canCome_of_ne {seen : List Token} (other : kind ≠ .endOfInput) :
    CanCome g start seen kind ↔
      ∃ rest, g.Derives [.nonterminal start] (terminals seen ++ .terminal kind :: rest) :=
  iff_of_eq (if_neg other)

theorem segment_take {tokens : List Token} (le : place ≤ tokens.length) :
    Segment tokens 0 place (tokens.take place) :=
  ⟨List.take_prefix place tokens, by rw [List.length_take]; omega⟩

/-- What is wanted can come. -/
theorem Wants.canCome (plain : .endOfInput ∉ g.terminals)
    (h : Wants g tokens [.nonterminal start] 0 place kind) :
    place ≤ tokens.size ∧ CanCome g start (tokens.toList.take place) kind := by
  have covers {left : List Symbol} (h : Proceeds g tokens left place [.nonterminal start] 0) :
      place ≤ tokens.size ∧
        g.Derives [.nonterminal start] (terminals (tokens.toList.take place) ++ left) := by
    obtain ⟨v, covered, derived⟩ := h.derives
    have le := covered.le_length (Nat.zero_le _)
    rw [covered.unique (segment_take le)] at derived
    exact ⟨le, derived⟩
  rcases h.exists_proceeds with ⟨rest, proceeds⟩ | ⟨rfl, proceeds⟩
  · obtain ⟨le, derived⟩ := covers proceeds
    refine ⟨le, (canCome_of_ne ?_).2 ⟨rest, derived⟩⟩
    rintro rfl
    -- the grammar does not mention the end of input, so no form has it
    rcases derived.mentions (List.mem_append_right _ List.mem_cons_self) with first | mentioned
    · cases List.mem_singleton.1 first
    · exact plain (Grammar.mem_terminals.2 mentioned)
  · obtain ⟨le, derived⟩ := covers proceeds
    rw [List.append_nil] at derived
    exact ⟨le, canCome_endOfInput.2 derived⟩

/-! ## What a failed search has noted -/

namespace Backtracking.Sweeps

variable {gaps : Prop} {f : Frontier}

/-- What has been noted can come. -/
theorem canCome (plain : .endOfInput ∉ g.terminals)
    (swept : Sweeps g tokens gaps [[.nonterminal start]] 0 ⟨0, ∅⟩ f) (hk : kind ∈ f.kinds) :
    f.place ≤ tokens.size ∧ CanCome g start (tokens.toList.take f.place) kind := by
  rcases swept.sound hk with ⟨known, -⟩ | ⟨form, hform, wants⟩
  · exact absurd known (KindSet.not_mem_empty kind)
  · rw [List.mem_singleton.1 hform] at wants
    exact wants.canCome plain

theorem place_le (plain : .endOfInput ∉ g.terminals)
    (swept : Sweeps g tokens gaps [[.nonterminal start]] 0 ⟨0, ∅⟩ f) : f.place ≤ tokens.size := by
  rcases swept.eq_or_exists_mem with rfl | ⟨kind, hk⟩
  · exact Nat.zero_le _
  · exact (swept.canCome plain hk).1

/-- A sweep without gaps over tokens that are no sentence has noted what can come, unless it has got
further. -/
theorem want_le (swept : Sweeps g tokens False [[.nonterminal start]] 0 ⟨0, ∅⟩ f)
    (outside : tokens.toList.map Token.kind ∉ g.language start) (le : place ≤ tokens.size)
    (can : CanCome g start (tokens.toList.take place) kind) : Frontier.want place kind ≤ f := by
  have covered : Segment tokens.toList 0 place (tokens.toList.take place) := segment_take le
  by_cases last : kind = .endOfInput
  · subst last
    have derived := canCome_endOfInput.1 can
    rw [← List.append_nil (terminals _)] at derived
    obtain ⟨left, ended, proceeds⟩ := exists_proceeds derived covered
    obtain rfl := List.head?_eq_none_iff.1 ended
    -- a sentence that ends here goes on, as the tokens are none
    have more : place ≠ tokens.size := by
      rintro rfl
      rw [List.append_nil, ← Array.length_toList, List.take_length, terminals] at derived
      refine outside (Grammar.mem_language.2 ?_)
      rwa [List.map_map]
    exact swept.covers List.mem_cons_self (proceeds.wants (.unfinished more))
  · obtain ⟨rest, derived⟩ := (canCome_of_ne last).1 can
    obtain ⟨left, next, proceeds⟩ := exists_proceeds derived covered
    obtain ⟨rest, rfl⟩ := List.head?_eq_some_iff.1 next
    by_cases there : ∃ token, tokens[place]? = some token ∧ token.kind = kind
    · obtain ⟨token, here, rfl⟩ := there
      have further : place + 1 ≤ f.place := swept.reaches (proceeds.reaches (.taken here .here))
      exact Or.inl further
    · have other : ∀ token, tokens[place]? = some token → token.kind ≠ kind :=
        fun token here same => there ⟨token, here, same⟩
      exact swept.covers List.mem_cons_self (proceeds.wants (.refused other))

/-- Without gaps, what has been noted is all that can come at that place, and nothing can come after
it. -/
theorem exact_at_furthest (plain : .endOfInput ∉ g.terminals)
    (swept : Sweeps g tokens False [[.nonterminal start]] 0 ⟨0, ∅⟩ f)
    (outside : tokens.toList.map Token.kind ∉ g.language start) :
    IsGreatest {p | p ≤ tokens.size ∧ ∃ kind, CanCome g start (tokens.toList.take p) kind} f.place ∧
      ∀ kind, kind ∈ f.kinds ↔ CanCome g start (tokens.toList.take f.place) kind := by
  have inside := swept.place_le plain
  refine ⟨⟨?_, ?_⟩, fun kind => ⟨fun hk => (swept.canCome plain hk).2, fun can => ?_⟩⟩
  · obtain ⟨kind, hk⟩ := swept.exists_mem (List.cons_ne_nil _ _)
    exact ⟨inside, kind, (swept.canCome plain hk).2⟩
  · rintro place ⟨le, kind, can⟩
    exact Frontier.place_le (swept.want_le outside le can)
  · rcases Frontier.want_le_iff.1 (swept.want_le outside inside can) with short | ⟨-, hk⟩
    · exact absurd short (Nat.lt_irrefl _)
    · exact hk

end Backtracking.Sweeps

/-! ## The reports of the parser -/

theorem ParseFailure.atPosition_toArray {tokens : List Token} (expected : KindSet) :
    ParseFailure.atPosition tokens.toArray pos expected =
      if h : pos < tokens.length then .unexpectedToken pos tokens[pos] expected
      else .unexpectedEnd pos expected := by
  rw [ParseFailure.atPosition, List.getElem?_toArray]
  split
  · next token here =>
    obtain ⟨inside, rfl⟩ := List.getElem?_eq_some_iff.1 here
    rw [dif_pos inside]
  · next none =>
    rw [dif_neg (Nat.not_lt_of_le (List.getElem?_eq_none_iff.1 none))]

namespace BacktrackingParser

variable {parser : BacktrackingParser} {ceiling : Nat} {limits : Limits}

/-- A rejection names a position and kinds that can come after the tokens before it. In a grammar
without left recursion this position is the furthest one after which something can come, and the
kinds are all that can. -/
theorem parseBelow_reports {tokens : List Token} {failure : ParseFailure}
    (plain : .endOfInput ∉ g.terminals) (built : ofGrammar g = .ok parser)
    (raised : parser.parseBelow ceiling limits tokens = .error failure)
    (rejection : failure.isRejection = true) :
    ∃ start pos expected, g.start = some start ∧ pos ≤ tokens.length ∧
      failure = (if h : pos < tokens.length then .unexpectedToken pos tokens[pos] expected
        else .unexpectedEnd pos expected) ∧
      (∀ kind ∈ expected, CanCome g start (tokens.take pos) kind) ∧
      (g.leftRecursive = [] →
        IsGreatest {p | p ≤ tokens.length ∧ ∃ kind, CanCome g start (tokens.take p) kind} pos ∧
        ∀ kind, kind ∈ expected ↔ CanCome g start (tokens.take pos) kind) := by
  obtain ⟨valid, rfl⟩ := ofGrammar_eq_ok built
  obtain ⟨start, hstart, -⟩ := Grammar.exists_start_of_validate valid
  obtain ⟨q, failed, rfl⟩ := Backtracking.exists_failed_of_rejection raised rejection
  have swept := Backtracking.search_sweeps hstart valid True (Or.inl trivial) failed
  refine ⟨start, q.furthest, q.expected, hstart, swept.place_le plain,
    ParseFailure.atPosition_toArray _, fun kind hk => (swept.canCome plain hk).2, ?_⟩
  intro straight
  have swept := Backtracking.search_sweeps hstart valid False (Or.inr straight) failed
  exact swept.exact_at_furthest plain (Backtracking.search_eq_failed failed hstart)

/-- The failure at the second token of `( +`. -/
def enclosedFailure : ParseFailure :=
  .unexpectedToken 1 ⟨.plus, some "+", ⟨1, 1, 2⟩⟩ (KindSet.ofList [.identifier, .closeParen])

theorem parseBelow_reports_enclosed :
    ∃ parser, ofGrammar enclosed = .ok parser ∧
      parser.parse .standard (enclosedTokens .plus) = .error enclosedFailure ∧
      ∀ kind, CanCome enclosed "s" ((enclosedTokens .plus).take 1) kind ↔
        kind = .identifier ∨ kind = .closeParen := by
  have plain : .endOfInput ∉ enclosed.terminals := by decide +kernel
  have built : ofGrammar enclosed = .ok ⟨enclosed⟩ := by rfl
  have straight : enclosed.leftRecursive = [] := by decide +kernel
  have raised : parse ⟨enclosed⟩ .standard (enclosedTokens .plus) = .error enclosedFailure := by
    rfl
  obtain ⟨start, pos, expected, hstart, -, failed, -, all⟩ :=
    parseBelow_reports plain built raised rfl
  cases hstart
  split at failed
  · cases failed
    refine ⟨_, built, raised, fun kind => ?_⟩
    rw [← (all straight).2, KindSet.mem_ofList]
    simp
  · cases failed

end BacktrackingParser

end TopDown
