import TopDown.Grammar.Build
import TopDown.Proofs.Exploration
import TopDown.Proofs.SearchCost

/-
  The backtracking parser decides the language of its grammar.

  The admitted trees are all that is tried, and they are enough for every word; so what is found is
  a derivation tree of the tokens, and what fails is not in the language. With enough depth, steps
  and nesting for all calls that there is room for, the search ends in one of these ways.
-/

namespace TopDown.Backtracking

variable {g : Grammar} {limits : Limits} {tokens : Array Token} {stop ceiling : Nat}
  {start : String}

/-! ## The search for the start symbol -/

theorem finish_eq_found {p q : Progress} {t tree : Tree}
    (h : finish tokens stop t p = .found tree q) : stop = tokens.size ∧ t = tree := by
  unfold finish at h
  split at h
  · next whole =>
    cases h
    exact ⟨whole, rfl⟩
  · cases h

/-- What is found is a derivation tree of the tokens. -/
theorem search_eq_found {tree : Tree} {q : Progress}
    (h : search ceiling g limits tokens = .found tree q) (hstart : g.start = some start) :
    tree.IsDerivation g ∧ tree.symbol = .nonterminal start ∧ tree.leaves = tokens.toList := by
  rw [search, hstart] at h
  obtain ⟨stop, t, p, ⟨symbol, admitted⟩, hfinish⟩ :=
    (matchNonterminal_explores ceiling [] 0 start 0).of_found h
  obtain ⟨rfl, rfl⟩ := finish_eq_found hfinish
  have covered := admitted.segment
  rw [← Array.length_toList, segment_whole, Tree.leavesOf_singleton] at covered
  exact ⟨admitted.isDerivation t List.mem_cons_self, symbol, covered⟩

/-- A search that fails has tried an admitted tree for every word of the start symbol. -/
theorem search_eq_failed {q : Progress} (h : search ceiling g limits tokens = .failed q)
    (hstart : g.start = some start) : tokens.toList.map Token.kind ∉ g.language start := by
  intro hw
  obtain ⟨n, hn⟩ := Grammar.mem_language_iff_unfolds.1 (Grammar.derives_iff_mem_language.1 hw)
  have whole := segment_map_whole Token.kind tokens.toList
  rw [Array.length_toList] at whole
  have roomy : Roomy g (tokens.toList.map Token.kind) [] tokens.size n :=
    fun c hc => absurd hc List.not_mem_nil
  obtain ⟨children, admitted⟩ := exists_admitted hn whole (Nat.le_refl _) roomy
  rw [search, hstart] at h
  obtain ⟨p', q', hfinish⟩ :=
    (matchNonterminal_explores ceiling [] 0 start 0).of_failed h _ _ ⟨rfl, admitted⟩
  rw [finish, if_pos rfl] at hfinish
  cases hfinish

theorem finish_bounded : BoundedNext limits tokens 0 (finish tokens) := by
  intro stop _ t p hp
  unfold finish
  split
  · refine ⟨?_, ?_⟩
    · intro limit h
      cases h
    · intro q h
      cases h
  · exact bounded_failed (fun p => steps_note p stop .endOfInput) p hp

/-- The calls that a search for the start symbol can make. -/
def searchRoom (g : Grammar) (tokens : Array Token) (start : String) : Nat :=
  room (start :: g.usedNames) tokens []

/-- With depth and steps for all of its calls, a search ends. -/
theorem search_ne_exhausted (hstart : g.start = some start)
    (hceiling : searchRoom g tokens start < ceiling)
    (hdepth : searchRoom g tokens start ≤ limits.maxDepth)
    (hsteps : callCost g (searchRoom g tokens start) 0 ≤ limits.maxSteps) (limit : Exhaustion) :
    search ceiling g limits tokens ≠ .exhausted limit := by
  have closed : ∀ inner, g.Mentions (.nonterminal inner) → inner ∈ start :: g.usedNames :=
    fun inner h => List.mem_cons_of_mem start (Grammar.mem_usedNames.2 (Or.inr h))
  have fits : room (start :: g.usedNames) tokens [] ≤ searchRoom g tokens start := Nat.le_refl _
  have bounded : Bounded limits (callCost g (searchRoom g tokens start) 0)
      (matchNonterminal g limits tokens ceiling [] 0 start 0 (finish tokens)) :=
    matchNonterminal_bounded closed fits hceiling (by omega) List.mem_cons_self (Nat.zero_le _)
      finish_bounded
  have begin : Progress.start.steps + callCost g (searchRoom g tokens start) 0 ≤ limits.maxSteps :=
    (Nat.zero_add _).symm ▸ hsteps
  rw [search, hstart]
  exact (bounded .start begin).1 limit

/-! ## Results -/

theorem atPosition_isRejection (tokens : Array Token) (pos : Nat) (expected : KindSet) :
    (ParseFailure.atPosition tokens pos expected).isRejection = true := by
  unfold ParseFailure.atPosition
  split <;> rfl

theorem result_eq_ok {outcome : Outcome} {tree : Tree} (h : outcome.result tokens = .ok tree) :
    ∃ q, outcome = .found tree q := by
  cases outcome with
  | found t q =>
    cases h
    exact ⟨q, rfl⟩
  | failed q => cases h
  | exhausted limit => cases h

/-- A failure is a rejection after a failed search, or says at which limit the search ended. -/
theorem result_eq_error {outcome : Outcome} {failure : ParseFailure}
    (h : outcome.result tokens = .error failure) :
    (∃ q, outcome = .failed q ∧ failure.isRejection = true) ∨
      ∃ limit, outcome = .exhausted limit ∧ failure = .exhausted limit := by
  cases outcome with
  | found t q => cases h
  | failed q =>
    cases h
    exact Or.inl ⟨q, rfl, atPosition_isRejection tokens q.furthest q.expected⟩
  | exhausted limit =>
    cases h
    exact Or.inr ⟨limit, rfl, rfl⟩

end TopDown.Backtracking

namespace TopDown.BacktrackingParser

variable {g : Grammar} {parser : BacktrackingParser}

theorem ofGrammar_eq_ok (h : ofGrammar g = .ok parser) : g.validate = .ok () ∧ parser = ⟨g⟩ := by
  unfold ofGrammar at h
  cases hv : g.validate with
  | error e =>
    rw [hv] at h
    cases h
  | ok u =>
    rw [hv] at h
    cases h
    exact ⟨rfl, rfl⟩

/-- A valid grammar has a parser. -/
theorem ofGrammar_of_validate (valid : g.validate = .ok ()) : ofGrammar g = .ok ⟨g⟩ := by
  unfold ofGrammar
  rw [valid]
  rfl

/-- What the parser returns is a derivation tree of the tokens. -/
theorem parseBelow_sound {ceiling : Nat} {limits : Limits} {tokens : List Token} {tree : Tree}
    {start : String} (h : parser.parseBelow ceiling limits tokens = .ok tree)
    (hstart : parser.grammar.start = some start) :
    tree.IsDerivation parser.grammar ∧ tree.symbol = .nonterminal start ∧ tree.leaves = tokens := by
  obtain ⟨q, hq⟩ := Backtracking.result_eq_ok h
  exact Backtracking.search_eq_found hq hstart

/-- What the parser rejects is not in the language. -/
theorem parseBelow_complete {ceiling : Nat} {limits : Limits} {tokens : List Token}
    {failure : ParseFailure} {start : String}
    (h : parser.parseBelow ceiling limits tokens = .error failure)
    (hr : failure.isRejection = true) (hstart : parser.grammar.start = some start) :
    tokens.map Token.kind ∉ parser.grammar.language start := by
  rcases Backtracking.result_eq_error h with ⟨q, hq, -⟩ | ⟨limit, -, rfl⟩
  · exact Backtracking.search_eq_failed hq hstart
  · cases hr

theorem parseBelow_ne_endTaken {ceiling : Nat} {limits : Limits} {tokens : List Token} :
    parser.parseBelow ceiling limits tokens ≠ .error .endTaken := by
  intro h
  rcases Backtracking.result_eq_error h with ⟨q, -, rejection⟩ | ⟨limit, -, same⟩
  · cases rejection
  · cases same

/-- A search that is not cut off answers whether the tokens are in the language. -/
theorem exists_answer {start : String} {ceiling : Nat} {limits : Limits} {tokens : List Token}
    (hstart : parser.grammar.start = some start)
    (uncut : ∀ limit, parser.parseBelow ceiling limits tokens ≠ .error (.exhausted limit)) :
    ∃ answer, accepted (parser.parseBelow ceiling limits tokens) = .ok answer ∧
      (answer = true ↔ tokens.map Token.kind ∈ parser.grammar.language start) := by
  refine exists_accepted uncut parseBelow_ne_endTaken ?_ ?_
  · intro tree returned
    obtain ⟨derivation, symbol, leaves⟩ := parseBelow_sound returned hstart
    exact derivation.mem_language_start symbol leaves
  · intro hw
    cases result : parser.parseBelow ceiling limits tokens with
    | ok tree => exact ⟨tree, rfl⟩
    | error failure =>
      rcases Backtracking.result_eq_error result with ⟨q, -, rejection⟩ | ⟨limit, -, rfl⟩
      · exact absurd hw (parseBelow_complete result rejection hstart)
      · exact absurd result (uncut limit)

/-- The parser decides the language of its grammar, left recursion included. What it returns is a
derivation tree of the tokens, what it rejects is not derived, and with enough depth, steps and
nesting it does one of the two. -/
theorem parseBelow_decides (h : ofGrammar g = .ok parser) (tokens : List Token) :
    ∃ start, g.start = some start ∧
      (∀ ceiling limits tree, parser.parseBelow ceiling limits tokens = .ok tree →
        tree.IsDerivation g ∧ tree.symbol = .nonterminal start ∧ tree.leaves = tokens) ∧
      (∀ ceiling limits failure, parser.parseBelow ceiling limits tokens = .error failure →
        failure.isRejection = true →
          ¬ g.Derives [.nonterminal start] (tokens.map fun token => .terminal token.kind)) ∧
      ∃ enough : Limits, ∃ nesting : Nat, ∀ ceiling limits, nesting ≤ ceiling →
        enough.maxDepth ≤ limits.maxDepth → enough.maxSteps ≤ limits.maxSteps →
          ∀ limit, parser.parseBelow ceiling limits tokens ≠ .error (.exhausted limit) := by
  obtain ⟨valid, rfl⟩ := ofGrammar_eq_ok h
  obtain ⟨start, hstart, -⟩ := Grammar.exists_start_of_validate valid
  refine ⟨start, hstart, ?_, ?_, ?_⟩
  · intro ceiling limits tree returned
    exact parseBelow_sound returned hstart
  · intro ceiling limits failure raised rejection derives
    have absent := parseBelow_complete raised rejection hstart
    rw [Grammar.mem_language, List.map_map] at absent
    exact absent derives
  · let calls := Backtracking.searchRoom g tokens.toArray start
    refine ⟨⟨calls, Backtracking.callCost g calls 0⟩, calls + 1, ?_⟩
    intro ceiling limits hceiling hdepth hsteps limit exhausted
    rcases Backtracking.result_eq_error exhausted with ⟨q, -, rejection⟩ | ⟨limit', cut, -⟩
    · cases rejection
    · exact Backtracking.search_ne_exhausted hstart hceiling hdepth hsteps limit' cut

/-- Left recursion behind a nonterminal that derives the empty word, and a rule that repeats
itself. -/
def loops : Grammar :=
  .assemble (some "s")
    [("s", [[.nonterminal "n", .nonterminal "s", .terminal .semicolon], [.nonterminal "s"],
       [.terminal .identifier]]),
     ("n", [[]])] []

def identifierToken : Token := ⟨.identifier, some "x", .start⟩

def semicolonToken : Token := ⟨.semicolon, some ";", ⟨1, 1, 2⟩⟩

theorem parseBelow_decides_loops :
    ofGrammar loops = .ok ⟨loops⟩ ∧
      (∃ tree, parse ⟨loops⟩ .standard [identifierToken, semicolonToken] = .ok tree ∧
        tree.IsDerivation loops ∧ tree.leaves = [identifierToken, semicolonToken]) ∧
      ¬ loops.Derives [.nonterminal "s"] [.terminal .semicolon] := by
  have valid : ofGrammar loops = .ok ⟨loops⟩ := by rfl
  obtain ⟨tree, returned⟩ :
      ∃ tree, parse ⟨loops⟩ .standard [identifierToken, semicolonToken] = .ok tree := ⟨_, rfl⟩
  obtain ⟨failure, raised, rejection⟩ :
      ∃ failure, parse ⟨loops⟩ .standard [semicolonToken] = .error failure ∧
        failure.isRejection = true := ⟨_, rfl, rfl⟩
  obtain ⟨_, -, sound, -⟩ := parseBelow_decides valid [identifierToken, semicolonToken]
  obtain ⟨start, hstart, -, complete, -⟩ := parseBelow_decides valid [semicolonToken]
  cases hstart
  obtain ⟨derivation, -, leaves⟩ := sound _ _ tree returned
  exact ⟨valid, ⟨tree, returned, derivation, leaves⟩, complete _ _ failure raised rejection⟩

end TopDown.BacktrackingParser
