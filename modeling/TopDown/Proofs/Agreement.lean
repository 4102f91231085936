import TopDown.Proofs.Backtracking
import TopDown.Proofs.PredictiveFrontier
import TopDown.Proofs.SearchFrontier
import TopDown.Proofs.Unambiguity

/-
  The two parsers of a grammar without conflicts agree, in trees and in failures.

  Tokens have at most one derivation tree, and each parser finds it where there is one. Where there
  is none, the failures are compared as frontiers: the run of the predictive parser answers for
  all that any choice of alternatives wants, so what the search has noted lies below its failure;
  and the search gets as far as that run does (`search_frontier_le`). Hence both fail at the same
  token, and the kinds that the search names are among those that the predictive parser names.
-/

namespace TopDown

variable {g : Grammar} {start : String} {tokens : List Token}

theorem subsingleton_derivationTrees (quiet : g.conflicts = []) :
    (derivationTrees g start tokens).Subsingleton := by
  rintro t ⟨ht, symbolT, leavesT⟩ u ⟨hu, symbolU, leavesU⟩
  exact derivation_unique quiet ht hu symbolT symbolU leavesT leavesU

/-- A parse that answers for the language and returns derivation trees only returns the one that
there is. -/
theorem eq_ok_of_derivation (quiet : g.conflicts = []) {r : Except ParseFailure Tree}
    {answer : Bool} (answered : accepted r = .ok answer)
    (decides : answer = true ↔ tokens.map Token.kind ∈ g.language start)
    (sound : ∀ tree, r = .ok tree → tree ∈ derivationTrees g start tokens) {tree : Tree}
    (htree : tree ∈ derivationTrees g start tokens) : r = .ok tree := by
  obtain ⟨derivation, symbol, leaves⟩ := htree
  obtain rfl := decides.2 (derivation.mem_language_start symbol leaves)
  obtain ⟨found, returned⟩ := exists_ok_of_accepted answered
  rw [returned, subsingleton_derivationTrees quiet (sound found returned)
    ⟨derivation, symbol, leaves⟩]

namespace Backtracking

theorem exists_failed_of_rejection {tokens : Array Token} {outcome : Outcome}
    {failure : ParseFailure} (h : outcome.result tokens = .error failure)
    (rejection : failure.isRejection = true) :
    ∃ q, outcome = .failed q ∧ failure = .atPosition tokens q.furthest q.expected := by
  cases outcome with
  | found tree q => cases h
  | failed q =>
    cases h
    exact ⟨q, rfl, rfl⟩
  | exhausted limit =>
    cases h
    cases rejection

/-- A failed search and a failed run meet at one position, and what the search wants there the run
wants too. -/
theorem search_frontier_le {tokens : Array Token} {ceiling : Nat} {limits : Limits} {q : Progress}
    {f : Frontier} (hstart : g.start = some start) (valid : g.validate = .ok ())
    (straight : g.leftRecursive = []) (quiet : g.conflicts = [])
    (plain : ¬ g.Mentions (.terminal .endOfInput))
    (failed : search ceiling g limits tokens = .failed q)
    (fails : Fails g tokens [.nonterminal start] ⟨0, ∅⟩ f) :
    q.furthest = f.place ∧ ∀ kind ∈ q.expected, kind ∈ f.kinds := by
  obtain ⟨start', hstart', declared⟩ := Grammar.exists_start_of_validate valid
  obtain rfl := Option.some.inj (hstart.symm.trans hstart')
  have swept := search_sweeps hstart valid False (Or.inr straight) failed
  have stacked := stacked_start hstart declared
  have below : q.frontier ≤ f := swept.le_of_wants fails.le <|
    List.forall_mem_singleton.2 fun place kind wants => fails.covers quiet plain stacked wants
  have far : f.place ≤ q.furthest := swept.reaches fails.reaches
  rcases below with short | same
  · exact absurd far (Nat.not_le_of_lt short)
  · exact same

end Backtracking

/-- Without conflicts, and with neither parse cut off: tokens have at most one derivation tree,
which both parsers return; and without left recursion, tokens that are rejected are rejected by
both at the same position, where the search expects nothing that the predictive parser does not. -/
theorem parsers_agree (valid : g.validate = .ok ()) (plain : .endOfInput ∉ g.terminals)
    (quiet : g.conflicts = []) :
    ∃ start searching predictive, g.start = some start ∧
      BacktrackingParser.ofGrammar g = .ok searching ∧
      PredictiveParser.ofGrammar g false = .ok predictive ∧
      ∀ (tokens : List Token) (nesting₁ nesting₂ : Nat) (limits₁ limits₂ : Limits),
        (∀ limit, searching.parseBelow nesting₁ limits₁ tokens ≠ .error (.exhausted limit)) →
        (∀ limit, predictive.parseBelow nesting₂ limits₂ tokens ≠ .error (.exhausted limit)) →
        (derivationTrees g start tokens).Subsingleton ∧
        (∀ tree ∈ derivationTrees g start tokens,
          searching.parseBelow nesting₁ limits₁ tokens = .ok tree ∧
            predictive.parseBelow nesting₂ limits₂ tokens = .ok tree) ∧
        (g.leftRecursive = [] →
          accepted (searching.parseBelow nesting₁ limits₁ tokens) = .ok false ∨
            accepted (predictive.parseBelow nesting₂ limits₂ tokens) = .ok false →
          ∃ pos expected₁ expected₂,
            searching.parseBelow nesting₁ limits₁ tokens
              = .error (.atPosition tokens.toArray pos expected₁) ∧
            predictive.parseBelow nesting₂ limits₂ tokens
              = .error (.atPosition tokens.toArray pos expected₂) ∧
            ∀ kind ∈ expected₁, kind ∈ expected₂) := by
  obtain ⟨start, hstart, -⟩ := Grammar.exists_start_of_validate valid
  have unmentioned : ¬ g.Mentions (.terminal .endOfInput) :=
    fun h => plain (Grammar.mem_terminals.2 h)
  let predictive : PredictiveParser := ⟨g, g.decisionTable⟩
  have table : predictive.table = predictive.grammar.decisionTable := rfl
  refine ⟨start, ⟨g⟩, predictive, hstart, BacktrackingParser.ofGrammar_of_validate valid,
    PredictiveParser.ofGrammar_of_conflicts valid quiet false, ?_⟩
  intro tokens nesting₁ nesting₂ limits₁ limits₂ uncut₁ uncut₂
  obtain ⟨answer₁, searched, found_iff⟩ := BacktrackingParser.exists_answer hstart uncut₁
  obtain ⟨answer₂, predicted, parsed_iff⟩ :=
    PredictiveParser.exists_answer table hstart quiet unmentioned uncut₂
  refine ⟨subsingleton_derivationTrees quiet, ?_, ?_⟩
  · intro tree htree
    refine ⟨eq_ok_of_derivation quiet searched found_iff ?_ htree,
      eq_ok_of_derivation quiet predicted parsed_iff ?_ htree⟩
    · exact fun found returned => BacktrackingParser.parseBelow_sound returned hstart
    · exact fun found returned => PredictiveParser.parseBelow_sound table hstart returned
  · intro straight rejected
    have same : answer₁ = answer₂ := by rw [Bool.eq_iff_iff, found_iff, parsed_iff]
    obtain rfl : answer₁ = false := by
      rcases rejected with rejected | rejected
      · exact Except.ok.inj (searched.symm.trans rejected)
      · exact same.trans (Except.ok.inj (predicted.symm.trans rejected))
    subst same
    obtain ⟨failure₁, raised₁, rejection₁⟩ := exists_error_of_accepted searched
    obtain ⟨failure₂, raised₂, rejection₂⟩ := exists_error_of_accepted predicted
    obtain ⟨q, failed, rfl⟩ := Backtracking.exists_failed_of_rejection raised₁ rejection₁
    obtain ⟨f, rfl, fails⟩ :=
      PredictiveParser.parseBelow_fails table hstart raised₂ rejection₂
    obtain ⟨place, among⟩ := Backtracking.search_frontier_le hstart valid straight quiet unmentioned
      failed fails
    exact ⟨f.place, q.expected, f.kinds, place ▸ raised₁, raised₂, among⟩

/-- A name or nothing, between parentheses or between brackets. -/
def enclosed : Grammar :=
  .assemble (some "s")
    [("s", [[.terminal .openParen, .nonterminal "a", .terminal .closeParen],
       [.terminal .openBracket, .nonterminal "a", .terminal .closeBracket]]),
     ("a", [[.terminal .identifier], []])] []

/-- The tokens of `(` and one more sign. -/
def enclosedTokens (kind : Kind) : List Token :=
  [⟨.openParen, some "(", ⟨0, 1, 1⟩⟩, ⟨kind, some kind.spelling, ⟨1, 1, 2⟩⟩]

theorem parsers_agree_enclosed :
    enclosed.validate = .ok () ∧ .endOfInput ∉ enclosed.terminals ∧ enclosed.conflicts = [] ∧
      enclosed.leftRecursive = [] ∧
      ∃ searching predictive, BacktrackingParser.ofGrammar enclosed = .ok searching ∧
        PredictiveParser.ofGrammar enclosed false = .ok predictive ∧
        (∃ tree ∈ derivationTrees enclosed "s" (enclosedTokens .closeParen),
          searching.parse .standard (enclosedTokens .closeParen) = .ok tree ∧
          predictive.parse .standard (enclosedTokens .closeParen) = .ok tree) ∧
        ∃ pos expected₁ expected₂,
          searching.parse .standard (enclosedTokens .plus)
            = .error (.atPosition (enclosedTokens .plus).toArray pos expected₁) ∧
          predictive.parse .standard (enclosedTokens .plus)
            = .error (.atPosition (enclosedTokens .plus).toArray pos expected₂) ∧
          (∀ kind ∈ expected₁, kind ∈ expected₂) := by
  have valid : enclosed.validate = .ok () := by rfl
  have plain : .endOfInput ∉ enclosed.terminals := by decide +kernel
  have quiet : enclosed.conflicts = [] := by decide +kernel
  have straight : enclosed.leftRecursive = [] := by decide +kernel
  obtain ⟨start, searching, predictive, hstart, built₁, built₂, agree⟩ :=
    parsers_agree valid plain quiet
  cases hstart
  obtain ⟨-, rfl⟩ := BacktrackingParser.ofGrammar_eq_ok built₁
  obtain ⟨-, rfl⟩ := PredictiveParser.ofGrammar_eq_ok built₂
  let predictive : PredictiveParser := ⟨enclosed, enclosed.decisionTable⟩
  have searched : accepted (BacktrackingParser.parse ⟨enclosed⟩ .standard
      (enclosedTokens .closeParen)) = .ok true := by decide +kernel
  have predicted : accepted (predictive.parse .standard (enclosedTokens .closeParen))
      = .ok true := by decide +kernel
  have refused₁ : accepted (BacktrackingParser.parse ⟨enclosed⟩ .standard (enclosedTokens .plus))
      = .ok false := by decide +kernel
  have refused₂ : accepted (predictive.parse .standard (enclosedTokens .plus)) = .ok false := by
    decide +kernel
  obtain ⟨tree, returned⟩ := exists_ok_of_accepted searched
  have derived : tree ∈ derivationTrees enclosed "s" (enclosedTokens .closeParen) :=
    BacktrackingParser.parseBelow_sound returned rfl
  obtain ⟨-, trees, -⟩ := agree _ _ _ _ _ (ne_exhausted_of_accepted searched)
    (ne_exhausted_of_accepted predicted)
  obtain ⟨-, -, failures⟩ := agree _ _ _ _ _ (ne_exhausted_of_accepted refused₁)
    (ne_exhausted_of_accepted refused₂)
  exact ⟨valid, plain, quiet, straight, _, predictive, built₁, built₂,
    ⟨tree, derived, trees tree derived⟩, failures straight (Or.inl refused₁)⟩

end TopDown
