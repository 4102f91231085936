import TopDown.Proofs.Backtracking
import TopDown.Proofs.Factoring
import TopDown.Proofs.Predictive

/-
  From a grammar to a parser that never backtracks.

  Left recursion is removed, the result is factored, and what comes out is given to the predictive
  parser. Both changes are conservative, so the language of the start symbol is the same at both
  ends. Each parser answers the question whether the tokens are in the language of its own grammar
  (`exists_answer`); hence the predictive parser of a factored grammar without conflicts agrees
  with a search through the original one, and with conflicts it accepts nothing more.
-/

namespace TopDown

/-- A conservative change keeps the start symbol and its language. -/
theorem Grammar.Conservative.language_start {g g' : Grammar} {start : String}
    (h : g.Conservative g') (valid : g.validate = .ok ()) (hstart : g.start = some start) :
    g'.start = some start ∧ g'.language start = g.language start := by
  obtain ⟨declared, hdeclared, mem⟩ := Grammar.exists_start_of_validate valid
  obtain rfl := Option.some.inj (hstart.symm.trans hdeclared)
  exact ⟨h.start.trans hstart, h.language start mem⟩

/-- The predictive parser of a grammar whose left recursion has been removed and which has been
factored gives the answers of a search through the grammar itself, when no conflicts are left; when
some are left, it accepts only what the search accepts. -/
theorem pipeline_agrees {g g₁ : Grammar} {budget : Grammar.FactorBudget}
    {result : Grammar.Factored} {searching : BacktrackingParser} {predictive : PredictiveParser}
    {expansions₁ expansions₂ : Nat}
    (valid : BacktrackingParser.ofGrammar g = .ok searching)
    (plain : .endOfInput ∉ g.terminals)
    (eliminated : (g.eliminateBelow expansions₁).outcome = .ok g₁)
    (factored : (Grammar.leftFactorBelow expansions₂ budget g₁).outcome = .ok result)
    (built : PredictiveParser.ofGrammar result.grammar true = .ok predictive)
    {tokens : List Token} {nesting₁ nesting₂ : Nat} {limits₁ limits₂ : Limits}
    (uncut₁ : ∀ limit, predictive.parseBelow nesting₁ limits₁ tokens ≠ .error (.exhausted limit))
    (uncut₂ : ∀ limit, searching.parseBelow nesting₂ limits₂ tokens ≠ .error (.exhausted limit)) :
    (result.complete = true →
      PredictiveParser.ofGrammar result.grammar false = .ok predictive ∧
        ∃ answer, accepted (predictive.parseBelow nesting₁ limits₁ tokens) = .ok answer ∧
          accepted (searching.parseBelow nesting₂ limits₂ tokens) = .ok answer) ∧
      (result.complete = false →
        accepted (predictive.parseBelow nesting₁ limits₁ tokens) = .ok true →
          accepted (searching.parseBelow nesting₂ limits₂ tokens) = .ok true) := by
  obtain ⟨validG, hsearching⟩ := BacktrackingParser.ofGrammar_eq_ok valid
  obtain ⟨validResult, hpredictive⟩ := PredictiveParser.ofGrammar_eq_ok built
  have grammar₁ : predictive.grammar = result.grammar := by rw [hpredictive]
  have table₁ : predictive.table = predictive.grammar.decisionTable := by rw [hpredictive]
  have grammar₂ : searching.grammar = g := by rw [hsearching]
  obtain ⟨start, hstart, -⟩ := Grammar.exists_start_of_validate validG
  have conservative := (Grammar.eliminateBelow_conservative eliminated).trans
    (Grammar.leftFactorBelow_conservative factored)
  obtain ⟨hstart', language⟩ := conservative.language_start validG hstart
  rw [← grammar₁] at hstart' language
  rw [← grammar₂] at hstart language
  obtain ⟨answer, searched, found_iff⟩ := BacktrackingParser.exists_answer hstart uncut₂
  refine ⟨?_, ?_⟩
  · intro complete
    have quiet : result.grammar.conflicts = [] := by
      rw [Grammar.leftFactorBelow_conflicts factored]
      exact List.isEmpty_iff.1 complete
    have unmentioned : ¬ result.grammar.Mentions (.terminal .endOfInput) :=
      fun h => plain (Grammar.mem_terminals.2 (conservative.terminals _ h))
    obtain ⟨answer', predicted, parsed_iff⟩ := PredictiveParser.exists_answer table₁ hstart'
      (grammar₁ ▸ quiet) (grammar₁ ▸ unmentioned) uncut₁
    have same : answer' = answer := by
      rw [Bool.eq_iff_iff, parsed_iff, found_iff, language]
    refine ⟨?_, answer, same ▸ predicted, searched⟩
    rw [hpredictive]
    exact PredictiveParser.ofGrammar_of_conflicts validResult quiet false
  · intro _ accepts
    obtain ⟨tree, returned⟩ := exists_ok_of_accepted accepts
    obtain ⟨derivation, symbol, leaves⟩ := PredictiveParser.parseBelow_sound table₁ hstart' returned
    have word := derivation.mem_language_start symbol leaves
    rw [language, ← found_iff] at word
    rw [searched, word]

/-- Sums of names and calls: left recursive, with two alternatives that begin alike. -/
def callSums : Grammar :=
  .assemble (some "e")
    [("e", [[.nonterminal "e", .terminal .plus, .nonterminal "t"], [.nonterminal "t"]]),
     ("t", [[.terminal .identifier],
       [.terminal .identifier, .terminal .openParen, .terminal .closeParen]])] []

/-- `callSums` without left recursion. -/
def callSumsWithTail : Grammar :=
  { Grammar.assemble (some "e")
      [("e", [[.nonterminal "t", .nonterminal "__lr1"]]),
       ("t", [[.terminal .identifier],
         [.terminal .identifier, .terminal .openParen, .terminal .closeParen]]),
       ("__lr1", [[.terminal .plus, .nonterminal "t", .nonterminal "__lr1"], []])]
      [("__lr1", ⟨.leftRecursion, "e"⟩)] with counter := 1 }

/-- `callSums` without left recursion, and factored. -/
def callSumsFactored : Grammar :=
  { Grammar.assemble (some "e")
      [("e", [[.nonterminal "t", .nonterminal "__lr1"]]),
       ("t", [[.terminal .identifier, .nonterminal "__lf2"]]),
       ("__lr1", [[.terminal .plus, .nonterminal "t", .nonterminal "__lr1"], []]),
       ("__lf2", [[], [.terminal .openParen, .terminal .closeParen]])]
      [("__lr1", ⟨.leftRecursion, "e"⟩), ("__lf2", ⟨.factor, "t"⟩)] with counter := 2 }

/-- The tokens of `f() + x`. -/
def callSumTokens : List Token :=
  [⟨.identifier, some "f", ⟨0, 1, 1⟩⟩, ⟨.openParen, some "(", ⟨1, 1, 2⟩⟩,
   ⟨.closeParen, some ")", ⟨2, 1, 3⟩⟩, ⟨.plus, some "+", ⟨4, 1, 5⟩⟩,
   ⟨.identifier, some "x", ⟨6, 1, 7⟩⟩]

theorem pipeline_agrees_callSums :
    BacktrackingParser.ofGrammar callSums = .ok ⟨callSums⟩ ∧
      .endOfInput ∉ callSums.terminals ∧
      callSums.eliminateLeftRecursion.outcome = .ok callSumsWithTail ∧
      (Grammar.leftFactor .standard callSumsWithTail).outcome = .ok ⟨callSumsFactored, [], 1⟩ ∧
      ∃ predictive, PredictiveParser.ofGrammar callSumsFactored false = .ok predictive ∧
        accepted (predictive.parse .standard callSumTokens) = .ok true ∧
        accepted (BacktrackingParser.parse ⟨callSums⟩ .standard callSumTokens) = .ok true := by
  have valid : BacktrackingParser.ofGrammar callSums = .ok ⟨callSums⟩ := by rfl
  have plain : .endOfInput ∉ callSums.terminals := by decide +kernel
  have eliminated : (callSums.eliminateBelow Grammar.expansionCeiling).outcome
      = .ok callSumsWithTail := by decide +kernel
  have factored : (Grammar.leftFactorBelow Grammar.expansionCeiling .standard
      callSumsWithTail).outcome = .ok ⟨callSumsFactored, [], 1⟩ := by decide +kernel
  have built : PredictiveParser.ofGrammar callSumsFactored true
      = .ok ⟨callSumsFactored, callSumsFactored.decisionTable⟩ :=
    PredictiveParser.ofGrammar_of_conflicts (by rfl) (by decide +kernel) true
  have predicted : accepted (PredictiveParser.parse
      ⟨callSumsFactored, callSumsFactored.decisionTable⟩ .standard callSumTokens) = .ok true := by
    decide +kernel
  have searched : accepted (BacktrackingParser.parse ⟨callSums⟩ .standard callSumTokens)
      = .ok true := by decide +kernel
  obtain ⟨strict, answer, parsed, found⟩ :=
    (pipeline_agrees valid plain eliminated factored built (ne_exhausted_of_accepted predicted)
      (ne_exhausted_of_accepted searched)).1 rfl
  obtain rfl : true = answer := Except.ok.inj (predicted.symm.trans parsed)
  exact ⟨valid, plain, eliminated, factored, _, strict, predicted, found⟩

end TopDown
