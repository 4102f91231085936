import TopDown.Analysis.Decision
import TopDown.Parsing.Failure
import TopDown.Parsing.Limits
import TopDown.Tree.Basic

/-
  The predictive parser. Every nonterminal is expanded by the one alternative that the decision
  table selects for the next token kind; nothing is tried twice.

  A failure names the kinds that the failing decision would have taken, and those that an earlier
  choice at the same position gave up when it took an alternative that derives the empty word.
-/

namespace TopDown

/-- A grammar with its decision table. -/
structure PredictiveParser where
  grammar : Grammar
  table : DecisionTable

namespace PredictiveParser

/-- The parser of a valid grammar. A grammar with conflicts is refused unless they are allowed. -/
def ofGrammar (g : Grammar) (allowConflicts : Bool) : Except GrammarError PredictiveParser := do
  g.validate
  let table := g.decisionTable
  if !table.conflicts.isEmpty && !allowConflicts then throw (.conflicting table.conflicts)
  return ⟨g, table⟩

/-- The next token, the symbols tried so far, and the kinds given up at this position. -/
structure State where
  pos : Nat
  steps : Nat
  skipped : KindSet
  deriving DecidableEq

def State.start : State := ⟨0, 0, ∅⟩

/-- The kind of the next token, or the end of input. -/
def look (tokens : Array Token) (s : State) : Kind :=
  match tokens[s.pos]? with
  | some token => token.kind
  | none => .endOfInput

/-- The failure at the present position. -/
def failure (tokens : Array Token) (s : State) (expected : KindSet) : ParseFailure :=
  .atPosition tokens s.pos (expected ∪ s.skipped)

/-- Counts a tried symbol. -/
def tick (limits : Limits) (s : State) : Except ParseFailure State :=
  if limits.maxSteps < s.steps + 1 then .error (.exhausted (.steps limits.maxSteps s.pos))
  else .ok { s with steps := s.steps + 1 }

/-- Takes the next token, which must be of the given kind. -/
def take (tokens : Array Token) (kind : Kind) (s : State) : Except ParseFailure (Tree × State) :=
  if look tokens s ≠ kind then .error (failure tokens s (KindSet.singleton kind))
  else
    match tokens[s.pos]? with
    | some token => .ok (.leaf token, { s with pos := s.pos + 1, skipped := ∅ })
    | none => .error .endTaken

/-- Parses the symbols of an alternative; `enter` parses a nonterminal. -/
def parseSequence (limits : Limits) (tokens : Array Token)
    (enter : String → State → Except ParseFailure (Tree × State)) :
    List Symbol → State → Except ParseFailure (List Tree × State)
  | [], s => .ok ([], s)
  | .terminal kind :: rest, s => do
    let s ← tick limits s
    let (tree, s) ← take tokens kind s
    let (trees, s) ← parseSequence limits tokens enter rest s
    return (tree :: trees, s)
  | .nonterminal name :: rest, s => do
    let (tree, s) ← enter name s
    let (trees, s) ← parseSequence limits tokens enter rest s
    return (tree :: trees, s)

/-- The kinds given up when alternative `i` of a row is chosen on `kind`: what the others can begin
with, if `i` can only be left out here. -/
def givenUp (row : List Prospect) (i : Nat) (kind : Kind) : KindSet :=
  if row[i]?.any fun p => p.nullable && !decide (kind ∈ p.first) then
    KindSet.unions ((row.eraseIdx i).map Prospect.first)
  else ∅

/-- Parses a nonterminal. Nesting ends at the ceiling. -/
def parseNonterminal (parser : PredictiveParser) (limits : Limits) (tokens : Array Token) :
    (ceiling : Nat) → Nat → String → State → Except ParseFailure (Tree × State)
  | 0, _, _, _ => .error (.exhausted .nesting)
  | ceiling + 1, depth, name, s => do
    if limits.maxDepth < depth then throw (.exhausted (.depth limits.maxDepth s.pos))
    let s ← tick limits s
    let kind := look tokens s
    match parser.table.select name kind with
    | none => throw (failure tokens s (parser.table.expected name))
    | some i =>
      let s := { s with skipped := s.skipped ∪ givenUp (parser.table.row name) i kind }
      let alt := (parser.grammar.alternatives name)[i]?.getD []
      let (trees, s) ← parseSequence limits tokens
        (fun inner => parser.parseNonterminal limits tokens ceiling
          (if parser.grammar.isFactorTail inner then depth else depth + 1) inner)
        alt s
      return (.node name trees, s)

/-- Parses the start symbol and asks for the end of input after it. Also gives the symbols tried. -/
def run (ceiling : Nat) (parser : PredictiveParser) (limits : Limits) (tokens : Array Token) :
    Except ParseFailure (Tree × Nat) := do
  let start := parser.grammar.start.getD ""
  let (tree, s) ← parser.parseNonterminal limits tokens ceiling 0 start .start
  if s.pos < tokens.size then throw (failure tokens s (KindSet.singleton .endOfInput))
  return (tree, s.steps)

/-- Nesting that no parse within reasonable limits comes near. -/
def nestingCeiling : Nat := 2500

/-- Parses tokens, with nesting kept below a ceiling. -/
def parseBelow (ceiling : Nat) (parser : PredictiveParser) (limits : Limits)
    (tokens : List Token) : Except ParseFailure Tree := do
  let (tree, _) ← parser.run ceiling limits tokens.toArray
  return tree

/-- Parses tokens. -/
def parse (parser : PredictiveParser) (limits : Limits) (tokens : List Token) :
    Except ParseFailure Tree :=
  parser.parseBelow nestingCeiling limits tokens

end PredictiveParser

end TopDown
