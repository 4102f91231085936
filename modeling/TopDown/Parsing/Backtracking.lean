import TopDown.Grammar.Basic
import TopDown.Parsing.Failure
import TopDown.Parsing.Limits
import TopDown.Tree.Basic

/-
  The backtracking parser. It tries alternatives in order and comes back to the last choice when
  what follows fails, until the start symbol covers all tokens.

  A match takes a continuation: what to do with the position and the trees when the symbols have
  been matched. The continuation is called once for each way to match, in order of priority, until
  it finds a parse. A limit that is passed on the way ends the whole search.

  Left recursion ends because a nonterminal is not entered at a position at which it is already
  open more often than there are tokens left, and once more. Whether a call is open is a matter of
  the calls around it only, so it is handed down as `calls` and is not part of the progress.
-/

namespace TopDown

namespace Backtracking

/-- What the search has seen so far: the symbols tried, the furthest position at which one failed,
and the kinds that were wanted there. -/
structure Progress where
  steps : Nat
  furthest : Nat
  expected : KindSet
  deriving DecidableEq

def Progress.start : Progress := ⟨0, 0, ∅⟩

/-- Records that a kind was wanted at a position; only the furthest position counts. -/
def Progress.note (p : Progress) (pos : Nat) (kind : Kind) : Progress :=
  if p.furthest < pos then { p with furthest := pos, expected := KindSet.singleton kind }
  else if p.furthest = pos then { p with expected := p.expected.insert kind }
  else p

/-- How a search ends: with a tree, with nothing left to try, or at a limit. -/
inductive Outcome where
  | found (tree : Tree) (progress : Progress)
  | failed (progress : Progress)
  | exhausted (limit : Exhaustion)

/-- What follows a match that ends at a position with a result. -/
abbrev Continuation (α : Type) := Nat → α → Progress → Outcome

/-- An open call of a nonterminal. -/
structure Call where
  pos : Nat
  name : String
  deriving DecidableEq

/-- Counts a tried symbol. -/
def tick (limits : Limits) (pos : Nat) (p : Progress) (next : Progress → Outcome) : Outcome :=
  if limits.maxSteps < p.steps + 1 then .exhausted (.steps limits.maxSteps pos)
  else next { p with steps := p.steps + 1 }

/-- Tries one thing after the other until one does not fail. -/
def tryEach {α : Type} (attempt : α → Progress → Outcome) : List α → Progress → Outcome
  | [], p => .failed p
  | a :: rest, p =>
    match attempt a p with
    | .failed p => tryEach attempt rest p
    | outcome => outcome

/-- Matches the symbols of an alternative from a position on; `enter` matches a nonterminal. -/
def matchSequence (limits : Limits) (tokens : Array Token)
    (enter : String → Nat → Continuation Tree → Progress → Outcome) :
    List Symbol → Nat → Continuation (List Tree) → Progress → Outcome
  | [], pos, next, p => next pos [] p
  | .terminal kind :: rest, pos, next, p =>
    tick limits pos p fun p =>
      match tokens[pos]? with
      | some token =>
        if token.kind = kind then
          matchSequence limits tokens enter rest (pos + 1)
            (fun stop trees p => next stop (.leaf token :: trees) p) p
        else .failed (p.note pos kind)
      | none => .failed (p.note pos kind)
  | .nonterminal name :: rest, pos, next, p =>
    tick limits pos p fun p =>
      enter name pos
        (fun mid tree p =>
          matchSequence limits tokens enter rest mid
            (fun stop trees p => next stop (tree :: trees) p) p)
        p

/-- The depth at which a nonterminal stands below a node of the given depth. -/
def depthBelow (g : Grammar) (depth : Nat) (name : String) : Nat :=
  if g.isFactorTail name then depth else depth + 1

/-- Matches a nonterminal at a position, inside the open `calls`. Nesting ends at the ceiling. -/
def matchNonterminal (g : Grammar) (limits : Limits) (tokens : Array Token) :
    (ceiling : Nat) → List Call → Nat → String → Nat → Continuation Tree → Progress → Outcome
  | 0, _, _, _, _, _, _ => .exhausted .nesting
  | ceiling + 1, calls, depth, name, pos, next, p =>
    let call : Call := ⟨pos, name⟩
    if tokens.size - pos + 1 ≤ calls.count call then .failed p
    else if limits.maxDepth < depth then .exhausted (.depth limits.maxDepth pos)
    else
      tryEach
        (fun alt =>
          matchSequence limits tokens
            (fun inner => matchNonterminal g limits tokens ceiling (call :: calls)
              (depthBelow g depth inner) inner)
            alt pos (fun stop trees => next stop (.node name trees)))
        (g.alternatives name) p

/-- Accepts a match of the start symbol that covers all tokens. -/
def finish (tokens : Array Token) : Continuation Tree := fun stop tree p =>
  if stop = tokens.size then .found tree p else .failed (p.note stop .endOfInput)

/-- Searches for a tree of the start symbol, with nesting kept below a ceiling. -/
def search (ceiling : Nat) (g : Grammar) (limits : Limits) (tokens : Array Token) : Outcome :=
  match g.start with
  | none => .failed .start
  | some start =>
    matchNonterminal g limits tokens ceiling [] 0 start 0 (finish tokens) .start

/-- The tree that a search has found, or the failure it ends with. -/
def Outcome.result (tokens : Array Token) : Outcome → Except ParseFailure Tree
  | found tree _ => .ok tree
  | failed p => .error (.atPosition tokens p.furthest p.expected)
  | exhausted limit => .error (.exhausted limit)

end Backtracking

/-- A valid grammar to search with. -/
structure BacktrackingParser where
  grammar : Grammar

namespace BacktrackingParser

/-- The parser of a valid grammar. -/
def ofGrammar (g : Grammar) : Except GrammarError BacktrackingParser := do
  g.validate
  return ⟨g⟩

/-- Nesting that no parse within reasonable limits comes near. -/
def nestingCeiling : Nat := 2500

/-- Searches for a tree of the tokens. -/
def run (parser : BacktrackingParser) (limits : Limits) (tokens : List Token) :
    Backtracking.Outcome :=
  Backtracking.search nestingCeiling parser.grammar limits tokens.toArray

/-- Parses tokens, with nesting kept below a ceiling. -/
def parseBelow (ceiling : Nat) (parser : BacktrackingParser) (limits : Limits)
    (tokens : List Token) : Except ParseFailure Tree :=
  (Backtracking.search ceiling parser.grammar limits tokens.toArray).result tokens.toArray

/-- Parses tokens. -/
def parse (parser : BacktrackingParser) (limits : Limits) (tokens : List Token) :
    Except ParseFailure Tree :=
  parser.parseBelow nestingCeiling limits tokens

end BacktrackingParser

end TopDown
