import TopDown.Grammar.Description.Reading
import TopDown.Parsing.Backtracking
import TopDown.Parsing.Predictive
import TopDown.Program.Arguments
import TopDown.Program.Session
import TopDown.Transform.Factoring
import TopDown.Tree.Fold

/-
  The commands of the program: check a grammar, transform it, list the tokens of a program, parse a
  program. `run` is the whole program as a function of the files and the command line.
-/

namespace TopDown.Program

open Session

/-! ## Shared steps -/

/-- Reads a grammar file. -/
def loadGrammar (read : Reader) (path : String) (debug : Bool) : Session Grammar := do
  let text ← readFile read (tidyPath path)
  let g ← orFail .ofGrammarError (Grammar.ofDescription text true)
  remarkIf debug ("[DEBUG] grammar ready | nonterms=" ++ toString g.nonterminals.length ++ " terms="
    ++ toString g.terminals.toList.length ++ " start=" ++ g.start.getD "None")
  return g

/-- Reads the program to work on. -/
def loadProgram (read : Reader) : Source → Session String
  | .text program => pure program
  | .file (some path) => readFile read path
  | .file none => throw .noPath

/-- Removes left recursion, then factors. -/
def transformGrammar (g : Grammar) (s : Settings) : Session Grammar.Factored := do
  let eliminated ← traced s.debug g.eliminateLeftRecursion
  remarkIf s.debug
    ("[DEBUG] left recursion eliminated | nonterms=" ++ toString eliminated.nonterminals.length)
  orFail .ofGrammarError eliminated.validate
  let maxRounds ← orThrow .noRounds s.factorRounds
  let budget := { Grammar.FactorBudget.standard with maxRounds }
  let factored ← traced s.debug (Grammar.leftFactor budget eliminated)
  factored.warning.forM fun warning => remark ("[WARN] " ++ warning)
  remarkIf s.debug ("[DEBUG] left factoring | rounds=" ++ toString factored.rounds ++ " complete="
    ++ (if factored.complete then "True" else "False") ++ " nonterms="
    ++ toString factored.grammar.nonterminals.length)
  return factored

/-! ## Details -/

def showGrammar (title : String) (g : Grammar) : Session Unit :=
  remark ("\n[" ++ title ++ "]\n" ++ g.render)

/-- A table of kinds, one line for each nonterminal. -/
def showTable (title : String) (g : Grammar) (table : Catalog KindSet) : Session Unit := do
  remark ("\n[" ++ title ++ "(nonterminals)]")
  let width := Text.widest g.nonterminals
  g.nonterminals.forM fun name =>
    remark (Text.padLeft width name ++ " : " ++ (table.kinds name).text)

def showLookahead (g : Grammar) : Session Unit := do
  let l := g.lookahead
  let nullable := g.nonterminals.filter (· ∈ l.nullable)
  remark "\n[NULLABLE]"
  remark (if nullable.isEmpty then "(none)" else Text.joined ", " nullable)
  showTable "FIRST" g l.first
  showTable "FOLLOW" g l.follow

/-! ## Commands -/

def check (read : Reader) (file : String) (s : Settings) : Session Unit := do
  let g ← loadGrammar read file s.debug
  let recursive := g.leftRecursive
  let table := g.decisionTable
  let conflicts := table.conflicts
  if s.debug then
    showGrammar "Grammar" g
    showLookahead g
    if !conflicts.isEmpty then
      remark "\n[Conflicts Detail]"
      remark table.conflictReport
  if !recursive.isEmpty then say ("[LEFT RECURSION] " ++ Text.joined ", " recursive)
  say ("[CHECK OK] nonterms=" ++ toString g.nonterminals.length ++ " terms="
    ++ toString g.terminals.toList.length ++ " left_recursive=" ++ toString recursive.length
    ++ " conflicts=" ++ toString conflicts.length)

def transform (read : Reader) (file : String) (s : Settings) : Session Unit := do
  let g ← loadGrammar read file s.debug
  let factored ← transformGrammar g s
  if s.debug then
    showGrammar "Input" g
    showLookahead factored.grammar
  say factored.grammar.render

/-- One token of a listing. -/
def tokenLine (t : Token) (i : Nat) : String :=
  Text.zeroPadded 3 i ++ ": " ++ Text.padRight 12 t.kind.label ++ " " ++ Text.quoteOption t.text
    ++ "  @" ++ t.place.label

def lex (read : Reader) (source : Source) : Session Unit := do
  let program ← loadProgram read source
  let result := scan program.toList program.toList .start
  result.tokens.zipIdx.forM fun (t, i) => say (tokenLine t i)
  result.fault.forM fun e => throw (.ofLexError e)

/-- The limits that settings give. The depth is looked at first. -/
def limitsOf (s : Settings) : Session Limits := do
  let refusal := Fault.other "ValueError" Limits.refusal
  let maxDepth ← orThrow .noLimit s.maxDepth
  if maxDepth < 1 then throw refusal
  let maxSteps ← orThrow .noLimit s.maxSteps
  orThrow refusal (Limits.ofInts? maxDepth maxSteps)

/-- Numbers of tokens and steps, as the parsers report them. -/
def counts (tokens : List Token) (steps : Nat) : String :=
  toString tokens.length ++ " token(s), " ++ toString steps ++ " step(s)"

def parseBacktracking (g : Grammar) (tokens : List Token) (s : Settings) : Session Tree := do
  let limits ← limitsOf s
  let parser ← orFail .ofGrammarError (BacktrackingParser.ofGrammar g)
  let outcome := parser.run limits tokens
  let remarkDebug := fun line => remarkIf s.debug ("[toygram.backtrack.engine] backtracking " ++ line)
  match outcome with
  | .found _ p => remarkDebug ("parse ok: " ++ counts tokens p.steps)
  | .failed p =>
    remarkDebug ("parse failed at token #" ++ toString p.furthest ++ " after " ++ toString p.steps
      ++ " step(s)")
  | .exhausted _ => pure ()
  orFail .ofParseFailure (outcome.result tokens.toArray)

def parsePredictive (g : Grammar) (tokens : List Token) (s : Settings) : Session Tree := do
  let limits ← limitsOf s
  let parser ← orFail .ofGrammarError (PredictiveParser.ofGrammar g s.allowConflicts)
  let remarkDebug := fun line => remarkIf s.debug ("[toygram.ll.runtime] predictive " ++ line)
  let conflicts := parser.table.conflicts
  if !conflicts.isEmpty then
    remarkDebug ("parser built with " ++ toString conflicts.length ++ " conflict(s):\n"
      ++ parser.table.conflictReport)
  let (tree, steps) ← orFail .ofParseFailure
    (parser.run PredictiveParser.nestingCeiling limits tokens.toArray)
  remarkDebug ("parse ok: " ++ counts tokens steps)
  return tree

def parse (read : Reader) (file : String) (source : Source) (s : Settings) : Session Unit := do
  let g ← loadGrammar read file s.debug
  let tokens ← orFail .ofLexError (tokenize (← loadProgram read source))
  remarkIf s.debug ("[DEBUG] tokens=" ++ toString tokens.length)
  let used ←
    if s.predictive && !s.noTransform then do
      let factored ← transformGrammar g s
      if s.debug then showGrammar "Transformed" factored.grammar
      pure factored.grammar
    else pure g
  let tree ← if s.predictive then parsePredictive used tokens s else parseBacktracking used tokens s
  say (if s.fold then tree.fold used.origins else tree).render

/-! ## The program -/

def Command.session (read : Reader) : Command → Session Unit
  | .check file s => Program.check read file s
  | .transform file s => Program.transform read file s
  | .lex source => Program.lex read source
  | .parse file source s => Program.parse read file source s

/-- How a fault is reported. -/
def Command.faultText (command : Command) : Fault → String
  | .badInput message =>
    match command with
    | .lex _ => "[LEX ERROR] " ++ message
    | _ => "[SYNTAX ERROR]\n" ++ message
  | .other name message => "[ERROR] " ++ name ++ " " ++ message

/-- An exit code and what was written. -/
structure Result where
  code : Nat
  console : Console
  deriving DecidableEq

def Command.run (read : Reader) (command : Command) : Result :=
  match (command.session read).run.run ⟨"", ""⟩ with
  | (.ok _, console) => ⟨0, console⟩
  | (.error fault, console) =>
    ⟨2, { console with stderr := console.stderr ++ command.faultText fault ++ "\n" }⟩

/-- The program as a function of the files and the command line. -/
def run (read : Reader) (arguments : List String) : Except Stop Result := do
  return (← Command.ofArguments arguments).run read

end TopDown.Program
