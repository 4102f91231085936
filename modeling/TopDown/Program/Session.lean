import TopDown.Parsing.Failure
import TopDown.Program.Files
import TopDown.Token.Lexer
import TopDown.Transform.Traced

/-
  A run of the program: it writes lines to two channels and may break off with a fault. What was
  written before a fault stays written.
-/

namespace TopDown.Program

/-- What has been written so far. -/
structure Console where
  stdout : String
  stderr : String
  deriving DecidableEq

/-- Why a command breaks off: the input is not right, or something else went wrong, with a name
for what it is. -/
inductive Fault where
  | badInput (message : String)
  | other (name message : String)
  deriving DecidableEq

namespace Fault

def ofLexError (e : LexError) : Fault := .badInput e.message

def ofGrammarError (e : GrammarError) : Fault :=
  match e with
  | .endlessExpansion => .other "RecursionError" e.message
  | .unknownOrigin _ => .other "KeyError" e.message
  | .unusableSymbol _ => .other "TypeError" e.message
  | _ => .badInput e.message

def ofParseFailure (e : ParseFailure) : Fault :=
  match e with
  | .exhausted _ => .other "ResourceExhausted" e.message
  | .endTaken => .other "IndexError" e.message
  | _ => .badInput e.message

def ofFileFault (path : String) : FileFault → Fault
  | .missing =>
    .other "FileNotFoundError" ("[Errno 2] No such file or directory: " ++ Text.quote path)
  | .directory => .other "IsADirectoryError" ("[Errno 21] Is a directory: " ++ Text.quote path)
  | .notDirectory => .other "NotADirectoryError" ("[Errno 20] Not a directory: " ++ Text.quote path)
  | .tooLong => .other "OSError" ("[Errno 36] File name too long: " ++ Text.quote path)
  | .unusable => .other "ValueError" "embedded null byte"

/-- A file was asked for without a path. -/
def noPath : Fault := .other "TypeError" "expected str, bytes or os.PathLike object, not list"

/-- A limit was asked for without a number. -/
def noLimit : Fault :=
  .other "TypeError" "'<' not supported between instances of 'list' and 'int'"

/-- A number of rounds was asked for without a number. -/
def noRounds : Fault :=
  .other "TypeError" "'<' not supported between instances of 'int' and 'list'"

def ofUtf8Fault (e : Text.Utf8.Fault) : Fault :=
  let bytes :=
    if e.count = 1 then
      "byte 0x" ++ String.ofList (Text.hexDigits 2 e.first) ++ " in position " ++ toString e.offset
    else
      "bytes in position " ++ toString e.offset ++ "-" ++ toString (e.offset + e.count - 1)
  .other "UnicodeDecodeError" ("'utf-8' codec can't decode " ++ bytes ++ ": " ++ e.reason.text)

end Fault

abbrev Session := ExceptT Fault (StateM Console)

namespace Session

/-- Writes a line of results. -/
def say (line : String) : Session Unit :=
  modify fun c => { c with stdout := c.stdout ++ line ++ "\n" }

/-- Writes a line about the run. -/
def remark (line : String) : Session Unit :=
  modify fun c => { c with stderr := c.stderr ++ line ++ "\n" }

def remarkIf (condition : Bool) (line : String) : Session Unit :=
  if condition then remark line else pure ()

/-- Goes on with a value, or breaks off. -/
def orFail {ε α : Type} (fault : ε → Fault) : Except ε α → Session α
  | .ok a => pure a
  | .error e => throw (fault e)

/-- Goes on with a value that is there, or breaks off. -/
def orThrow {α : Type} (fault : Fault) : Option α → Session α
  | some a => pure a
  | none => throw fault

/-- The part of the program that reports an event. -/
def reporter : Event → String
  | .selfLoopDropped .. | .recursionSplit .. | .recursionEliminated .. =>
    "toygram.grammar.left_recursion"
  | _ => "toygram.grammar.left_factor"

/-- Runs a transformation; its events are written out when details are wanted. -/
def traced {α : Type} (debug : Bool) (x : Traced α) : Session α := do
  x.events.forM fun event => remarkIf debug ("[" ++ reporter event ++ "] " ++ event.text)
  orFail .ofGrammarError x.outcome

/-- The text of a file. -/
def readFile (read : Reader) (path : String) : Session String := do
  let bytes ← orFail (.ofFileFault path) (read path)
  let chars ← orFail .ofUtf8Fault (Text.Utf8.decode bytes)
  return String.ofList (Text.unifyLineEnds chars)

end Session

end TopDown.Program
