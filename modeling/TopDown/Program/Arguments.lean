import TopDown.Text.Integer

/-
  The command line. The first word names a command; its options and, where it has one, its grammar
  file follow in any order. A long option may be cut short as long as it stays the only one meant,
  its value stands in the next word or after an equals sign, and the last of several values counts.
  One-letter options may be run together. After a word `--` every word is a plain one. Behind an
  equals sign, `--` is dropped, and the option is given without a value.

  Words are first sorted into plain words and options (`classify`), then taken from left to right.
  Asking for help stops the reading at that point; so does a word that makes no sense. A word that
  nobody asked for is only refused at the end.
-/

namespace TopDown.Program

/-- Why there is no command to run. -/
inductive Stop where
  | help
  | misuse
  deriving DecidableEq

/-- The exit code of a reading that stopped. -/
def Stop.code : Stop → Nat
  | help => 0
  | misuse => 2

inductive Switch where
  | help
  | debug
  | text
  | input
  | parser
  | noTransform
  | allowConflicts
  | fold
  | factorRounds
  | maxDepth
  | maxSteps
  deriving DecidableEq

namespace Switch

def long : Switch → String
  | help => "--help"
  | debug => "--debug"
  | text => "--text"
  | input => "--input"
  | parser => "--parser"
  | noTransform => "--no-transform"
  | allowConflicts => "--allow-conflicts"
  | fold => "--fold"
  | factorRounds => "--factor-rounds"
  | maxDepth => "--max-depth"
  | maxSteps => "--max-steps"

/-- The letter of an option that has one. -/
def letter? : Switch → Option Char
  | help => some 'h'
  | debug => some 'D'
  | _ => none

def takesValue : Switch → Bool
  | text | input | parser | factorRounds | maxDepth | maxSteps => true
  | _ => false

end Switch

inductive Verb where
  | check
  | transform
  | lex
  | parse
  deriving DecidableEq

namespace Verb

def ofName? : String → Option Verb
  | "check" => some check
  | "transform" => some transform
  | "lex" => some lex
  | "parse" => some parse
  | _ => none

def switches : Verb → List Switch
  | check => [.help, .debug]
  | transform => [.help, .factorRounds, .debug]
  | lex => [.help, .text, .input, .debug]
  | parse =>
    [.help, .text, .input, .parser, .noTransform, .allowConflicts, .fold, .factorRounds, .maxDepth,
     .maxSteps, .debug]

/-- Does the command work on a grammar file? -/
def hasFile : Verb → Bool
  | lex => false
  | _ => true

/-- Does the command work on a program? -/
def hasSource : Verb → Bool
  | lex | parse => true
  | _ => false

end Verb

/-! ## Sorting words -/

inductive Word where
  | plain (text : String)
  /-- The word `--`. -/
  | divider
  /-- An option by its long name, with the value after an equals sign if there is one. -/
  | long (switch : Switch) (attached : Option String)
  /-- An option by its letter, with what follows the letter in the word if anything does. -/
  | short (switch : Switch) (attached : Option (List Char))
  | unknown
  deriving DecidableEq

/-- A minus sign and digits, perhaps with a decimal point before the last of them. A line feed may
end the word. -/
def looksNegative (chars : List Char) : Bool :=
  match chars with
  | '-' :: rest =>
    let body := if rest.getLast? = some '\n' then rest.dropLast else rest
    let whole := body.takeWhile Text.isDecimal
    match body.drop whole.length with
    | [] => !whole.isEmpty
    | '.' :: fraction => !fraction.isEmpty && fraction.all Text.isDecimal
    | _ => false
  | _ => false

/-- A word before and after its first equals sign. -/
def splitAtEquals (chars : List Char) : List Char × Option (List Char) :=
  let name := chars.takeWhile (· ≠ '=')
  match chars.drop name.length with
  | [] => (name, none)
  | _ :: value => (name, some value)

/-- The option with a given letter. -/
def byLetter? (switches : List Switch) (c : Char) : Option Switch :=
  switches.find? fun s => s.letter? = some c

/-- What a word is to a command with the given options. -/
def classify (switches : List Switch) (word : String) : Except Stop Word :=
  let chars := word.toList
  let other := if looksNegative chars || chars.contains ' ' then Word.plain word else .unknown
  match chars with
  | '-' :: '-' :: _ =>
    let (name, attached) := splitAtEquals chars
    let attached := attached.map String.ofList
    match switches.find? fun s => s.long.toList = name with
    | some s => .ok (.long s attached)
    | none =>
      match switches.filter fun s => name.isPrefixOf s.long.toList with
      | [] => .ok other
      | [s] => .ok (.long s attached)
      | _ => .error .misuse
  | '-' :: c :: rest =>
    match byLetter? switches c with
    | none => .ok other
    | some s =>
      match rest with
      | [] => .ok (.short s none)
      | '=' :: value => .ok (.short s (some value))
      | _ => .ok (.short s (some rest))
  | _ => .ok (.plain word)

/-- Sorts the words of a command; from the word `--` on all of them are plain. -/
def classifyAll (switches : List Switch) : List String → Except Stop (List Word)
  | [] => .ok []
  | word :: rest =>
    if word = "--" then .ok (.divider :: rest.map .plain)
    else do
      let first ← classify switches word
      return first :: (← classifyAll switches rest)

/-! ## Taking words -/

/-- Where a program comes from. -/
inductive Source where
  | text (program : String)
  /-- A file; `none` when a file was asked for and its path left out. -/
  | file (path : Option String)
  deriving DecidableEq

def Source.isText : Source → Bool
  | text _ => true
  | file _ => false

/-- What the words taken so far say. A number is `none` when its option was given without one. -/
structure Settings where
  file : Option String
  debug : Bool
  source : Option Source
  predictive : Bool
  noTransform : Bool
  allowConflicts : Bool
  fold : Bool
  factorRounds : Option Int
  maxDepth : Option Int
  maxSteps : Option Int
  /-- Was there a word that nobody asked for? -/
  leftover : Bool
  deriving DecidableEq

def Settings.standard : Settings :=
  ⟨none, false, none, false, false, false, false, some 16, some 200, some 200000, false⟩

/-- A value that has to be a number when it is there. -/
def numberValue : Option String → Except Stop (Option Int)
  | none => .ok none
  | some value =>
    match Text.readInt? value with
    | some n => .ok (some n)
    | none => .error .misuse

namespace Settings

/-- Takes the source of the program. It may be given again in the same way, but not in two ways. -/
def setSource (s : Settings) (source : Source) : Except Stop Settings :=
  if s.source.any fun earlier => earlier.isText != source.isText then .error .misuse
  else .ok { s with source := some source }

/-- Takes an option with its value, which may have been left out. Without a value the program is
empty and the parser is the usual one. -/
def setValue (s : Settings) (switch : Switch) (value : Option String) : Except Stop Settings :=
  match switch with
  | .text => s.setSource (.text (value.getD ""))
  | .input => s.setSource (.file value)
  | .parser =>
    match value with
    | some "predictive" => .ok { s with predictive := true }
    | some "backtrack" | none => .ok { s with predictive := false }
    | some _ => .error .misuse
  | .factorRounds => do return { s with factorRounds := ← numberValue value }
  | .maxDepth => do return { s with maxDepth := ← numberValue value }
  | .maxSteps => do return { s with maxSteps := ← numberValue value }
  | _ => .error .misuse

/-- The value behind an equals sign. -/
def attachedValue (attached : String) : Option String :=
  if attached = "--" then none else some attached

/-- Takes an option without a value. -/
def setFlag (s : Settings) (switch : Switch) : Except Stop Settings :=
  match switch with
  | .help => .error .help
  | .debug => .ok { s with debug := true }
  | .noTransform => .ok { s with noTransform := true }
  | .allowConflicts => .ok { s with allowConflicts := true }
  | .fold => .ok { s with fold := true }
  | _ => .error .misuse

/-- Takes an option by its letter, with further letters behind it. All letters have to be options
before the first of them counts. -/
def setLetters (s : Settings) (switches : List Switch) (first : Switch) (more : List Char) :
    Except Stop Settings :=
  match more.mapM (byLetter? switches) with
  | none => .error .misuse
  | some others => (first :: others).foldlM setFlag s

/-- Takes the words of a command from left to right. `wanted` says whether the grammar file is
still to come. -/
def take (switches : List Switch) : (wanted : Bool) → Settings → List Word → Except Stop Settings
  | _, s, [] => .ok s
  | true, s, .divider :: .plain path :: rest => take switches false { s with file := some path } rest
  | true, s, .plain path :: .divider :: rest => take switches false { s with file := some path } rest
  | true, s, .plain path :: rest => take switches false { s with file := some path } rest
  | false, s, .plain _ :: rest => take switches false { s with leftover := true } rest
  | wanted, s, .divider :: rest => take switches wanted { s with leftover := true } rest
  | wanted, s, .unknown :: rest => take switches wanted { s with leftover := true } rest
  | wanted, s, .long switch attached :: rest =>
    if switch.takesValue then
      match attached, rest with
      | some attached, rest => do
        take switches wanted (← s.setValue switch (attachedValue attached)) rest
      | none, .plain value :: rest => do
        take switches wanted (← s.setValue switch (some value)) rest
      | none, _ => .error .misuse
    else
      match attached with
      | none => do take switches wanted (← s.setFlag switch) rest
      | some _ => .error .misuse
  | wanted, s, .short switch attached :: rest =>
    match attached with
    | none => do take switches wanted (← s.setFlag switch) rest
    | some [] => .error .misuse
    | some more => do take switches wanted (← s.setLetters switches switch more) rest

end Settings

/-! ## Commands -/

inductive Command where
  | check (file : String) (settings : Settings)
  | transform (file : String) (settings : Settings)
  | lex (source : Source)
  | parse (file : String) (source : Source) (settings : Settings)
  deriving DecidableEq

namespace Command

/-- The program that settings name. -/
def source? (s : Settings) : Except Stop Source :=
  match s.source with
  | some source => .ok source
  | none => .error .misuse

/-- The grammar file that settings name. -/
def file? (s : Settings) : Except Stop String :=
  match s.file with
  | some path => .ok path
  | none => .error .misuse

/-- The command of a verb and the words after it. -/
def ofVerb (verb : Verb) (words : List String) : Except Stop Command := do
  let words ← classifyAll verb.switches words
  let s ← Settings.take verb.switches verb.hasFile .standard words
  let command ← match verb with
    | .check => do pure (check (← file? s) s)
    | .transform => do pure (transform (← file? s) s)
    | .lex => do pure (lex (← source? s))
    | .parse => do pure (parse (← file? s) (← source? s) s)
  if s.leftover then throw .misuse
  return command

/-- Reads a command line. Before the command only help can be asked for. -/
def ofArguments : List String → Except Stop Command
  | [] => .error .misuse
  | word :: rest => do
    if word = "--" then throw .misuse
    match ← classify [.help] word with
    | .plain name =>
      match Verb.ofName? name with
      | some verb => ofVerb verb rest
      | none => throw .misuse
    | .long _ none | .short _ none => throw .help
    | .short _ (some []) => throw .misuse
    | .short switch (some more) =>
      let _ ← Settings.setLetters .standard [.help] switch more
      throw .misuse
    | .unknown =>
      let _ ← ofArguments rest
      throw .misuse
    | _ => throw .misuse

end Command

end TopDown.Program
