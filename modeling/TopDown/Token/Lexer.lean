import TopDown.Text.Quoted
import TopDown.Token.Basic

/-
  Splitting a program text into tokens.

  `Lexeme.front` reads what stands at the front of a text: blanks, a string between double quotes,
  a run of digits, a word, or a punctuation character. `scan` repeats it from the left and keeps
  the tokens it has when it meets a character that begins no lexeme. `Lexer` hands the same tokens
  out one at a time and lets the caller look at the next one first.

  A string keeps its escapes. Digits followed at once by letters are refused, as are strings that
  their line does not close.
-/

namespace TopDown

open Text (Place isIdentifierStart isIdentifierContinue)

/-- Why no lexeme stands at a place. -/
inductive LexFault where
  | unexpectedCharacter (c : Char)
  | unterminatedString
  | malformedNumber (written : List Char)
  deriving DecidableEq

/-- A fault with its place and an excerpt of the text around it. -/
structure LexError where
  fault : LexFault
  place : Place
  excerpt : String
  deriving DecidableEq

def LexFault.text : LexFault → String
  | unexpectedCharacter c => "unexpected character " ++ Text.quote (String.singleton c)
  | unterminatedString => "unterminated string"
  | malformedNumber written => "malformed number " ++ Text.quote (String.ofList written)

def LexError.message (e : LexError) : String :=
  e.fault.text ++ " at " ++ e.place.label ++ "\n" ++ e.excerpt

/-- A fault at a place of a text. -/
def LexError.locate (source : List Char) (place : Place) (fault : LexFault) : LexError :=
  ⟨fault, place, Text.excerpt source place.offset.toNat⟩

/-- Characters between tokens. -/
def isBlank (c : Char) : Bool :=
  c == ' ' || c == '\t' || c == '\x0c' || c == '\r' || c == '\n'

/-- The characters of a string up to its closing quote, when its line closes it. A backslash takes
the next character with it. -/
def stringBody : List Char → Option (List Char)
  | [] => none
  | '"' :: _ => some []
  | '\\' :: c :: rest => if c = '\n' then none else (stringBody rest).map ('\\' :: c :: ·)
  | c :: rest => if c = '\\' ∨ c = '\n' then none else (stringBody rest).map (c :: ·)

/-- What stands at the front of a text. It covers the first character and `width` more; blanks
carry no token. -/
structure Lexeme where
  token : Option (Kind × String)
  width : Nat

namespace Lexeme

/-- A token whose text is everything that the lexeme covers. -/
def plain (kind : Kind) (c : Char) (more : List Char) : Lexeme :=
  ⟨some (kind, String.ofList (c :: more)), more.length⟩

/-- The lexeme at the front of the text `c :: rest`. -/
def front (c : Char) (rest : List Char) : Except LexFault Lexeme :=
  if isBlank c then .ok ⟨none, 0⟩
  else if c = '"' then
    match stringBody rest with
    | some body => .ok ⟨some (.string, String.ofList body), body.length + 1⟩
    | none => .error .unterminatedString
  else if c.isDigit then
    let more := rest.takeWhile isIdentifierContinue
    if more.all Char.isDigit then .ok (plain .integer c more)
    else .error (.malformedNumber (c :: more))
  else if isIdentifierStart c || c == '_' then
    let more := rest.takeWhile isIdentifierContinue
    .ok (plain (Kind.ofWord (String.ofList (c :: more))) c more)
  else
    match Kind.punctuation? c with
    | some kind => .ok (plain kind c [])
    | none => .error (.unexpectedCharacter c)

end Lexeme

/-! ## The whole text at once -/

/-- The tokens of a text up to its end or its first fault, with what is left there. -/
structure Scan where
  tokens : List Token
  fault : Option LexError
  rest : List Char
  place : Place

/-- Scans `rest`, the part of `source` that starts at `place`. -/
def scan (source : List Char) : List Char → Place → Scan
  | [], place => ⟨[], none, [], place⟩
  | c :: rest, place =>
    match Lexeme.front c rest with
    | .error fault => ⟨[], some (.locate source place fault), c :: rest, place⟩
    | .ok lexeme =>
      let after := scan source (rest.drop lexeme.width)
        (place.advance (c :: rest.take lexeme.width))
      match lexeme.token with
      | none => after
      | some (kind, text) => { after with tokens := ⟨kind, some text, place⟩ :: after.tokens }
termination_by chars => chars.length
decreasing_by rw [List.length_drop, List.length_cons]; omega

/-- All tokens of a text, or its first fault. -/
def tokenize (text : String) : Except LexError (List Token) :=
  let result := scan text.toList text.toList .start
  match result.fault with
  | some e => .error e
  | none => .ok result.tokens

/-! ## One token at a time -/

/-- A text being read: `rest` is the part not yet scanned, `peeked` a token that has been scanned
and not yet handed out. -/
structure Lexer where
  source : List Char
  rest : List Char
  place : Place
  peeked : Option Token

namespace Lexer

/-- A lexer at the front of a text, counting from the given line and column. -/
def reset (text : String) (line : Int) (col : Int) : Lexer :=
  ⟨text.toList, text.toList, ⟨0, line, col⟩, none⟩

def ofText (text : String) : Lexer :=
  reset text 1 1

/-- The next token of `rest`, which starts at `place`, and what follows it; `none` at the end. -/
def scanToken (source : List Char) :
    List Char → Place → Except LexError (Option Token × List Char × Place)
  | [], place => .ok (none, [], place)
  | c :: rest, place =>
    match Lexeme.front c rest with
    | .error fault => .error (.locate source place fault)
    | .ok lexeme =>
      let after := rest.drop lexeme.width
      let placeAfter := place.advance (c :: rest.take lexeme.width)
      match lexeme.token with
      | none => scanToken source after placeAfter
      | some (kind, text) => .ok (some ⟨kind, some text, place⟩, after, placeAfter)
termination_by chars => chars.length
decreasing_by rw [List.length_drop, List.length_cons]; omega

/-- The next token without handing it out, and the lexer that remembers it. -/
def peek (l : Lexer) : Except LexError (Option Token × Lexer) :=
  match l.peeked with
  | some t => .ok (some t, l)
  | none => do
    let (t, rest, place) ← scanToken l.source l.rest l.place
    return (t, { l with rest, place, peeked := t })

/-- The next token, handed out. -/
def next (l : Lexer) : Except LexError (Option Token × Lexer) :=
  match l.peeked with
  | some t => .ok (some t, { l with peeked := none })
  | none => do
    let (t, rest, place) ← scanToken l.source l.rest l.place
    return (t, { l with rest, place })

/-- The lexer past the blanks in front of it. -/
def skipBlanks (l : Lexer) : Lexer :=
  { l with
    rest := l.rest.dropWhile isBlank
    place := l.place.advance (l.rest.takeWhile isBlank) }

/-- What is asked of a lexer in use. -/
inductive Call where
  | peek
  | next
  deriving DecidableEq

/-- The answer to a call, and the lexer after it. A call that meets a fault leaves the lexer there,
past the blanks before the fault. -/
def ask (l : Lexer) (call : Call) : Except LexError (Option Token) × Lexer :=
  let outcome := match call with
    | .peek => l.peek
    | .next => l.next
  match outcome with
  | .ok (t, after) => (.ok t, after)
  | .error e => (.error e, l.skipBlanks)

/-- Hands out everything up to the end or the first fault. -/
def drain (l : Lexer) : Except LexError (List Token) × Lexer :=
  let result := scan l.source l.rest l.place
  let after := { l with rest := result.rest, place := result.place, peeked := none }
  match result.fault with
  | some e => (.error e, after)
  | none => (.ok (l.peeked.toList ++ result.tokens), after)

end Lexer

end TopDown
