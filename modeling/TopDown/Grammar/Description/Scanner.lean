import TopDown.Grammar.Description.Fault
import TopDown.Token.Lexer

/-
  Splitting a grammar description into pieces. Comments start with `#` or `//` and end before the
  line feed; an arrow is `->` or `→`. The empty alternative is written `ε`, and that letter is a
  piece of its own unless it continues a name.
-/

namespace TopDown.Description

open Text (Place isIdentifierStart isIdentifierContinue)

/-- The letters of a directive's name. -/
def isDirectiveLetter (c : Char) : Bool :=
  c.isAlpha || c == '_'

/-- What stands at the front of the text `c :: rest`: the sort of piece, `none` for blanks and
comments, and the number of characters it covers after the first. -/
def front (c : Char) (rest : List Char) : Except Fault (Option PieceKind × Nat) :=
  let comment := (none, (rest.takeWhile (· ≠ '\n')).length)
  if c = '\n' then .ok (some .newline, 0)
  else if isBlank c then .ok (none, 0)
  else if c = '#' then .ok comment
  else if c = '/' ∧ rest.head? = some '/' then .ok comment
  else if c = '-' ∧ rest.head? = some '>' then .ok (some .arrow, 1)
  else if c = '→' then .ok (some .arrow, 0)
  else if c = '|' then .ok (some .bar, 0)
  else if c = '%' ∧ rest.head?.any isDirectiveLetter then
    .ok (some .directive, (rest.takeWhile isDirectiveLetter).length)
  else if c = 'ε' then .ok (some .epsilon, 0)
  else if isIdentifierStart c || c == '_' then
    .ok (some .identifier, (rest.takeWhile isIdentifierContinue).length)
  else
    match Kind.punctuation? c with
    | some kind => .ok (some (.punctuation kind), 0)
    | none => .error (.unexpectedCharacter c)

/-- The pieces of `rest`, the part of `source` that starts at `place`, and after them the piece
that marks the end of the text. -/
def scan (source : List Char) : List Char → Place → Except Error (List Piece)
  | [], place => .ok [⟨.finish, "", place⟩]
  | c :: rest, place =>
    match front c rest with
    | .error fault => .error (.locate source place fault)
    | .ok (kind, width) =>
      let covered := c :: rest.take width
      match scan source (rest.drop width) (place.advance covered) with
      | .error e => .error e
      | .ok pieces =>
        match kind with
        | none => .ok pieces
        | some kind => .ok (⟨kind, String.ofList covered, place⟩ :: pieces)
termination_by chars => chars.length
decreasing_by rw [List.length_drop, List.length_cons]; omega

/-- A line of pieces and the piece that ends it. -/
structure Line where
  pieces : List Piece
  stop : Piece
  deriving DecidableEq

/-- Does the piece end a line? -/
def Piece.endsLine (p : Piece) : Bool :=
  p.kind = .newline || p.kind = .finish

/-- Cuts pieces into lines; `current` holds the pieces of the line so far. -/
def cutLines (current : List Piece) : List Piece → List Line
  | [] => []
  | p :: rest => if p.endsLine then ⟨current, p⟩ :: cutLines [] rest else cutLines (current ++ [p]) rest

end TopDown.Description
