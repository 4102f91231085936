import TopDown.Grammar.Description.Scanner

/-
  The first reading of a description, line by line. A line is empty, names the start symbol, or
  gives alternatives to a nonterminal; which names are terminals is not decided yet.
-/

namespace TopDown.Description

/-- The alternatives that one line gives to a nonterminal. -/
structure RawRule where
  name : Piece
  alts : List (List Piece)
  deriving DecidableEq

/-- What the lines read so far say. -/
structure Draft where
  rules : List RawRule
  start : Option Piece
  deriving DecidableEq

/-- May the piece stand in an alternative? -/
def Piece.isItem (p : Piece) : Bool :=
  match p.kind with
  | .identifier | .punctuation _ | .epsilon => true
  | _ => false

/-- Cuts the pieces after an arrow at the bars. -/
def cutAtBars : List Piece → List (List Piece)
  | [] => [[]]
  | p :: rest =>
    if p.kind = .bar then [] :: cutAtBars rest
    else
      match cutAtBars rest with
      | [] => [[p]]
      | alt :: alts => (p :: alt) :: alts

/-- The right-hand side of a line: items and bars only. -/
def readAlternatives (source : List Char) (owner : String) (pieces : List Piece) :
    Except Error (List (List Piece)) :=
  match pieces.find? fun p => !(p.isItem || p.kind = .bar) with
  | some p => .error (.locate source p.place (.unexpectedPiece p.kind owner))
  | none => .ok (cutAtBars pieces)

/-- A line that begins with `name`, not a directive: a rule. -/
def readRule (source : List Char) (name : Piece) (rest : List Piece) (stop : Piece) :
    Except Error RawRule :=
  if name.kind ≠ .identifier then .error (.locate source name.place (.expectedName name.kind))
  else
    match rest with
    | [] => .error (.locate source stop.place (.expected .arrow stop.kind))
    | arrow :: body =>
      if arrow.kind ≠ .arrow then
        .error (.locate source arrow.place (.expected .arrow arrow.kind))
      else
        match readAlternatives source name.text body with
        | .error e => .error e
        | .ok alts => .ok ⟨name, alts⟩

/-- The name of a directive, without its percent sign. -/
def Piece.directiveName (p : Piece) : String :=
  String.ofList (p.text.toList.drop 1)

/-- A line that begins with a directive: it names the start symbol. `known` is the start symbol of
an earlier line. -/
def readDirective (source : List Char) (known : Option Piece) (directive : Piece)
    (rest : List Piece) (stop : Piece) : Except Error Piece :=
  if directive.directiveName ≠ "start" then
    .error (.locate source directive.place (.unknownDirective directive.directiveName))
  else if known.isSome then .error (.locate source directive.place .repeatedStart)
  else
    match rest with
    | [] => .error (.locate source stop.place (.expected .identifier stop.kind))
    | name :: more =>
      if name.kind ≠ .identifier then
        .error (.locate source name.place (.expected .identifier name.kind))
      else
        match more with
        | [] => .ok name
        | p :: _ => .error (.locate source p.place .clutteredStart)

/-- Adds a line to a draft. -/
def Draft.read (source : List Char) (d : Draft) (line : Line) : Except Error Draft :=
  match line.pieces with
  | [] => .ok d
  | p :: rest =>
    if p.kind = .directive then
      match readDirective source d.start p rest line.stop with
      | .error e => .error e
      | .ok name => .ok { d with start := some name }
    else
      match readRule source p rest line.stop with
      | .error e => .error e
      | .ok rule => .ok { d with rules := d.rules ++ [rule] }

/-- The draft of a whole text. It has at least one rule. -/
def Draft.ofText (source : List Char) : Except Error Draft := do
  let pieces ← scan source source .start
  let draft ← (cutLines [] pieces).foldlM (Draft.read source) ⟨[], none⟩
  if draft.rules.isEmpty then throw ⟨.noRules, none⟩
  return draft

end TopDown.Description
