import TopDown.Grammar.Description.Piece
import TopDown.Text.Quoted

/-
  What can be wrong with a grammar description. Every fault but one has a place in the text, which
  the message shows together with an excerpt.
-/

namespace TopDown.Description

inductive Fault where
  | unexpectedCharacter (c : Char)
  /-- A rule must begin with the name of its nonterminal. -/
  | expectedName (got : PieceKind)
  | expected (wanted got : PieceKind)
  | unexpectedPiece (got : PieceKind) (owner : String)
  | unknownDirective (name : String)
  | repeatedStart
  | clutteredStart
  | noRules
  | reservedName (name : String)
  | kindAsName (name : String)
  | unknownKind (name : String)
  | crowdedEpsilon
  | undeclaredStart (name : String)
  deriving DecidableEq

def Fault.text : Fault → String
  | unexpectedCharacter c => "Unexpected char " ++ Text.quote (String.singleton c)
  | expectedName got => "Expected a nonterminal name, got " ++ got.label
  | expected wanted got =>
    "Expected " ++ wanted.label ++ ", got "
      ++ (if got = .newline then "end of line" else got.label)
  | unexpectedPiece got owner => "Unexpected " ++ got.label ++ " in production of '" ++ owner ++ "'"
  | unknownDirective name => "Unknown directive %" ++ name
  | repeatedStart => "Duplicate %start directive"
  | clutteredStart => "Expected end of line after %start name"
  | noRules => "Grammar has no productions"
  | reservedName name => "Names starting with '__' are reserved: '" ++ name ++ "'"
  | kindAsName name => "'" ++ name ++ "' is a token kind and cannot have productions"
  | unknownKind name => "Unknown token kind '" ++ name ++ "'"
  | crowdedEpsilon => "Epsilon must stand alone in its alternative"
  | undeclaredStart name => "%start names an undeclared nonterminal '" ++ name ++ "'"

/-- A fault, with its place and an excerpt of the text when it has a place. -/
structure Error where
  fault : Fault
  site : Option (Text.Place × String)
  deriving DecidableEq

def Error.message (e : Error) : String :=
  match e.site with
  | none => e.fault.text
  | some (place, excerpt) => e.fault.text ++ " at " ++ place.label ++ "\n" ++ excerpt

/-- A fault at a place of a text. -/
def Error.locate (source : List Char) (place : Text.Place) (fault : Fault) : Error :=
  ⟨fault, some (place, Text.excerpt source place.offset.toNat)⟩

end TopDown.Description
