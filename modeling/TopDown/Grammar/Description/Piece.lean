import TopDown.Text.Place
import TopDown.Token.Kind

/-
  The pieces that a grammar description is made of. Blanks and comments separate pieces and are
  none themselves; a line feed is one, because it ends a rule.
-/

namespace TopDown.Description

inductive PieceKind where
  | newline
  | arrow
  | bar
  | directive
  | epsilon
  | identifier
  | punctuation (kind : Kind)
  | finish
  deriving DecidableEq

/-- The name of a sort of piece in messages. -/
def PieceKind.label : PieceKind → String
  | newline => "NEWLINE"
  | arrow => "ARROW"
  | bar => "OR"
  | directive => "DIRECTIVE"
  | epsilon => "EPS"
  | identifier => "IDENT"
  | punctuation _ => "PUNCT"
  | finish => "EOF"

structure Piece where
  kind : PieceKind
  text : String
  place : Text.Place
  deriving DecidableEq

end TopDown.Description
