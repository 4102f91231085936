import TopDown.Text.Place
import TopDown.Token.Kind

/-
  Tokens: a kind, the text it was read from, and the place of its first character. A token need not
  come from a text; then its text may be absent.
-/

namespace TopDown

structure Token where
  kind : Kind
  text : Option String
  place : Text.Place
  deriving DecidableEq

namespace Token

/-- Kind, text and place in one word, for listings. -/
def render (t : Token) : String :=
  t.kind.spelling ++ "[" ++ t.text.getD "None" ++ "]@" ++ t.place.label

end Token

end TopDown
