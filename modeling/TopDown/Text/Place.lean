/-
  Places in a text. A scanner carries the place of the next character along: its offset, and the
  line and column under which a reader finds it. `excerpt` shows a line of the text with a caret
  below one of its characters; it works from the offset alone.
-/

namespace TopDown.Text

/-- The offset counts characters from the start of the text. Line and column are what messages
show; a scan may be started at any line and column, and a token that comes from no text may be
given any place, so all three are integers. -/
structure Place where
  offset : Int
  line : Int
  col : Int
  deriving DecidableEq

namespace Place

/-- The place of the first character of a text. -/
def start : Place := ⟨0, 1, 1⟩

/-- The place after one more character: a line feed opens a new line. -/
def step (p : Place) (c : Char) : Place :=
  if c = '\n' then ⟨p.offset + 1, p.line + 1, 1⟩ else ⟨p.offset + 1, p.line, p.col + 1⟩

/-- The place after a run of characters. -/
def advance (p : Place) (cs : List Char) : Place :=
  cs.foldl step p

/-- Line and column as messages write them. -/
def label (p : Place) : String :=
  toString p.line ++ ":" ++ toString p.col

@[simp] theorem advance_nil (p : Place) : p.advance [] = p := rfl

@[simp] theorem advance_cons (p : Place) (c : Char) (cs : List Char) :
    p.advance (c :: cs) = (p.step c).advance cs := rfl

@[simp] theorem advance_append (p : Place) (cs ds : List Char) :
    p.advance (cs ++ ds) = (p.advance cs).advance ds :=
  List.foldl_append

@[simp] theorem step_offset (p : Place) (c : Char) : (p.step c).offset = p.offset + 1 := by
  unfold step; split <;> rfl

@[simp] theorem advance_offset (p : Place) (cs : List Char) :
    (p.advance cs).offset = p.offset + cs.length := by
  induction cs generalizing p with
  | nil => simp
  | cons c cs ih => simp [ih]; omega

end Place

/-- The characters between the last line feed before an offset and that offset. -/
def lineBefore (source : List Char) (offset : Nat) : List Char :=
  ((source.take offset).reverse.takeWhile (· ≠ '\n')).reverse

/-- The characters from an offset up to the next line feed. -/
def lineAfter (source : List Char) (offset : Nat) : List Char :=
  (source.drop offset).takeWhile (· ≠ '\n')

/-- The line that holds the offset, and under it a caret at the offset's column. -/
def excerpt (source : List Char) (offset : Nat) : String :=
  let before := lineBefore source offset
  String.ofList
    (before ++ lineAfter source offset ++ '\n' :: List.replicate before.length ' ' ++ ['^'])

end TopDown.Text
