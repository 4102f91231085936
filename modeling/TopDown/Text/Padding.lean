/-
  Columns of plain text. Widths count characters; a text that is already wide enough is left alone.
-/

namespace TopDown.Text

/-- The text with blanks after it, up to a width. -/
def padRight (width : Nat) (s : String) : String :=
  s.pushn ' ' (width - s.length)

/-- The text with blanks before it, up to a width. -/
def padLeft (width : Nat) (s : String) : String :=
  "".pushn ' ' (width - s.length) ++ s

/-- A number in at least `width` digits. -/
def zeroPadded (width n : Nat) : String :=
  let digits := toString n
  "".pushn '0' (width - digits.length) ++ digits

/-- The width of the widest text, zero when there is none. -/
def widest (texts : List String) : Nat :=
  texts.foldl (fun w s => max w s.length) 0

/-- Texts one after the other with a separator between them. -/
def joined (separator : String) (texts : List String) : String :=
  separator.intercalate texts

/-- Texts as the lines of one text, without a line feed after the last. -/
def lines (texts : List String) : String :=
  joined "\n" texts

end TopDown.Text
