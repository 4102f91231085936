/-
  Token kinds: the fixed alphabet that programs are made of and that grammars use as terminals.
  Every kind has a spelling, the word or sign that stands for it in a grammar; the spellings are
  pairwise different. Some kinds may also be written by an alias.
-/

namespace TopDown

inductive Kind where
  | identifier
  | functionWord
  | returnWord
  | integer
  | string
  | openParen
  | closeParen
  | openBrace
  | closeBrace
  | openBracket
  | closeBracket
  | semicolon
  | comma
  | equals
  | slash
  | star
  | minus
  | plus
  /-- Stands after the last token; no program text is of this kind. -/
  | endOfInput
  deriving DecidableEq

namespace Kind

/-- The word or sign that stands for a kind in grammars and messages. -/
def spelling : Kind → String
  | identifier => "ID"
  | functionWord => "FN"
  | returnWord => "RETURN"
  | integer => "INT"
  | string => "STRING"
  | openParen => "("
  | closeParen => ")"
  | openBrace => "\x7b"
  | closeBrace => "\x7d"
  | openBracket => "["
  | closeBracket => "]"
  | semicolon => ";"
  | comma => ","
  | equals => "="
  | slash => "/"
  | star => "*"
  | minus => "-"
  | plus => "+"
  | endOfInput => "$"

/-- The name of a kind in token listings. -/
def label : Kind → String
  | identifier => "ID"
  | functionWord => "FN"
  | returnWord => "RETURN"
  | integer => "INT"
  | string => "STRING"
  | openParen => "LPAREN"
  | closeParen => "RPAREN"
  | openBrace => "LBRACE"
  | closeBrace => "RBRACE"
  | openBracket => "LBRACKET"
  | closeBracket => "RBRACKET"
  | semicolon => "SEMI"
  | comma => "COMMA"
  | equals => "EQUAL"
  | slash => "SLASH"
  | star => "STAR"
  | minus => "MINUS"
  | plus => "PLUS"
  | endOfInput => "EOF"

/-- Every kind once, ordered by the code points of the spellings. -/
def bySpelling : List Kind :=
  [endOfInput, openParen, closeParen, star, plus, comma, minus, slash, semicolon, equals,
   functionWord, identifier, integer, returnWord, string, openBracket, closeBracket, openBrace,
   closeBrace]

/-- The kind with a given spelling. -/
def ofSpelling? (s : String) : Option Kind :=
  bySpelling.find? (·.spelling == s)

/-- Further words for some kinds. -/
def aliases : List (String × Kind) :=
  [("IDT", identifier), ("FUN", functionWord), ("FUNCTION", functionWord), ("RET", returnWord),
   ("INTEGER", integer), ("STR", string), ("TXT", string)]

/-- The kind that a word or sign stands for in a grammar, by spelling or alias. The end of input
cannot be written there. -/
def named? (s : String) : Option Kind :=
  match ofSpelling? s with
  | some endOfInput => none
  | some k => some k
  | none => aliases.lookup s

/-- The kind of a single punctuation character. -/
def punctuation? : Char → Option Kind
  | '(' => some openParen
  | ')' => some closeParen
  | '{' => some openBrace
  | '}' => some closeBrace
  | '[' => some openBracket
  | ']' => some closeBracket
  | ';' => some semicolon
  | ',' => some comma
  | '=' => some equals
  | '/' => some slash
  | '*' => some star
  | '-' => some minus
  | '+' => some plus
  | _ => none

/-- The kind of a word: two words are reserved, any other is an identifier. -/
def ofWord (word : String) : Kind :=
  if word = "fn" then functionWord else if word = "return" then returnWord else identifier

theorem mem_bySpelling (k : Kind) : k ∈ bySpelling := by
  cases k <;> decide

theorem spelling_injective {a b : Kind} (h : a.spelling = b.spelling) : a = b := by
  have all : ∀ a ∈ bySpelling, ∀ b ∈ bySpelling, a.spelling = b.spelling → a = b := by decide
  exact all a (mem_bySpelling a) b (mem_bySpelling b) h

/-- The search by spelling finds every kind, and nothing else. -/
theorem ofSpelling?_eq_some_iff {s : String} {k : Kind} :
    ofSpelling? s = some k ↔ k.spelling = s := by
  constructor
  · intro h
    simpa using List.find?_some h
  · rintro rfl
    have found : (ofSpelling? k.spelling).isSome :=
      List.find?_isSome.2 ⟨k, mem_bySpelling k, by simp⟩
    obtain ⟨other, hother⟩ := Option.isSome_iff_exists.1 found
    have same : other.spelling = k.spelling := by simpa using List.find?_some hother
    rw [hother, spelling_injective same]

end Kind

end TopDown
