import TopDown.Proofs.Tiling

/-
  A lexer that hands out one token at a time is a cursor over the scan of its text.

  A cursor has the scan of a whole text and a count of the tokens that were asked for. A lexer
  follows a cursor when the token that it remembers, and what scanning the rest of its text would
  give, are what the cursor has left (`Lexer.Follows`). A request keeps this and is answered as the
  cursor says (`Follows.serve`), a call that fails included: it may move past blanks, and what is
  scanned after blanks is scanned before them too.

  So the answer to a call depends on the number of tokens asked for alone, not on the calls that
  looked ahead or failed in between (`ask_exact`).
-/

namespace TopDown

open Text (Place)

/-- What comes after so many tokens of a text: a token, or the end, or the first fault. -/
def Scan.answer (s : Scan) (count : Nat) : Except LexError (Option Token) :=
  match s.tokens[count]? with
  | some t => .ok (some t)
  | none =>
    match s.fault with
    | some e => .error e
    | none => .ok none

/-! ## Requests -/

/-- What may happen to a lexer: a call, or another text to read. -/
inductive Request where
  | call (c : Lexer.Call)
  | reset (text : String) (line col : Int)

namespace Lexer

/-- A new text gives no token. -/
def serve (l : Lexer) : Request → Except LexError (Option Token) × Lexer
  | .call c => l.ask c
  | .reset text line col => (.ok none, reset text line col)

/-- The lexer after some requests. -/
def after (l : Lexer) (requests : List Request) : Lexer :=
  requests.foldl (fun l request => (l.serve request).2) l

/-- The answers to some requests, one after the other. -/
def answers : Lexer → List Request → List (Except LexError (Option Token))
  | _, [] => []
  | l, request :: more => (l.serve request).1 :: (l.serve request).2.answers more

end Lexer

/-- A scanned text and the number of tokens that were asked for. -/
structure Cursor where
  scan : Scan
  asked : Nat

namespace Cursor

/-- The cursor at the front of a text, which is scanned from its first character on. -/
def ofText (text : String) (line col : Int) : Cursor :=
  ⟨TopDown.scan text.toList text.toList ⟨0, line, col⟩, 0⟩

/-- Only asking for the next token moves the cursor. -/
def serve (c : Cursor) : Request → Cursor
  | .call .peek => c
  | .call .next => { c with asked := c.asked + 1 }
  | .reset text line col => ofText text line col

def after (c : Cursor) (requests : List Request) : Cursor :=
  requests.foldl serve c

/-- Looking and taking are answered alike. -/
def answer (c : Cursor) : Except LexError (Option Token) :=
  c.scan.answer c.asked

def answerTo (c : Cursor) : Request → Except LexError (Option Token)
  | .call _ => c.answer
  | .reset _ _ _ => .ok none

end Cursor

variable {source rest rest' : List Char} {place place' : Place} {e : LexError} {t : Option Token}
  {l l' : Lexer} {c : Cursor}

/-! ## One token and the whole scan -/

theorem scan_skipBlanks (source rest : List Char) (place : Place) :
    scan source (rest.dropWhile isBlank) (place.advance (rest.takeWhile isBlank))
      = scan source rest place := by
  induction rest generalizing place with
  | nil => rfl
  | cons d rest ih =>
    by_cases blank : isBlank d = true
    · rw [List.dropWhile_cons_of_pos blank, List.takeWhile_cons_of_pos blank,
        Text.Place.advance_cons, ih, scan_blank blank]
    · rw [List.dropWhile_cons_of_neg blank, List.takeWhile_cons_of_neg blank,
        Text.Place.advance_nil]

/-- Where no token can be read, the scan stops without one. -/
theorem scan_of_scanToken_error (h : Lexer.scanToken source rest place = .error e) :
    (scan source rest place).tokens = [] ∧ (scan source rest place).fault = some e := by
  fun_induction Lexer.scanToken source rest place with
  | case1 => cases h
  | case2 d rest place fault hfront =>
    cases h
    rw [scan, hfront]
    exact ⟨rfl, rfl⟩
  | case3 d rest place lexeme hfront after placeAfter htoken ih =>
    rw [scan, hfront]
    simp only [htoken]
    exact ih h
  | case4 => cases h

/-- A token that is read is the first one of the scan, and the scan goes on behind it; where none is
read, nothing is left. -/
theorem scan_of_scanToken_ok (h : Lexer.scanToken source rest place = .ok (t, rest', place')) :
    (scan source rest place).tokens = t.toList ++ (scan source rest' place').tokens ∧
      (scan source rest place).fault = (scan source rest' place').fault ∧
        (t = none → rest' = []) := by
  fun_induction Lexer.scanToken source rest place with
  | case1 =>
    cases h
    exact ⟨rfl, rfl, fun _ => rfl⟩
  | case2 => cases h
  | case3 d rest place lexeme hfront after placeAfter htoken ih =>
    rw [scan, hfront]
    simp only [htoken]
    exact ih h
  | case4 d rest place lexeme hfront after placeAfter kind text htoken =>
    simp only [Except.ok.injEq, Prod.mk.injEq] at h
    obtain ⟨rfl, hrest, hplace⟩ := h
    rw [scan, hfront, ← hrest, ← hplace]
    simp only [htoken]
    exact ⟨rfl, rfl, fun none => by cases none⟩

/-! ## Lexers and cursors -/

/-- The lexer has left what the cursor has left. -/
structure Lexer.Follows (l : Lexer) (c : Cursor) : Prop where
  tokens : c.scan.tokens.drop c.asked = l.peeked.toList ++ (scan l.source l.rest l.place).tokens
  fault : c.scan.fault = (scan l.source l.rest l.place).fault

theorem follows_reset (text : String) (line col : Int) :
    (Lexer.reset text line col).Follows (Cursor.ofText text line col) :=
  ⟨rfl, rfl⟩

theorem Cursor.answer_of_cons {first : Token} {tokens : List Token}
    (h : c.scan.tokens.drop c.asked = first :: tokens) : c.answer = .ok (some first) := by
  have here : c.scan.tokens[c.asked]? = some first := by
    rw [← List.head?_drop, h, List.head?_cons]
  simp [answer, Scan.answer, here]

theorem Cursor.answer_of_nil (h : c.scan.tokens.drop c.asked = []) :
    c.answer = match c.scan.fault with
      | some e => .error e
      | none => .ok none := by
  have here : c.scan.tokens[c.asked]? = none := by
    rw [← List.head?_drop, h, List.head?_nil]
  simp [answer, Scan.answer, here]

/-- What the cursor has left after the next token. -/
theorem Cursor.drop_succ (c : Cursor) :
    c.scan.tokens.drop (c.asked + 1) = (c.scan.tokens.drop c.asked).tail :=
  List.tail_drop.symm

namespace Lexer.Follows

/-- A token that the lexer remembers is looked at or taken. -/
theorem ask_remembered {first : Token} (h : l.Follows c) (remembered : l.peeked = some first)
    (call : Call) : (l.ask call).1 = c.answer ∧ (l.ask call).2.Follows (c.serve (.call call)) := by
  have tokens := h.tokens
  rw [remembered, Option.toList_some, List.singleton_append] at tokens
  rw [Cursor.answer_of_cons tokens]
  cases call with
  | peek =>
    have same : l.ask .peek = (.ok (some first), l) := by simp [ask, peek, remembered]
    rw [same]
    exact ⟨rfl, h⟩
  | next =>
    have taken : l.ask .next = (.ok (some first), { l with peeked := none }) := by
      simp [ask, next, remembered]
    rw [taken]
    refine ⟨rfl, ?_, h.fault⟩
    show c.scan.tokens.drop (c.asked + 1) = _
    rw [c.drop_succ, tokens]
    rfl

/-- At a fault a call fails, and the lexer moves past blanks at most. -/
theorem ask_fault (h : l.Follows c) (none : l.peeked = none)
    (fails : scanToken l.source l.rest l.place = .error e) (call : Call) :
    (l.ask call).1 = c.answer ∧ (l.ask call).2.Follows (c.serve (.call call)) := by
  obtain ⟨empty, fault⟩ := scan_of_scanToken_error fails
  have tokens := h.tokens
  rw [none, Option.toList_none, List.nil_append, empty] at tokens
  have failed : l.ask call = (.error e, l.skipBlanks) := by
    cases call <;> simp [ask, peek, next, none, fails, bind, Except.bind]
  rw [failed, Cursor.answer_of_nil tokens, h.fault, fault]
  have still : (scan l.skipBlanks.source l.skipBlanks.rest l.skipBlanks.place)
      = scan l.source l.rest l.place := scan_skipBlanks l.source l.rest l.place
  refine ⟨rfl, ?_⟩
  cases call with
  | peek =>
    refine ⟨?_, still ▸ h.fault⟩
    show c.scan.tokens.drop c.asked = l.peeked.toList ++ _
    rw [still, none, empty, tokens]
    rfl
  | next =>
    refine ⟨?_, still ▸ h.fault⟩
    show c.scan.tokens.drop (c.asked + 1) = l.peeked.toList ++ _
    rw [still, none, empty, c.drop_succ, tokens]
    rfl

/-- What a call reads is what the cursor has next; `peek` remembers it. -/
theorem ask_read (h : l.Follows c) (none : l.peeked = none)
    (reads : scanToken l.source l.rest l.place = .ok (t, rest', place')) (call : Call) :
    (l.ask call).1 = c.answer ∧ (l.ask call).2.Follows (c.serve (.call call)) := by
  obtain ⟨first, fault, ends⟩ := scan_of_scanToken_ok reads
  have tokens := h.tokens
  rw [none, Option.toList_none, List.nil_append, first] at tokens
  have answered : c.answer = .ok t := by
    cases t with
    | some t => exact Cursor.answer_of_cons tokens
    | none =>
      obtain rfl := ends rfl
      rw [scan] at tokens fault
      rw [Cursor.answer_of_nil tokens, h.fault, fault]
  cases call with
  | peek =>
    have looked : l.ask .peek
        = (.ok t, { l with rest := rest', place := place', peeked := t }) := by
      simp [ask, peek, none, reads, bind, Except.bind, pure, Except.pure]
    rw [looked, answered]
    exact ⟨rfl, tokens, h.fault.trans fault⟩
  | next =>
    have taken : l.ask .next = (.ok t, { l with rest := rest', place := place' }) := by
      simp [ask, next, none, reads, bind, Except.bind, pure, Except.pure]
    rw [taken, answered]
    refine ⟨rfl, ?_, h.fault.trans fault⟩
    show c.scan.tokens.drop (c.asked + 1) = l.peeked.toList ++ _
    rw [c.drop_succ, tokens, none]
    cases t with
    | some t => rfl
    | none =>
      obtain rfl := ends rfl
      rw [scan]
      rfl

theorem ask (h : l.Follows c) (call : Call) :
    (l.ask call).1 = c.answer ∧ (l.ask call).2.Follows (c.serve (.call call)) := by
  cases remembered : l.peeked with
  | some first => exact h.ask_remembered remembered call
  | none =>
    cases outcome : scanToken l.source l.rest l.place with
    | error e => exact h.ask_fault remembered outcome call
    | ok read => exact h.ask_read remembered outcome call

theorem serve (h : l.Follows c) (request : Request) :
    (l.serve request).1 = c.answerTo request ∧ (l.serve request).2.Follows (c.serve request) := by
  cases request with
  | call call => exact h.ask call
  | reset text line col => exact ⟨rfl, follows_reset text line col⟩

theorem after (h : l.Follows c) (requests : List Request) :
    (l.after requests).Follows (c.after requests) := by
  induction requests generalizing l c with
  | nil => exact h
  | cons request more ih => exact ih (h.serve request).2

/-- Lexers that follow the same cursor cannot be told apart. -/
theorem answers_eq (h : l.Follows c) (h' : l'.Follows c) (requests : List Request) :
    l.answers requests = l'.answers requests := by
  induction requests generalizing l l' c with
  | nil => rfl
  | cons request more ih =>
    obtain ⟨answer, follows⟩ := h.serve request
    obtain ⟨answer', follows'⟩ := h'.serve request
    rw [answers, answers, answer, answer', ih follows follows']

end Lexer.Follows

/-! ## Calls in any order -/

/-- A lexer on a text is a faithful cursor over its scan, whatever was asked of it before, and
whatever texts it was given since. A call is answered with the token that comes after those asked
for, or else with the end, or with the first fault, each time alike. Looking ahead answers what
taking the next token would, and changes no later answer. -/
theorem ask_exact (text : String) (requests : List Request) :
    let l := (Lexer.ofText text).after requests
    let c := (Cursor.ofText text 1 1).after requests
    (l.ask .next).1 = c.scan.answer c.asked ∧ (l.ask .peek).1 = (l.ask .next).1 ∧
      ∀ more, (l.ask .peek).2.answers more = l.answers more := by
  intro l c
  have follows : l.Follows c := (follows_reset text 1 1).after requests
  obtain ⟨taken, -⟩ := follows.ask .next
  obtain ⟨looked, still⟩ := follows.ask .peek
  exact ⟨taken, looked.trans taken.symm, fun more => still.answers_eq follows more⟩

end TopDown
