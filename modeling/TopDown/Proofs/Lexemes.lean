import Mathlib.Tactic.IntervalCases
import TopDown.Proofs.Scanning

/-
  What stands at the front of a program text.

  `Stands kind text covered rest` says that a token of the kind, with the text, is written
  `covered` in front of `rest`. There is one rule for each sort of token, and none of them mentions
  how a text is scanned: the body of a string, digits, a name, a sign, and for digits and names that
  nothing follows which would continue them.

  `Lexeme.front` reads exactly this (`front_cases`, `Stands.front`). A blank or the end of the text
  after a token never changes it (`Stands.apart`).
-/

namespace TopDown

open Text (isIdentifierStart isIdentifierContinue)
open Description (opensName Apart ne_of_opensName)

variable {c : Char} {cs body rest covered : List Char} {kind : Kind} {text : String}

/-! ## Strings -/

/-- What may stand between the quotes of a string. -/
inductive StringBody : List Char → Prop where
  | nil : StringBody []
  | escaped {c : Char} {body : List Char} (line : c ≠ '\n') (more : StringBody body) :
      StringBody ('\\' :: c :: body)
  | plain {c : Char} {body : List Char} (quote : c ≠ '"') (escape : c ≠ '\\') (line : c ≠ '\n')
      (more : StringBody body) : StringBody (c :: body)

theorem StringBody.stringBody_append (h : StringBody body) (rest : List Char) :
    stringBody (body ++ '"' :: rest) = some body := by
  induction h with
  | nil => rfl
  | escaped line more ih => simp [stringBody, line, ih]
  | plain quote escape line more ih => simp [stringBody, escape, line, ih]

theorem exists_of_stringBody (h : stringBody cs = some body) :
    ∃ rest, cs = body ++ '"' :: rest ∧ StringBody body := by
  fun_induction stringBody cs generalizing body with
  | case1 => cases h
  | case2 rest =>
    cases h
    exact ⟨rest, rfl, .nil⟩
  | case3 => cases h
  | case4 c rest line ih =>
    obtain ⟨more, hmore, rfl⟩ := Option.map_eq_some_iff.1 h
    obtain ⟨after, rfl, body⟩ := ih hmore
    exact ⟨after, rfl, .escaped line body⟩
  | case5 => cases h
  | case6 c rest quote _ other ih =>
    obtain ⟨more, hmore, rfl⟩ := Option.map_eq_some_iff.1 h
    obtain ⟨after, rfl, body⟩ := ih hmore
    rw [not_or] at other
    exact ⟨after, rfl, .plain quote other.1 other.2 body⟩

/-! ## First characters -/

theorem isBlank_iff : isBlank c = true ↔ c ∈ [' ', '\t', '\x0c', '\r', '\n'] := by
  simp [isBlank, or_assoc]

theorem isBlank_eq_false {p : Char → Bool} (hc : p c = true)
    (blanks : [' ', '\t', '\x0c', '\r', '\n'].any p = false) : isBlank c = false := by
  rw [Bool.eq_false_iff, ne_eq, isBlank_iff]
  intro blank
  exact List.any_eq_false.1 blanks c blank hc

theorem bounds_of_isDigit (h : c.isDigit = true) : 48 ≤ c.toNat ∧ c.toNat ≤ 57 := by
  simpa [Char.isDigit, UInt32.le_iff_toNat_le] using h

theorem isIdentifierContinue_of_isDigit (h : c.isDigit = true) :
    isIdentifierContinue c = true := by
  have bounds := bounds_of_isDigit h
  have ascii : c.toNat < 128 := by omega
  simp [isIdentifierContinue, ascii, Char.isAlphanum, h]

theorem isAlpha_of_isDigit (h : c.isDigit = true) : c.isAlpha = false := by
  obtain ⟨low, high⟩ := bounds_of_isDigit h
  rw [← Char.ofNat_toNat c]
  interval_cases c.toNat <;> rfl

theorem isDigit_of_opensName (h : opensName c = true) : c.isDigit = false := by
  rw [Bool.eq_false_iff]
  intro digit
  have bounds := bounds_of_isDigit digit
  have mark : c ≠ '_' := by
    rintro rfl
    simp at bounds
  have ascii : c.toNat < 128 := by omega
  simp [opensName, isIdentifierStart, ascii, isAlpha_of_isDigit digit, mark] at h

/-- A sign opens nothing else. -/
theorem opens_nothing_of_punctuation {sign : Kind} (h : Kind.punctuation? c = some sign) :
    isBlank c = false ∧ c ≠ '"' ∧ c.isDigit = false ∧ opensName c = false := by
  unfold Kind.punctuation? at h
  split at h <;> cases h <;> decide +kernel

/-! ## Tokens -/

/-- What stands here does not go on with a run of such characters. -/
def Ends (p : Char → Bool) (rest : List Char) : Prop :=
  ∀ d ∈ rest.head?, p d = false

/-- Nothing stands here that would continue a name or a number. -/
abbrev EndsName : List Char → Prop :=
  Ends isIdentifierContinue

/-- A token of a kind, with a text, is written `covered` in front of `rest`. -/
inductive Stands : Kind → String → List Char → List Char → Prop where
  | string {body rest : List Char} (h : StringBody body) :
      Stands .string (String.ofList body) ('"' :: (body ++ ['"'])) rest
  | integer {digits rest : List Char} (written : digits ≠ [])
      (digit : ∀ d ∈ digits, d.isDigit = true) (ends : EndsName rest) :
      Stands .integer (String.ofList digits) digits rest
  | word {c : Char} {cs rest : List Char} (opens : opensName c = true)
      (continues : ∀ d ∈ cs, isIdentifierContinue d = true) (ends : EndsName rest) :
      Stands (Kind.ofWord (String.ofList (c :: cs))) (String.ofList (c :: cs)) (c :: cs) rest
  | sign {c : Char} {sign : Kind} {rest : List Char} (h : Kind.punctuation? c = some sign) :
      Stands sign (String.ofList [c]) [c] rest

theorem ends_dropWhile (p : Char → Bool) (rest : List Char) : Ends p (rest.dropWhile p) := by
  intro d hd
  have := List.head?_dropWhile_not p rest
  rw [Option.mem_def.1 hd] at this
  simpa using this

theorem Ends.takeWhile_append {p : Char → Bool} (ends : Ends p rest) (h : ∀ d ∈ cs, p d = true) :
    (cs ++ rest).takeWhile p = cs := by
  rw [List.takeWhile_append_of_pos h]
  cases rest with
  | nil => simp
  | cons d rest => simp [ends d rfl]

theorem endsName_of_apart (apart : Apart rest) : EndsName rest := by
  intro d hd
  obtain rfl | rfl := apart d hd
  · rfl
  · rfl

/-- What is read at the front of a text: a blank, or a token that stands there. -/
theorem front_cases {lexeme : Lexeme} (h : Lexeme.front c rest = .ok lexeme) :
    isBlank c = true ∧ lexeme = ⟨none, 0⟩ ∨
      ∃ kind text cs after, lexeme = ⟨some (kind, text), cs.length⟩ ∧ rest = cs ++ after ∧
        Stands kind text (c :: cs) after := by
  have parts : rest = rest.takeWhile isIdentifierContinue ++ rest.dropWhile isIdentifierContinue :=
    List.takeWhile_append_dropWhile.symm
  unfold Lexeme.front at h
  dsimp only at h
  split_ifs at h with blank quote digit digits name
  · cases h
    exact Or.inl ⟨blank, rfl⟩
  · right
    split at h
    · next body hbody =>
      cases h
      obtain ⟨after, rfl, valid⟩ := exists_of_stringBody hbody
      subst quote
      exact ⟨_, _, body ++ ['"'], after, by simp, by simp, .string valid⟩
    · cases h
  · right
    cases h
    refine ⟨_, _, _, _, rfl, parts, .integer (by simp) ?_ (ends_dropWhile _ rest)⟩
    simpa [digit] using digits
  · right
    cases h
    refine ⟨_, _, _, _, rfl, parts, .word name ?_ (ends_dropWhile _ rest)⟩
    exact List.all_eq_true.1 List.all_takeWhile
  · right
    split at h
    · next sign hsign =>
      cases h
      exact ⟨_, _, [], rest, rfl, rfl, .sign hsign⟩
    · cases h

/-- A token that stands at the front of a text is read there. -/
theorem Stands.front (h : Stands kind text (c :: cs) rest) :
    Lexeme.front c (cs ++ rest) = .ok ⟨some (kind, text), cs.length⟩ := by
  unfold Lexeme.front
  cases h with
  | string body =>
    simp [isBlank, body.stringBody_append]
  | integer _ digit ends =>
    rw [List.forall_mem_cons] at digit
    have blank : isBlank c = false := isBlank_eq_false digit.1 rfl
    have quote : c ≠ '"' := by
      rintro rfl
      exact absurd digit.1 (by decide)
    have more : (cs ++ rest).takeWhile isIdentifierContinue = cs :=
      ends.takeWhile_append fun d hd => isIdentifierContinue_of_isDigit (digit.2 d hd)
    have all : cs.all Char.isDigit = true := List.all_eq_true.2 digit.2
    simp [blank, quote, digit.1, more, all, Lexeme.plain]
  | word opens continues ends =>
    have blank : isBlank c = false := isBlank_eq_false opens rfl
    have quote : c ≠ '"' := ne_of_opensName opens rfl
    have name : (isIdentifierStart c || c == '_') = true := opens
    simp [blank, quote, isDigit_of_opensName opens, name, ends.takeWhile_append continues,
      Lexeme.plain]
  | sign sign =>
    obtain ⟨blank, quote, digit, name⟩ := opens_nothing_of_punctuation sign
    unfold opensName at name
    simp [blank, quote, digit, name, sign, Lexeme.plain]

/-- Another text may follow, as long as it continues nothing. -/
theorem Stands.apart (h : Stands kind text covered rest) {rest' : List Char}
    (apart : Apart rest') : Stands kind text covered rest' := by
  cases h with
  | string body => exact .string body
  | integer written digit _ => exact .integer written digit (endsName_of_apart apart)
  | word opens continues _ => exact .word opens continues (endsName_of_apart apart)
  | sign sign => exact .sign sign

end TopDown
