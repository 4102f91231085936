import Mathlib.Data.List.Induction
import TopDown.Proofs.Lexemes

/-
  The tokens of a text lie side by side in it, with nothing but blanks between them.

  `Tiled before rest tokens` builds such a cover from left to right; `before` is the part already
  covered, and the place of a token is what counting through it gives. A text has the tokens
  exactly when they cover it in this way (`tokenize_eq_ok_iff`), so what holds of the layout is
  proved by induction on the cover, without the scanner: order, places, blanks, and that the words
  of the tokens with single blanks between them are read as the same tokens (`tokenize_tiles`).
-/

namespace TopDown

open Text (Place isIdentifierContinue)
open Description (opensName Apart apart_nil apart_blank)

/-! ## Places -/

namespace Text

/-- The place of an offset: how many line feeds stand before it, and how far it is from the last. -/
def placeAt (text : List Char) (pos : Nat) : Place :=
  ⟨pos, 1 + (text.take pos).count '\n', 1 + (lineBefore text pos).length⟩

theorem Place.advance_start (cs : List Char) :
    Place.start.advance cs
      = ⟨cs.length, 1 + cs.count '\n', 1 + (cs.reverse.takeWhile (· ≠ '\n')).length⟩ := by
  induction cs using List.reverseRecOn with
  | nil => rfl
  | append_singleton cs c ih =>
    rw [Place.advance_append, ih]
    by_cases line : c = '\n'
    · subst line
      simp [Place.step, List.count_append]
      omega
    · simp [Place.step, line, List.count_append]
      omega

theorem advance_start_eq_placeAt (before rest : List Char) :
    Place.start.advance before = placeAt (before ++ rest) before.length := by
  simp [Place.advance_start, placeAt, lineBefore]

end Text

/-! ## Tokens -/

namespace Token

/-- What is written for the token: a string has its quotes there. -/
def source (t : Token) : List Char :=
  let written := (t.text.getD "").toList
  if t.kind = .string then '"' :: (written ++ ['"']) else written

/-- The offset at which the token begins. -/
def pos (t : Token) : Nat := t.place.offset.toNat

/-- The offset after the token. -/
def stop (t : Token) : Nat := t.pos + t.source.length

/-- What the later stages look at: the token without its place. -/
def face (t : Token) : Kind × Option String := (t.kind, t.text)

end Token

variable {c : Char} {before rest covered : List Char} {kind : Kind} {text : String} {t : Token}
  {tokens : List Token} {place : Place}

theorem ofWord_cases (word : String) :
    Kind.ofWord word = .identifier ∨ Kind.ofWord word = .functionWord ∨
      Kind.ofWord word = .returnWord := by
  unfold Kind.ofWord
  split_ifs <;> simp

theorem ofWord_ne_string (word : String) : Kind.ofWord word ≠ .string := by
  obtain h | h | h := ofWord_cases word <;> simp [h]

/-- The kind of a sign is neither that of a word nor that of a number or a string. -/
theorem sign_notMem (h : Kind.punctuation? c = some kind) :
    kind ∉ [.identifier, .functionWord, .returnWord, .integer, .string] := by
  unfold Kind.punctuation? at h
  split at h <;> cases h <;> decide

theorem source_of_ne_string (h : kind ≠ .string) (covered : List Char) (place : Place) :
    Token.source ⟨kind, some (String.ofList covered), place⟩ = covered := by
  simp [Token.source, h]

theorem Stands.source_eq (h : Stands kind text covered rest) (place : Place) :
    Token.source ⟨kind, some text, place⟩ = covered := by
  cases h with
  | string body => simp [Token.source]
  | integer written digit ends => exact source_of_ne_string (by decide) covered place
  | word opens continues ends => exact source_of_ne_string (ofWord_ne_string _) _ place
  | sign sign =>
    apply source_of_ne_string
    rintro rfl
    simpa using sign_notMem sign

theorem Stands.exists_cons (h : Stands kind text covered rest) : ∃ c cs, covered = c :: cs := by
  cases h with
  | string body => exact ⟨_, _, rfl⟩
  | integer written digit ends => exact List.exists_cons_of_ne_nil written
  | word opens continues ends => exact ⟨_, _, rfl⟩
  | sign sign => exact ⟨_, _, rfl⟩

/-! ## Tokens side by side -/

/-- The tokens cover `rest`, which follows `before`, and leave only blanks out. -/
inductive Tiled : List Char → List Char → List Token → Prop where
  | done {before : List Char} : Tiled before [] []
  | blank {before rest : List Char} {c : Char} {tokens : List Token} (blank : isBlank c = true)
      (more : Tiled (before ++ [c]) rest tokens) : Tiled before (c :: rest) tokens
  | token {before covered rest : List Char} {kind : Kind} {text : String} {tokens : List Token}
      (stands : Stands kind text covered rest) (more : Tiled (before ++ covered) rest tokens) :
      Tiled before (covered ++ rest) (⟨kind, some text, Place.start.advance before⟩ :: tokens)

/-! ### Scanning -/

theorem scan_blank (blank : isBlank c = true) (source rest : List Char) (place : Place) :
    scan source (c :: rest) place = scan source rest (place.step c) := by
  rw [scan]
  simp [Lexeme.front, blank]

theorem Stands.scan_append (h : Stands kind text covered rest) (source : List Char)
    (place : Place) :
    scan source (covered ++ rest) place
      = { scan source rest (place.advance covered) with
          tokens := ⟨kind, some text, place⟩
            :: (scan source rest (place.advance covered)).tokens } := by
  obtain ⟨c, cs, rfl⟩ := h.exists_cons
  rw [List.cons_append, scan, h.front]
  simp

theorem Tiled.scan_eq (h : Tiled before rest tokens) (source : List Char) :
    (scan source rest (Place.start.advance before)).fault = none ∧
      (scan source rest (Place.start.advance before)).tokens = tokens := by
  induction h with
  | done => simp [scan]
  | blank blank more ih =>
    rw [scan_blank blank]
    simpa using ih
  | token stands more ih =>
    rw [stands.scan_append]
    simpa using ih

theorem tiled_of_scan {source : List Char} (hplace : place = Place.start.advance before)
    (h : (scan source rest place).fault = none) :
    Tiled before rest (scan source rest place).tokens := by
  fun_induction scan source rest place generalizing before with
  | case1 => exact .done
  | case2 => cases h
  | case3 c rest place lexeme hfront after htoken =>
    rename_i ih
    obtain ⟨blank, rfl⟩ | ⟨_, _, _, _, rfl, -, -⟩ := front_cases hfront
    · refine .blank blank (ih ?_ h)
      simp [hplace]
    · cases htoken
  | case4 c rest place lexeme hfront after kind text htoken =>
    rename_i ih
    obtain ⟨-, rfl⟩ | ⟨_, _, cs, behind, rfl, rfl, stands⟩ := front_cases hfront
    · cases htoken
    · cases htoken
      have more : Tiled (before ++ c :: cs) ((cs ++ behind).drop cs.length) after.tokens :=
        ih (by simp [hplace]) h
      rw [List.drop_left] at more
      rw [hplace]
      exact .token stands more

theorem tokenize_eq_ok_iff {text : String} :
    tokenize text = .ok tokens ↔ Tiled [] text.toList tokens := by
  unfold tokenize
  dsimp only
  constructor
  · intro h
    split at h
    · cases h
    · next fault =>
      cases h
      exact tiled_of_scan rfl fault
  · intro h
    obtain ⟨fault, all⟩ := h.scan_eq text.toList
    rw [Place.advance_nil] at fault all
    rw [fault, all]

/-! ## The layout of the tokens -/

theorem pos_mk (kind : Kind) (text : Option String) (before : List Char) :
    Token.pos ⟨kind, text, Place.start.advance before⟩ = before.length := by
  simp [Token.pos, Place.start]

/-- Every token is written where its place says. -/
theorem Tiled.exists_of_mem (h : Tiled before rest tokens) (ht : t ∈ tokens) :
    ∃ skipped after text, rest = skipped ++ (t.source ++ after) ∧
      t.place = Place.start.advance (before ++ skipped) ∧ t.text = some text ∧
        Stands t.kind text t.source after := by
  induction h with
  | done => cases ht
  | blank blank more ih =>
    obtain ⟨skipped, after, text, rfl, place, word, stands⟩ := ih ht
    refine ⟨_ :: skipped, after, text, rfl, ?_, word, stands⟩
    rw [place, ← List.append_cons]
  | @token before covered rest kind text tokens stands more ih =>
    obtain rfl | ht := List.mem_cons.1 ht
    · rw [stands.source_eq]
      exact ⟨[], rest, text, rfl, by rw [List.append_nil], rfl, stands⟩
    · obtain ⟨skipped, after, text, rfl, place, word, stands⟩ := ih ht
      refine ⟨covered ++ skipped, after, text, by rw [List.append_assoc], ?_, word, stands⟩
      rw [place, List.append_assoc]

theorem Tiled.length_le_pos (h : Tiled before rest tokens) (ht : t ∈ tokens) :
    before.length ≤ t.pos := by
  obtain ⟨skipped, after, text, -, place, -, -⟩ := h.exists_of_mem ht
  simp [Token.pos, place, Place.start]
  omega

/-- The tokens stand one after the other. -/
theorem Tiled.pairwise (h : Tiled before rest tokens) :
    tokens.Pairwise fun t u => t.pos < u.pos ∧ t.stop ≤ u.pos := by
  induction h with
  | done => exact .nil
  | blank blank more ih => exact ih
  | token stands more ih =>
    refine List.pairwise_cons.2 ⟨fun u hu => ?_, ih⟩
    have le := more.length_le_pos hu
    obtain ⟨c, cs, rfl⟩ := stands.exists_cons
    rw [Token.stop, stands.source_eq, pos_mk]
    simp at le ⊢
    omega

/-- What no token covers is blank. -/
theorem Tiled.isBlank_of_outside (h : Tiled before rest tokens) {i : Nat} (hi : rest[i]? = some c)
    (outside : ∀ t ∈ tokens, before.length + i < t.pos ∨ t.stop ≤ before.length + i) :
    isBlank c = true := by
  induction h generalizing i with
  | done => cases hi
  | @blank before rest d tokens blank more ih =>
    cases i with
    | zero =>
      cases hi
      exact blank
    | succ i =>
      apply ih hi
      simpa [Nat.add_assoc, Nat.add_comm 1] using outside
  | @token before covered rest kind text tokens stands more ih =>
    rw [List.forall_mem_cons, Token.stop, stands.source_eq, pos_mk] at outside
    obtain ⟨here, later⟩ := outside
    have past : covered.length ≤ i := by omega
    rw [List.getElem?_append_right past] at hi
    apply ih hi
    intro t ht
    have := later t ht
    rw [List.length_append]
    omega

/-! ### Names and numbers -/

theorem ofWord_eq_functionWord_iff {word : String} :
    Kind.ofWord word = .functionWord ↔ word = "fn" := by
  unfold Kind.ofWord
  split_ifs <;> simp_all

theorem ofWord_eq_returnWord_iff {word : String} :
    Kind.ofWord word = .returnWord ↔ word = "return" := by
  unfold Kind.ofWord
  split_ifs <;> simp_all

theorem Stands.endsName_of_integer (h : Stands .integer text covered rest) : EndsName rest := by
  generalize hkind : Kind.integer = kind at h
  cases h with
  | string body => cases hkind
  | integer written digit ends => exact ends
  | word opens continues ends => exact ends
  | sign sign =>
    subst hkind
    simpa using sign_notMem sign

/-- The first character tells names from everything else. -/
theorem Stands.opensName_iff (h : Stands kind text (c :: cs) rest) :
    opensName c = true ↔ kind = .identifier ∨ kind = .functionWord ∨ kind = .returnWord := by
  cases h with
  | string body => exact iff_of_false (by decide) (by decide)
  | integer written digit ends =>
    refine iff_of_false (fun opens => ?_) (by decide)
    have := isDigit_of_opensName opens
    simp [digit c List.mem_cons_self] at this
  | word opens continues ends => exact iff_of_true opens (ofWord_cases _)
  | sign sign =>
    obtain ⟨-, -, -, opens⟩ := opens_nothing_of_punctuation sign
    refine iff_of_false (by simp [opens]) fun h => sign_notMem sign ?_
    obtain rfl | rfl | rfl := h <;> simp

/-- A name is read whole, and its kind depends on the word alone. -/
theorem Stands.of_opensName (h : Stands kind text (c :: cs) rest) (opens : opensName c = true) :
    kind = Kind.ofWord text ∧ EndsName rest := by
  cases h with
  | string body => cases opens
  | integer written digit ends =>
    have := isDigit_of_opensName opens
    simp [digit c List.mem_cons_self] at this
  | word _ continues ends => exact ⟨rfl, ends⟩
  | sign sign =>
    obtain ⟨-, -, -, other⟩ := opens_nothing_of_punctuation sign
    simp [opens] at other

/-! ## Programs and their tokens -/

/-- The token begins as a name does. -/
def Token.IsName (t : Token) : Prop :=
  ∃ c ∈ t.source.head?, opensName c = true

/-- The token stands in the text where its place says and ends where its word ends. -/
structure Token.Placed (text : List Char) (t : Token) : Prop where
  written : t.text ≠ none
  occurs : t.source <+: text.drop t.pos
  located : t.place = Text.placeAt text t.pos
  ends : t.kind = .integer ∨ t.IsName → ∀ d ∈ text[t.stop]?, isIdentifierContinue d = false
  names : t.IsName ↔ t.kind = .identifier ∨ t.kind = .functionWord ∨ t.kind = .returnWord
  reserved : t.IsName → (t.kind = .functionWord ↔ t.text = some "fn") ∧
    (t.kind = .returnWord ↔ t.text = some "return")

/-- The tokens lie side by side in the text, and everything else in it is blank. -/
structure Tiles (text : List Char) (tokens : List Token) : Prop where
  placed : ∀ t ∈ tokens, t.Placed text
  ordered : tokens.Pairwise fun t u => t.pos < u.pos ∧ t.stop ≤ u.pos
  blank : ∀ (i : Nat) (c : Char), text[i]? = some c →
    (∀ t ∈ tokens, i < t.pos ∨ t.stop ≤ i) → c ∈ [' ', '\t', '\x0c', '\r', '\n']

theorem Tiled.placed (h : Tiled [] rest tokens) (ht : t ∈ tokens) : t.Placed rest := by
  obtain ⟨skipped, after, text, rfl, place, word, stands⟩ := h.exists_of_mem ht
  obtain ⟨c, cs, hsource⟩ := stands.exists_cons
  have begins := hsource ▸ stands
  have pos : t.pos = skipped.length := by
    simp [Token.pos, place, Place.start]
  have behind : (skipped ++ (t.source ++ after))[t.stop]? = after.head? := by
    rw [Token.stop, pos, ← List.append_assoc, ← List.length_append,
      List.getElem?_append_right (Nat.le_refl _), Nat.sub_self, List.head?_eq_getElem?]
  have name : t.IsName ↔ opensName c = true := by
    simp [Token.IsName, hsource]
  refine ⟨by simp [word], ?_, ?_, ?_, name.trans begins.opensName_iff, fun hname => ?_⟩
  · rw [pos, List.drop_left]
    exact List.prefix_append _ _
  · rw [place, pos, List.nil_append]
    exact Text.advance_start_eq_placeAt _ _
  · intro h
    rw [behind]
    obtain integer | hname := h
    · exact (integer ▸ stands).endsName_of_integer
    · exact (begins.of_opensName (name.1 hname)).2
  · rw [(begins.of_opensName (name.1 hname)).1, word, Option.some_inj, Option.some_inj]
    exact ⟨ofWord_eq_functionWord_iff, ofWord_eq_returnWord_iff⟩

theorem Tiled.tiles (h : Tiled [] rest tokens) : Tiles rest tokens where
  placed _ ht := h.placed ht
  ordered := h.pairwise
  blank i c hi outside := isBlank_iff.1 (h.isBlank_of_outside hi (by simpa using outside))

/-- The tokens of a text are read again when blanks are put between them. -/
theorem exists_tiled_intercalate (before : List Char)
    (h : ∀ t ∈ tokens, ∃ text after, t.text = some text ∧ Stands t.kind text t.source after) :
    ∃ again, Tiled before ([' '].intercalate (tokens.map Token.source)) again ∧
      again.map Token.face = tokens.map Token.face := by
  induction tokens generalizing before with
  | nil => exact ⟨[], .done, rfl⟩
  | cons t tokens ih =>
    rw [List.forall_mem_cons] at h
    obtain ⟨⟨text, after, word, stands⟩, htokens⟩ := h
    cases tokens with
    | nil =>
      have more : Tiled (before ++ t.source) [] [] := .done
      refine ⟨_, by simpa using Tiled.token (stands.apart apart_nil) more, ?_⟩
      simp [Token.face, word]
    | cons u tokens =>
      obtain ⟨again, more, faces⟩ := ih (before ++ t.source ++ [' ']) htokens
      have next := Tiled.token (stands.apart (apart_blank _)) (.blank rfl more)
      refine ⟨_, by simpa [List.intercalate_cons_cons] using next, ?_⟩
      simp [Token.face, word, ← faces]

/-- The tokens of a text lie side by side in it, and what is written for them, with a blank between
any two, is read as the same tokens. -/
theorem tokenize_tiles {text : String} {tokens : List Token} (h : tokenize text = .ok tokens) :
    Tiles text.toList tokens ∧
      ∃ again, tokenize (String.ofList ([' '].intercalate (tokens.map Token.source))) = .ok again ∧
        again.map Token.face = tokens.map Token.face := by
  have tiled := tokenize_eq_ok_iff.1 h
  refine ⟨tiled.tiles, ?_⟩
  have standing : ∀ t ∈ tokens, ∃ text after, t.text = some text ∧
      Stands t.kind text t.source after := by
    intro t ht
    obtain ⟨_, after, text, _, _, word, stands⟩ := tiled.exists_of_mem ht
    exact ⟨text, after, word, stands⟩
  obtain ⟨again, spaced, faces⟩ := exists_tiled_intercalate [] standing
  refine ⟨again, tokenize_eq_ok_iff.2 ?_, faces⟩
  rwa [String.toList_ofList]

-- An escaped quote, digits right after a string, and a word that only begins like a reserved one.
theorem tokenize_tiles_escaped_quote :
    ∃ tokens, tokenize "fn fnord\r\n \"a\\\"b\"42/ö" = .ok tokens ∧
      tokens.map Token.face
        = [(.functionWord, some "fn"), (.identifier, some "fnord"), (.string, some "a\\\"b"),
          (.integer, some "42"), (.slash, some "/"), (.identifier, some "ö")] ∧
      tokens.map Token.place
        = [⟨0, 1, 1⟩, ⟨3, 1, 4⟩, ⟨11, 2, 2⟩, ⟨17, 2, 8⟩, ⟨19, 2, 10⟩, ⟨20, 2, 11⟩] ∧
      Tiles "fn fnord\r\n \"a\\\"b\"42/ö".toList tokens ∧
      ∃ again, tokenize (String.ofList ([' '].intercalate (tokens.map Token.source))) = .ok again ∧
        again.map Token.face = tokens.map Token.face := by
  have read : tokenize "fn fnord\r\n \"a\\\"b\"42/ö" = .ok
      [⟨.functionWord, some "fn", ⟨0, 1, 1⟩⟩, ⟨.identifier, some "fnord", ⟨3, 1, 4⟩⟩,
        ⟨.string, some "a\\\"b", ⟨11, 2, 2⟩⟩, ⟨.integer, some "42", ⟨17, 2, 8⟩⟩,
        ⟨.slash, some "/", ⟨19, 2, 10⟩⟩, ⟨.identifier, some "ö", ⟨20, 2, 11⟩⟩] := by
    decide +kernel
  exact ⟨_, read, rfl, rfl, tokenize_tiles read⟩

end TopDown
