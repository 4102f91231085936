import Mathlib.Data.List.Forall2
import TopDown.Grammar.Description.Scanner

/-
  What the scanner makes of a text that was put together from words and signs.

  The later stages use the place of a piece for their messages only, so a text is described by the
  faces of its pieces: `Scans chars faces`. A word or a sign is read as such when a blank, a line
  feed or the end of the text comes after it (`Apart`), whatever else follows: two slashes with a
  blank between them are no comment, and a minus before a blank begins no arrow. `ReadsAs` is this
  reading of a part of a text; it goes through joining parts with separators.

  The other way round, every name that a scan finds is a word, and every sign is a kind that can be
  written (`scan_legible`).
-/

namespace TopDown.Description

open Text (isIdentifierStart isIdentifierContinue)

/-! ## Faces -/

/-- A piece without its place. -/
abbrev Face := PieceKind × String

def Piece.face (p : Piece) : Face := (p.kind, p.text)

/-- The text is cut into pieces with the given faces, wherever it stands. -/
def Scans (chars : List Char) (faces : List Face) : Prop :=
  ∀ source place, ∃ pieces, scan source chars place = .ok pieces ∧ pieces.map Piece.face = faces

variable {c : Char} {cs rest : List Char} {width : Nat} {kind : PieceKind} {more : List Face}

theorem scans_nil : Scans [] [(.finish, "")] := by
  intro source place
  exact ⟨_, by rw [scan], rfl⟩

theorem Scans.skip (c : Char) (cs : List Char)
    (hfront : front c (cs ++ rest) = .ok (none, cs.length)) (h : Scans rest more) :
    Scans (c :: (cs ++ rest)) more := by
  intro source place
  obtain ⟨pieces, hscan, rfl⟩ := h source (place.advance (c :: cs))
  refine ⟨pieces, ?_, rfl⟩
  rw [scan, hfront]
  simp only [List.take_left, List.drop_left, hscan]

theorem Scans.take (c : Char) (cs : List Char)
    (hfront : front c (cs ++ rest) = .ok (some kind, cs.length)) (h : Scans rest more) :
    Scans (c :: (cs ++ rest)) ((kind, String.ofList (c :: cs)) :: more) := by
  intro source place
  obtain ⟨pieces, hscan, rfl⟩ := h source (place.advance (c :: cs))
  refine ⟨⟨kind, String.ofList (c :: cs), place⟩ :: pieces, ?_, rfl⟩
  rw [scan, hfront]
  simp only [List.take_left, List.drop_left, hscan]

/-! ## Words and signs -/

/-- May the character begin a name? -/
def opensName (c : Char) : Bool :=
  isIdentifierStart c || c == '_'

/-- Is the text one name? A name that began with `ε` would be cut after that letter. -/
def isWord (s : String) : Bool :=
  match s.toList with
  | [] => false
  | c :: cs => opensName c && c != 'ε' && cs.all isIdentifierContinue

/-- What follows begins with a blank or a line feed, or nothing follows. -/
def Apart (rest : List Char) : Prop :=
  ∀ c ∈ rest.head?, c = ' ' ∨ c = '\n'

theorem apart_nil : Apart [] := by
  simp [Apart]

theorem apart_blank (rest : List Char) : Apart (' ' :: rest) := by
  simp [Apart]

theorem apart_newline (rest : List Char) : Apart ('\n' :: rest) := by
  simp [Apart]

theorem Apart.takeWhile_eq_nil (h : Apart rest) : rest.takeWhile isIdentifierContinue = [] := by
  cases rest with
  | nil => rfl
  | cons c rest =>
    obtain rfl | rfl := h c rfl
    · rfl
    · rfl

theorem ne_of_opensName {c d : Char} (hc : opensName c = true) (hd : opensName d = false) :
    c ≠ d := by
  rintro rfl
  simp [hc] at hd

-- The arrow is the one character outside ASCII that `front` asks for before it looks for a name.
theorem opensName_arrow : opensName '→' = false := by
  decide +kernel

theorem front_name (hc : opensName c = true) (hε : c ≠ 'ε') (rest : List Char) :
    front c rest = .ok (some .identifier, (rest.takeWhile isIdentifierContinue).length) := by
  have other {d : Char} (hd : opensName d = false) : c ≠ d := ne_of_opensName hc hd
  have hblank : isBlank c = false := by
    simp [isBlank, other (d := ' ') rfl, other (d := '\t') rfl, other (d := '\x0c') rfl,
      other (d := '\r') rfl, other (d := '\n') rfl]
  have hopens : (isIdentifierStart c || c == '_') = true := hc
  simp only [front, hblank, hopens, other (d := '\n') rfl, other (d := '#') rfl,
    other (d := '/') rfl, other (d := '-') rfl, other opensName_arrow, other (d := '|') rfl,
    other (d := '%') rfl, hε, false_and, if_false, if_true, Bool.false_eq_true]

theorem Apart.head?_ne (h : Apart rest) (hc : c ≠ ' ') (hn : c ≠ '\n') : rest.head? ≠ some c :=
  fun hhead => (h c hhead).elim hc hn

-- Only a slash and a minus ask for what follows them: a second slash, the head of an arrow.
theorem front_sign {sign : Kind} (hc : Kind.punctuation? c = some sign)
    (comment : c = '/' → rest.head? ≠ some '/') (arrow : c = '-' → rest.head? ≠ some '>') :
    front c rest = .ok (some (.punctuation sign), 0) := by
  have hslash : ¬ (c = '/' ∧ rest.head? = some '/') := fun h => comment h.1 h.2
  have hangle : ¬ (c = '-' ∧ rest.head? = some '>') := fun h => arrow h.1 h.2
  simp only [front, hslash, hangle, if_false]
  unfold Kind.punctuation? at hc
  split at hc <;> cases hc <;> rfl

/-! ## Reading a part of a text -/

/-- The text gives these faces when something apart follows it. -/
def ReadsAs (text : String) (faces : List Face) : Prop :=
  ∀ rest more, Apart rest → Scans rest more → Scans (text.toList ++ rest) (faces ++ more)

theorem exists_of_isWord {s : String} (h : isWord s = true) :
    ∃ c cs, s.toList = c :: cs ∧ opensName c = true ∧ c ≠ 'ε' ∧
      ∀ d ∈ cs, isIdentifierContinue d = true := by
  unfold isWord at h
  split at h
  · cases h
  · next c cs hs => exact ⟨c, cs, hs, by simpa [and_assoc] using h⟩

theorem readsAs_word {s : String} (h : isWord s = true) : ReadsAs s [(.identifier, s)] := by
  intro rest more apart hrest
  obtain ⟨c, cs, hs, hc, hε, hcs⟩ := exists_of_isWord h
  have hfront : front c (cs ++ rest) = .ok (some .identifier, cs.length) := by
    rw [front_name hc hε, List.takeWhile_append_of_pos hcs, apart.takeWhile_eq_nil,
      List.append_nil]
  have := Scans.take c cs hfront hrest
  rwa [← hs, String.ofList_toList, ← List.cons_append, ← hs] at this

theorem readsAs_sign {sign : Kind} (hc : Kind.punctuation? c = some sign) :
    ReadsAs (String.singleton c) [(.punctuation sign, String.singleton c)] := by
  intro rest more apart hrest
  have comment : rest.head? ≠ some '/' := apart.head?_ne (by decide) (by decide)
  have arrow : rest.head? ≠ some '>' := apart.head?_ne (by decide) (by decide)
  simpa using Scans.take c [] (front_sign hc (fun _ => comment) fun _ => arrow) hrest

theorem readsAs_epsilon : ReadsAs "ε" [(.epsilon, "ε")] := by
  intro rest more _ hrest
  exact Scans.take 'ε' [] rfl hrest

/-- A separator keeps what stands before it apart, and gives its faces whatever follows it. -/
structure Separates (text : String) (faces : List Face) : Prop where
  apart : ∀ rest, Apart (text.toList ++ rest)
  scans : ∀ {rest more}, Scans rest more → Scans (text.toList ++ rest) (faces ++ more)

theorem Scans.blank (h : Scans rest more) : Scans (' ' :: rest) more :=
  Scans.skip ' ' [] rfl h

theorem separates_blank : Separates " " [] where
  apart := apart_blank
  scans h := h.blank

theorem separates_newline : Separates "\n" [(.newline, "\n")] where
  apart := apart_newline
  scans h := Scans.take '\n' [] rfl h

theorem separates_bar : Separates " | " [(.bar, "|")] where
  apart _ := apart_blank _
  scans h := (Scans.take '|' [] rfl h.blank).blank

theorem separates_arrow : Separates " -> " [(.arrow, "->")] where
  apart _ := apart_blank _
  scans h := (Scans.take '-' ['>'] rfl h.blank).blank

theorem Scans.directive (h : Scans rest more) :
    Scans ("%start ".toList ++ rest) ((.directive, "%start") :: more) :=
  Scans.take '%' "start".toList rfl h.blank

/-- Parts joined by a separator. -/
theorem ReadsAs.intercalate {sep : String} {between : List Face} (gap : Separates sep between)
    {texts : List String} {faces : List (List Face)} (h : List.Forall₂ ReadsAs texts faces) :
    ReadsAs (sep.intercalate texts) (between.intercalate faces) := by
  intro rest more apart hrest
  rw [String.toList_intercalate]
  induction h with
  | nil => simpa using hrest
  | cons hx htail ih =>
    cases htail with
    | nil => simpa using hx rest more apart hrest
    | cons =>
      simp only [List.map_cons, List.intercalate_cons_cons, List.append_assoc] at ih ⊢
      exact hx _ _ (gap.apart _) (gap.scans ih)

/-! ## What a scan can find -/

/-- Names are words, and signs stand for kinds that a grammar can write. -/
def Face.Legible : Face → Prop
  | (.identifier, text) => isWord text = true
  | (.punctuation sign, _) => sign ≠ .endOfInput
  | _ => True

theorem punctuation?_ne_endOfInput {sign : Kind} (h : Kind.punctuation? c = some sign) :
    sign ≠ .endOfInput := by
  unfold Kind.punctuation? at h
  split at h <;> cases h <;> decide

theorem isWord_ofList (hc : opensName c = true) (hε : c ≠ 'ε') (rest : List Char) :
    isWord (String.ofList (c :: rest.takeWhile isIdentifierContinue)) = true := by
  simp only [isWord, String.toList_ofList, hc, Bool.true_and, Bool.and_eq_true, bne_iff_ne, ne_eq,
    hε, not_false_eq_true, true_and]
  exact List.all_takeWhile

theorem front_legible (h : front c rest = .ok (some kind, width)) :
    Face.Legible (kind, String.ofList (c :: rest.take width)) := by
  unfold front at h
  -- Nothing is asked of the pieces that the first eight branches give.
  iterate 8
    obtain ⟨-, h⟩ | ⟨-, h⟩ := ite_eq_iff.1 h
    · cases h <;> trivial
  obtain ⟨-, h⟩ | ⟨hε, h⟩ := ite_eq_iff.1 h
  · cases h
    trivial
  obtain ⟨hname, h⟩ | ⟨-, h⟩ := ite_eq_iff.1 h
  · cases h
    rw [← List.prefix_iff_eq_take.1 (List.takeWhile_prefix _)]
    exact isWord_ofList hname hε rest
  · split at h
    · next sign hsign =>
      cases h
      exact punctuation?_ne_endOfInput hsign
    · cases h

theorem scan_legible {source : List Char} {pieces : List Piece} {place : Text.Place}
    (h : scan source rest place = .ok pieces) : ∀ p ∈ pieces, p.face.Legible := by
  fun_induction scan source rest place generalizing pieces with
  | case1 place =>
    cases h
    simp [Piece.face, Face.Legible]
  | case2 => cases h
  | case3 => cases h
  | case4 _ _ _ _ _ _ hscan =>
    rename_i ih
    cases h
    exact ih hscan
  | case5 _ _ _ _ _ _ hscan _ hfront =>
    rename_i ih
    cases h
    intro p hp
    obtain rfl | hp := List.mem_cons.1 hp
    · exact front_legible hfront
    · exact ih hscan p hp

/-! ## Lines -/

theorem mem_of_mem_cutLines {line : Line} {p : Piece} (hp : p ∈ line.pieces)
    {current pieces : List Piece} (h : line ∈ cutLines current pieces) :
    p ∈ current ∨ p ∈ pieces := by
  induction pieces generalizing current with
  | nil => cases h
  | cons q pieces ih =>
    rw [cutLines] at h
    split at h
    · obtain rfl | h := List.mem_cons.1 h
      · exact Or.inl hp
      · obtain hcur | hps := ih h
        · cases hcur
        · exact Or.inr (List.mem_cons_of_mem q hps)
    · obtain hcur | hps := ih h
      · obtain hcur | hq := List.mem_append.1 hcur
        · exact Or.inl hcur
        · exact Or.inr (List.mem_cons.2 (Or.inl (List.mem_singleton.1 hq)))
      · exact Or.inr (List.mem_cons_of_mem q hps)

theorem cutLines_append {stop : Piece} (hstop : stop.endsLine = true) (rest : List Piece)
    {pieces : List Piece} (h : ∀ p ∈ pieces, p.endsLine = false) (current : List Piece) :
    cutLines current (pieces ++ stop :: rest) = ⟨current ++ pieces, stop⟩ :: cutLines [] rest := by
  induction pieces generalizing current with
  | nil => simp [cutLines, hstop]
  | cons p pieces ih =>
    have hp := h p List.mem_cons_self
    rw [List.cons_append, cutLines, if_neg (by simp [hp]),
      ih fun q hq => h q (List.mem_cons_of_mem p hq)]
    simp

def Line.faces (line : Line) : List Face :=
  line.pieces.map Piece.face

/-- Faces that stand inside a line. -/
def WithinLine (line : List Face) : Prop :=
  ∀ f ∈ line, f.1 ≠ .newline ∧ f.1 ≠ .finish

theorem exists_cutLines_cons {line after : List Face} (inner : WithinLine line) {stop : Face}
    (ends : stop.1 = .newline ∨ stop.1 = .finish) {pieces : List Piece}
    (h : pieces.map Piece.face = line ++ stop :: after) :
    ∃ first rest, cutLines [] pieces = first :: cutLines [] rest ∧ first.faces = line ∧
      rest.map Piece.face = after := by
  obtain ⟨before, back, rfl, rfl, hback⟩ := List.map_eq_append_iff.1 h
  obtain ⟨p, rest, rfl, rfl, hrest⟩ := List.map_eq_cons_iff.1 hback
  have hp : p.endsLine = true := by
    simpa [Piece.endsLine, Piece.face] using ends
  have hbefore : ∀ q ∈ before, q.endsLine = false := fun q hq => by
    simpa [Piece.endsLine, Piece.face] using inner q.face (List.mem_map_of_mem hq)
  exact ⟨⟨before, p⟩, rest, cutLines_append hp rest hbefore [], rfl, hrest⟩

/-- Lines that line feeds separate are found again. -/
theorem cutLines_faces {lines : List (List Face)} (some_line : lines ≠ [])
    (inner : ∀ line ∈ lines, WithinLine line) {pieces : List Piece}
    (h : pieces.map Piece.face = [(.newline, "\n")].intercalate lines ++ [(.finish, "")]) :
    (cutLines [] pieces).map Line.faces = lines := by
  induction lines generalizing pieces with
  | nil => exact absurd rfl some_line
  | cons line lines ih =>
    have hline := inner line List.mem_cons_self
    cases lines with
    | nil =>
      rw [List.intercalate_singleton] at h
      obtain ⟨first, rest, hcut, hfirst, hrest⟩ := exists_cutLines_cons hline (Or.inr rfl) h
      obtain rfl := List.map_eq_nil_iff.1 hrest
      rw [hcut, List.map_cons, hfirst]
      rfl
    | cons next lines =>
      rw [List.intercalate_cons_cons, List.append_assoc, List.append_assoc] at h
      obtain ⟨first, rest, hcut, hfirst, hrest⟩ := exists_cutLines_cons hline (Or.inl rfl) h
      rw [hcut, List.map_cons, hfirst,
        ih (by simp) (fun l hl => inner l (List.mem_cons_of_mem line hl)) hrest]

end TopDown.Description
