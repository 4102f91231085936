import TopDown.Proofs.Lexemes

/-
  What a grammar description is cut into.

  `Begins kind covered rest` says what stands in front of `rest`: a piece of the kind, or a blank or
  a comment, which are no pieces. `Cuts text faces` puts such beginnings together for a whole text.
  Neither mentions a scanner; `scan` finds exactly this (`exists_scan_iff`).

  The line feeds among the faces end the lines (`Cuts.cutLines_eq`).
-/

namespace TopDown.Description

open Text (isIdentifierContinue)

variable {c : Char} {cs covered rest text : List Char} {kind : Option PieceKind} {width : Nat}
  {faces : List Face}

/-! ## The front of a text -/

/-- What stands in front of `rest`; nothing is said to stand for blanks and comments. -/
inductive Begins : Option PieceKind → List Char → List Char → Prop where
  | newline {rest : List Char} : Begins (some .newline) ['\n'] rest
  | blank {c : Char} {rest : List Char} (h : c ∈ [' ', '\t', '\x0c', '\r']) : Begins none [c] rest
  | comment {mark note rest : List Char} (h : mark = ['#'] ∨ mark = ['/', '/'])
      (line : ∀ d ∈ note, d ≠ '\n') (ends : Ends (· ≠ '\n') rest) :
      Begins none (mark ++ note) rest
  | arrow {sign rest : List Char} (h : sign = ['-', '>'] ∨ sign = ['→']) :
      Begins (some .arrow) sign rest
  | bar {rest : List Char} : Begins (some .bar) ['|'] rest
  | directive {letters rest : List Char} (written : letters ≠ [])
      (letter : ∀ d ∈ letters, isDirectiveLetter d = true) (ends : Ends isDirectiveLetter rest) :
      Begins (some .directive) ('%' :: letters) rest
  | epsilon {rest : List Char} : Begins (some .epsilon) ['ε'] rest
  | name {c : Char} {cs rest : List Char} (opens : opensName c = true) (other : c ≠ 'ε')
      (continues : ∀ d ∈ cs, isIdentifierContinue d = true) (ends : EndsName rest) :
      Begins (some .identifier) (c :: cs) rest
  | sign {c : Char} {sign : Kind} {rest : List Char} (h : Kind.punctuation? c = some sign)
      (comment : c = '/' → rest.head? ≠ some '/') (arrow : c = '-' → rest.head? ≠ some '>') :
      Begins (some (.punctuation sign)) [c] rest

theorem Begins.front (h : Begins kind (c :: cs) rest) :
    front c (cs ++ rest) = .ok (kind, cs.length) := by
  generalize hcovered : c :: cs = covered at h
  cases h with
  | newline =>
    cases hcovered
    rfl
  | blank h =>
    cases hcovered
    simp at h
    obtain rfl | rfl | rfl | rfl := h <;> rfl
  | @comment mark note _ h line ends =>
    have run {note : List Char} (line : ∀ d ∈ note, d ≠ '\n') :
        (note ++ rest).takeWhile (· ≠ '\n') = note :=
      ends.takeWhile_append (by simpa using line)
    obtain rfl | rfl := h
    · cases hcovered
      show Except.ok (none, ((note ++ rest).takeWhile (· ≠ '\n')).length) = _
      rw [run line]
      rfl
    · cases hcovered
      show Except.ok (none, (('/' :: note ++ rest).takeWhile (· ≠ '\n')).length) = _
      rw [run (List.forall_mem_cons.2 ⟨by decide, line⟩)]
      rfl
  | arrow h =>
    obtain rfl | rfl := h <;> cases hcovered <;> rfl
  | bar =>
    cases hcovered
    rfl
  | directive written letter ends =>
    cases hcovered
    have run : (cs ++ rest).takeWhile isDirectiveLetter = cs := ends.takeWhile_append letter
    have named : (cs ++ rest).head?.any isDirectiveLetter = true := by
      obtain ⟨d, ds, rfl⟩ := List.exists_cons_of_ne_nil written
      exact letter d List.mem_cons_self
    generalize cs ++ rest = tail at run named ⊢
    simp [Description.front, isBlank, named, run]
  | epsilon =>
    cases hcovered
    rfl
  | name opens other continues ends =>
    cases hcovered
    rw [front_name opens other, ends.takeWhile_append continues]
  | sign h comment arrow =>
    cases hcovered
    exact front_sign h comment arrow

theorem begins_of_front (h : front c rest = .ok (kind, width)) :
    ∃ cs after, rest = cs ++ after ∧ width = cs.length ∧ Begins kind (c :: cs) after := by
  have run (p : Char → Bool) : rest = rest.takeWhile p ++ rest.dropWhile p :=
    List.takeWhile_append_dropWhile.symm
  have holds (p : Char → Bool) : ∀ d ∈ rest.takeWhile p, p d = true :=
    List.all_eq_true.1 List.all_takeWhile
  have line : ∀ d ∈ rest.takeWhile (· ≠ '\n'), d ≠ '\n' := by
    simpa using holds (· ≠ '\n')
  unfold front at h
  obtain ⟨rfl, h⟩ | ⟨newline, h⟩ := ite_eq_iff.1 h
  · cases h
    exact ⟨[], rest, rfl, rfl, .newline⟩
  obtain ⟨blank, h⟩ | ⟨-, h⟩ := ite_eq_iff.1 h
  · cases h
    refine ⟨[], rest, rfl, rfl, .blank ?_⟩
    simpa [newline] using isBlank_iff.1 blank
  obtain ⟨rfl, h⟩ | ⟨-, h⟩ := ite_eq_iff.1 h
  · cases h
    exact ⟨_, _, run _, rfl, .comment (Or.inl rfl) line (ends_dropWhile _ rest)⟩
  obtain ⟨⟨sign, slash⟩, h⟩ | ⟨slashes, h⟩ := ite_eq_iff.1 h
  · cases h
    subst sign
    obtain ⟨more, rfl⟩ := List.head?_eq_some_iff.1 slash
    refine ⟨_, _, run _, rfl, ?_⟩
    exact .comment (Or.inr rfl) (fun d hd => line d (List.mem_cons_of_mem _ hd))
      (ends_dropWhile _ ('/' :: more))
  obtain ⟨⟨sign, angle⟩, h⟩ | ⟨arrow, h⟩ := ite_eq_iff.1 h
  · cases h
    subst sign
    obtain ⟨more, rfl⟩ := List.head?_eq_some_iff.1 angle
    exact ⟨['>'], more, rfl, rfl, .arrow (Or.inl rfl)⟩
  obtain ⟨rfl, h⟩ | ⟨-, h⟩ := ite_eq_iff.1 h
  · cases h
    exact ⟨[], rest, rfl, rfl, .arrow (Or.inr rfl)⟩
  obtain ⟨rfl, h⟩ | ⟨-, h⟩ := ite_eq_iff.1 h
  · cases h
    exact ⟨[], rest, rfl, rfl, .bar⟩
  obtain ⟨⟨sign, named⟩, h⟩ | ⟨-, h⟩ := ite_eq_iff.1 h
  · cases h
    subst sign
    refine ⟨_, _, run _, rfl, .directive ?_ (holds _) (ends_dropWhile _ rest)⟩
    cases rest with
    | nil => cases named
    | cons d rest => simp [show isDirectiveLetter d = true from named]
  obtain ⟨rfl, h⟩ | ⟨epsilon, h⟩ := ite_eq_iff.1 h
  · cases h
    exact ⟨[], rest, rfl, rfl, .epsilon⟩
  obtain ⟨name, h⟩ | ⟨-, h⟩ := ite_eq_iff.1 h
  · cases h
    exact ⟨_, _, run _, rfl, .name name epsilon (holds _) (ends_dropWhile _ rest)⟩
  split at h
  · next sign hsign =>
    cases h
    refine ⟨[], rest, rfl, rfl, .sign hsign ?_ ?_⟩
    · exact fun hc head => slashes ⟨hc, head⟩
    · exact fun hc head => arrow ⟨hc, head⟩
  · cases h

/-! ## A whole text -/

/-- The text is cut into pieces with these faces. -/
inductive Cuts : List Char → List Face → Prop where
  | done : Cuts [] []
  | skip {covered rest : List Char} {faces : List Face} (begins : Begins none covered rest)
      (more : Cuts rest faces) : Cuts (covered ++ rest) faces
  | take {kind : PieceKind} {covered rest : List Char} {faces : List Face}
      (begins : Begins (some kind) covered rest) (more : Cuts rest faces) :
      Cuts (covered ++ rest) ((kind, String.ofList covered) :: faces)

theorem Begins.exists_cons (h : Begins kind covered rest) : ∃ c cs, covered = c :: cs := by
  cases h with
  | comment h line ends => obtain rfl | rfl := h <;> exact ⟨_, _, rfl⟩
  | arrow h => obtain rfl | rfl := h <;> exact ⟨_, _, rfl⟩
  | _ => exact ⟨_, _, rfl⟩

theorem Cuts.scans (h : Cuts text faces) : Scans text (faces ++ [(.finish, "")]) := by
  induction h with
  | done => exact scans_nil
  | skip begins more ih =>
    obtain ⟨c, cs, rfl⟩ := begins.exists_cons
    exact ih.skip c cs begins.front
  | take begins more ih =>
    obtain ⟨c, cs, rfl⟩ := begins.exists_cons
    exact ih.take c cs begins.front

theorem cuts_of_scan {source : List Char} {place : Text.Place} {pieces : List Piece}
    (h : scan source text place = .ok pieces) :
    ∃ faces, pieces.map Piece.face = faces ++ [(.finish, "")] ∧ Cuts text faces := by
  fun_induction scan source text place generalizing pieces with
  | case1 place =>
    cases h
    exact ⟨[], rfl, .done⟩
  | case2 => cases h
  | case3 => cases h
  | case4 c rest place width covered pieces hscan hfront =>
    rename_i ih
    cases h
    obtain ⟨cs, after, rfl, rfl, begins⟩ := begins_of_front hfront
    obtain ⟨faces, hfaces, more⟩ := ih hscan
    rw [List.drop_left] at more
    exact ⟨faces, hfaces, .skip begins more⟩
  | case5 c rest place width covered pieces hscan kind hfront =>
    rename_i ih
    cases h
    obtain ⟨cs, after, rfl, rfl, begins⟩ := begins_of_front hfront
    obtain ⟨faces, hfaces, more⟩ := ih hscan
    rw [List.drop_left] at more
    refine ⟨(kind, String.ofList (c :: cs)) :: faces, ?_, .take begins more⟩
    rw [List.map_cons, hfaces]
    simp [Piece.face, covered]

/-- A scan finds what the text is cut into, and fails on every other text. -/
theorem exists_scan_iff {source : List Char} {place : Text.Place} :
    (∃ pieces, scan source text place = .ok pieces ∧
      pieces.map Piece.face = faces ++ [(.finish, "")]) ↔ Cuts text faces := by
  constructor
  · intro ⟨pieces, hscan, hfaces⟩
    obtain ⟨found, hfound, cuts⟩ := cuts_of_scan hscan
    rw [hfaces] at hfound
    exact List.append_cancel_right hfound ▸ cuts
  · exact fun cuts => cuts.scans source place

theorem Cuts.unique {faces' : List Face} (h : Cuts text faces) (h' : Cuts text faces') :
    faces = faces' := by
  obtain ⟨pieces, hscan, hfaces⟩ := h.scans text .start
  obtain ⟨pieces', hscan', hfaces'⟩ := h'.scans text .start
  cases hscan.symm.trans hscan'
  exact List.append_cancel_right (hfaces.symm.trans hfaces')

/-! ## Lines -/

theorem mem_splitOnP {α : Type} {p : α → Bool} {l part : List α} {x : α}
    (hpart : part ∈ l.splitOnP p) (hx : x ∈ part) : x ∈ l ∧ p x = false := by
  induction l generalizing part with
  | nil => simp_all
  | cons y l ih =>
    rw [List.splitOnP_cons_eq_if_modifyHead] at hpart
    split at hpart
    · obtain rfl | hpart := List.mem_cons.1 hpart
      · cases hx
      · exact (ih hpart hx).imp_left (List.mem_cons_of_mem y)
    · next hy =>
      obtain ⟨first, parts, hsplit⟩ := List.exists_cons_of_ne_nil (List.splitOnP_ne_nil p l)
      rw [hsplit, List.modifyHead_cons] at hpart
      obtain rfl | hpart := List.mem_cons.1 hpart
      · obtain rfl | hx := List.mem_cons.1 hx
        · exact ⟨List.mem_cons_self, by simpa using hy⟩
        · exact (ih (hsplit ▸ List.mem_cons_self) hx).imp_left (List.mem_cons_of_mem y)
      · have hpart := hsplit ▸ List.mem_cons_of_mem first hpart
        exact (ih hpart hx).imp_left (List.mem_cons_of_mem y)

/-- The face of a line feed. -/
def newlineFace : Face := (.newline, "\n")

/-- A face that a text can show: line feeds look alike, and a directive begins with its sign. -/
structure Face.Shown (f : Face) : Prop where
  unfinished : f.1 ≠ .finish
  newline : f.1 = .newline → f = newlineFace
  directive : f.1 = .directive → ∃ letters, f.2 = String.ofList ('%' :: letters)

theorem Cuts.shown (h : Cuts text faces) : ∀ f ∈ faces, f.Shown := by
  induction h with
  | done => simp
  | skip begins more ih => exact ih
  | take begins more ih =>
    refine List.forall_mem_cons.2 ⟨?_, ih⟩
    cases begins <;> constructor <;> simp [newlineFace]

/-- The lines of the pieces are what stands between the line feeds. -/
theorem Cuts.cutLines_eq (h : Cuts text faces) {pieces : List Piece}
    (hfaces : pieces.map Piece.face = faces ++ [(.finish, "")]) :
    (cutLines [] pieces).map Line.faces = faces.splitOn newlineFace := by
  apply cutLines_faces (List.splitOn_ne_nil _ _)
  · intro line hline f hf
    rw [List.splitOn_eq_splitOnP] at hline
    obtain ⟨mem, other⟩ := mem_splitOnP hline hf
    refine ⟨fun newline => ?_, (h.shown f mem).unfinished⟩
    simp [(h.shown f mem).newline newline] at other
  · rw [hfaces]
    congr 1
    exact (List.intercalate_splitOn newlineFace).symm

theorem Cuts.shown_lines (h : Cuts text faces) {pieces : List Piece}
    (hfaces : pieces.map Piece.face = faces ++ [(.finish, "")]) :
    ∀ line ∈ cutLines [] pieces, ∀ f ∈ line.faces, f.Shown := by
  intro line hline f hf
  have mem : line.faces ∈ faces.splitOn newlineFace :=
    h.cutLines_eq hfaces ▸ List.mem_map_of_mem hline
  rw [List.splitOn_eq_splitOnP] at mem
  exact h.shown f (mem_splitOnP mem hf).1

end TopDown.Description
