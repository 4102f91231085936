import TopDown.Proofs.Pieces
import TopDown.Proofs.RoundTrip

/-
  What the lines of a description say, and the drafts that hold it.

  A line says nothing, names the start symbol, or gives alternatives to a nonterminal (`States`);
  any other line is an error. `Reads text statements` is this for a whole text.

  A draft holds what the lines say, in their order (`Draft.Holds`). That is the invariant of reading
  line by line: a line that is read says something, and a line that says something is read unless it
  names the start symbol again. So a text has a draft exactly when its lines say something, some
  line is a rule and at most one names the start symbol (`holds_of_ofText`, `Reads.exists_draft`).
-/

namespace TopDown.Description

variable {source text : List Char} {line : List Face} {d d' : Draft}

/-! ## Lines -/

inductive Statement where
  | nothing
  | start (name : String)
  | rule (name : String) (alts : List (List Face))

def Statement.rule? : Statement → Option (String × List (List Face))
  | rule name alts => some (name, alts)
  | _ => none

def Statement.start? : Statement → Option String
  | start name => some name
  | _ => none

variable {st st' : Statement} {statements more : List Statement}

/-- What a line says. -/
inductive States : List Face → Statement → Prop where
  | nothing : States [] .nothing
  | start {name : String} : States [(.directive, "%start"), (.identifier, name)] (.start name)
  | rule {name arrow : String} {body : List Face}
      (items : ∀ f ∈ body, f.isItem = true ∨ f.1 = .bar) :
      States ((.identifier, name) :: (.arrow, arrow) :: body)
        (.rule name (body.splitOnP (·.1 = .bar)))

/-- The lines of the text say these statements. -/
def Reads (text : List Char) (statements : List Statement) : Prop :=
  ∃ faces, Cuts text faces ∧ List.Forall₂ States (faces.splitOn newlineFace) statements

/-- The rules that the statements give, each with its alternatives as they are written. -/
def rulesOf (statements : List Statement) : List (String × List (List Face)) :=
  statements.filterMap Statement.rule?

/-- The names that the statements give to the start symbol. -/
def startsOf (statements : List Statement) : List String :=
  statements.filterMap Statement.start?

theorem rightUnique_states : Relator.RightUnique States := by
  intro line st st' h h'
  cases h <;> cases h' <;> rfl

theorem Reads.unique {others : List Statement} (h : Reads text statements)
    (h' : Reads text others) : statements = others := by
  obtain ⟨faces, cuts, lines⟩ := h
  obtain ⟨faces', cuts', lines'⟩ := h'
  obtain rfl := cuts.unique cuts'
  exact rightUnique_states.forall₂ lines lines'

/-! ## Alternatives between bars -/

theorem cutAtBars_ne_nil (pieces : List Piece) : cutAtBars pieces ≠ [] := by
  cases pieces with
  | nil => simp [cutAtBars]
  | cons p pieces =>
    rw [cutAtBars]
    split
    · simp
    · split <;> simp

theorem cutAtBars_eq_splitOnP (pieces : List Piece) :
    (cutAtBars pieces).map (List.map Piece.face)
      = (pieces.map Piece.face).splitOnP (·.1 = .bar) := by
  induction pieces with
  | nil => rfl
  | cons p pieces ih =>
    rw [cutAtBars, List.map_cons, List.splitOnP_cons_eq_if_modifyHead, ← ih]
    by_cases bar : p.kind = .bar
    · simp [bar, Piece.face]
    · obtain ⟨alt, alts, hcut⟩ := List.exists_cons_of_ne_nil (cutAtBars_ne_nil pieces)
      simp [hcut, bar, Piece.face]

/-! ## Drafts -/

/-- A rule without its places. -/
def RawRule.faces (rule : RawRule) : String × List (List Face) :=
  (rule.name.text, rule.alts.map (List.map Piece.face))

/-- The draft has what the statements say, and nothing else. -/
structure Draft.Holds (d : Draft) (statements : List Statement) : Prop where
  rules : d.rules.map RawRule.faces = rulesOf statements
  start : (d.start.map Piece.text).toList = startsOf statements
  names : ∀ rule ∈ d.rules, rule.name.kind = .identifier

theorem Draft.holds_nil : Draft.Holds ⟨[], none⟩ [] where
  rules := rfl
  start := rfl
  names := by simp

theorem rulesOf_concat (statements : List Statement) (st : Statement) :
    rulesOf (statements ++ [st]) = rulesOf statements ++ st.rule?.toList := by
  cases st <;> simp [rulesOf, Statement.rule?]

theorem startsOf_concat (statements : List Statement) (st : Statement) :
    startsOf (statements ++ [st]) = startsOf statements ++ st.start?.toList := by
  cases st <;> simp [startsOf, Statement.start?]

theorem startsOf_append (statements more : List Statement) :
    startsOf (statements ++ more) = startsOf statements ++ startsOf more :=
  List.filterMap_append

theorem Draft.Holds.addNothing (h : d.Holds statements) : d.Holds (statements ++ [.nothing]) where
  rules := by simp [rulesOf_concat, Statement.rule?, h.rules]
  start := by simp [startsOf_concat, Statement.start?, h.start]
  names := h.names

theorem Draft.Holds.addStart (h : d.Holds statements) (unset : d.start = none) (name : Piece) :
    Draft.Holds { d with start := some name } (statements ++ [.start name.text]) where
  rules := by simp [rulesOf_concat, Statement.rule?, h.rules]
  start := by simp [startsOf_concat, Statement.start?, ← h.start, unset]
  names := h.names

theorem Draft.Holds.addRule (h : d.Holds statements) {rule : RawRule}
    (name : rule.name.kind = .identifier) :
    Draft.Holds { d with rules := d.rules ++ [rule] }
      (statements ++ [.rule rule.faces.1 rule.faces.2]) where
  rules := by simp [rulesOf_concat, Statement.rule?, h.rules]
  start := by simp [startsOf_concat, Statement.start?, h.start]
  names := by
    simp only [List.forall_mem_append, List.forall_mem_singleton]
    exact ⟨h.names, name⟩

theorem face_eq {p : Piece} {kind : PieceKind} (h : p.kind = kind) : p.face = (kind, p.text) := by
  rw [← h]
  rfl

theorem Face.Shown.text_eq_start {p : Piece} (shown : p.face.Shown)
    (directive : p.kind = .directive) (h : p.directiveName = "start") : p.text = "%start" := by
  obtain ⟨letters, hletters⟩ := shown.directive directive
  have htext : p.text = String.ofList ('%' :: letters) := hletters
  rw [Piece.directiveName, htext, String.toList_ofList, List.drop_one, List.tail_cons] at h
  have start : letters = "start".toList := by
    rw [← h, String.toList_ofList]
  rw [htext, start]
  rfl

/-- A line that is read says something, and the draft has it from then on. -/
theorem Draft.Holds.read (h : d.Holds statements) {line : Line}
    (shown : ∀ f ∈ line.faces, f.Shown) (hread : d.read source line = .ok d') :
    ∃ st, States line.faces st ∧ d'.Holds (statements ++ [st]) := by
  unfold Line.faces at shown ⊢
  unfold Draft.read at hread
  split at hread
  · next hpieces =>
    cases hread
    rw [hpieces]
    exact ⟨.nothing, .nothing, h.addNothing⟩
  · next p rest hpieces =>
    rw [hpieces] at shown ⊢
    split at hread
    · next directive =>
      split at hread
      · cases hread
      · next name hname =>
        cases hread
        obtain ⟨hstart, unset, rfl, hkind⟩ := readDirective_eq_ok_iff.1 hname
        refine ⟨.start name.text, ?_, h.addStart unset name⟩
        have text : p.text = "%start" :=
          (shown p.face List.mem_cons_self).text_eq_start directive hstart
        rw [List.map_cons, List.map_singleton, face_eq directive, face_eq hkind, text]
        exact .start
    · split at hread
      · cases hread
      · next rule hrule =>
        cases hread
        obtain ⟨hname, arrow, body, rfl, harrow, items, rfl⟩ := readRule_eq_ok_iff.1 hrule
        refine ⟨_, ?_, h.addRule hname⟩
        rw [RawRule.faces, cutAtBars_eq_splitOnP, List.map_cons, List.map_cons, face_eq hname,
          face_eq harrow]
        exact .rule (List.forall_mem_map.2 items)

/-- A line that says something is read, unless it names the start symbol again. -/
theorem Draft.Holds.exists_read (h : d.Holds statements) (source : List Char) {line : Line}
    (states : States line.faces st) (once : (startsOf (statements ++ [st])).length ≤ 1) :
    ∃ d', d.read source line = .ok d' := by
  unfold Line.faces at states
  generalize hfaces : line.pieces.map Piece.face = faces at states
  unfold Draft.read
  cases states with
  | nothing =>
    rw [List.map_eq_nil_iff.1 hfaces]
    exact ⟨d, rfl⟩
  | @start name =>
    obtain ⟨directive, rest, hpieces, hdirective, hrest⟩ := List.map_eq_cons_iff.1 hfaces
    obtain ⟨p, rest, rfl, hp, hnil⟩ := List.map_eq_cons_iff.1 hrest
    obtain rfl := List.map_eq_nil_iff.1 hnil
    have unset : d.start = none := by
      rw [startsOf_concat, ← h.start] at once
      cases hstart : d.start with
      | none => rfl
      | some q => simp [hstart, Statement.start?] at once
    have hname : directive.directiveName = "start" := by
      rw [Piece.directiveName, (Prod.mk.inj hdirective).2]
      rfl
    have hread : readDirective source d.start directive [p] line.stop = .ok p :=
      readDirective_eq_ok_iff.2 ⟨hname, unset, rfl, (Prod.mk.inj hp).1⟩
    simp [hpieces, (Prod.mk.inj hdirective).1, hread]
  | @rule name arrow body items =>
    obtain ⟨p, rest, hpieces, hp, hrest⟩ := List.map_eq_cons_iff.1 hfaces
    obtain ⟨sign, pieces, rfl, hsign, rfl⟩ := List.map_eq_cons_iff.1 hrest
    have hread : readRule source p (sign :: pieces) line.stop = .ok ⟨p, cutAtBars pieces⟩ :=
      readRule_eq_ok_iff.2 ⟨(Prod.mk.inj hp).1, sign, pieces, rfl, (Prod.mk.inj hsign).1,
        List.forall_mem_map.1 items, rfl⟩
    simp [hpieces, (Prod.mk.inj hp).1, hread]

/-! ## All lines -/

/-- What the lines so far say is kept by reading the others. -/
theorem Draft.Holds.foldlM (h : d.Holds statements) {lines : List Line}
    (shown : ∀ line ∈ lines, ∀ f ∈ line.faces, f.Shown)
    (hfold : lines.foldlM (Draft.read source) d = .ok d') :
    ∃ more, List.Forall₂ States (lines.map Line.faces) more ∧ d'.Holds (statements ++ more) := by
  induction lines generalizing d statements with
  | nil =>
    cases hfold
    exact ⟨[], .nil, by rwa [List.append_nil]⟩
  | cons line lines ih =>
    rw [List.forall_mem_cons] at shown
    rw [List.foldlM_cons, bind_eq_ok_iff] at hfold
    obtain ⟨d₁, hread, hrest⟩ := hfold
    obtain ⟨st, states, holds⟩ := h.read shown.1 hread
    obtain ⟨more, hmore, hall⟩ := ih holds shown.2 hrest
    exact ⟨st :: more, .cons states hmore, by rwa [List.append_assoc] at hall⟩

theorem Draft.Holds.exists_foldlM (h : d.Holds statements) {lines : List Line}
    (shown : ∀ line ∈ lines, ∀ f ∈ line.faces, f.Shown)
    (states : List.Forall₂ States (lines.map Line.faces) more)
    (once : (startsOf (statements ++ more)).length ≤ 1) :
    ∃ d', lines.foldlM (Draft.read source) d = .ok d' := by
  induction lines generalizing d statements more with
  | nil => exact ⟨d, rfl⟩
  | cons line lines ih =>
    rw [List.forall_mem_cons] at shown
    obtain ⟨st, more, here, later, rfl⟩ := List.forall₂_cons_left_iff.1 states
    rw [List.append_cons] at once
    have first : (startsOf (statements ++ [st])).length ≤ 1 := by
      rw [startsOf_append, List.length_append] at once
      omega
    obtain ⟨d₁, hread⟩ := h.exists_read source here first
    obtain ⟨st', here', holds⟩ := h.read shown.1 hread
    obtain rfl := rightUnique_states here here'
    obtain ⟨d', hfold⟩ := ih holds shown.2 later once
    exact ⟨d', by rw [List.foldlM_cons, hread]; exact hfold⟩

/-! ## Texts -/

/-- A draft that was made of a text holds what the lines of the text say. -/
theorem holds_of_ofText (h : Draft.ofText text = .ok d) :
    ∃ statements, Reads text statements ∧ d.Holds statements ∧ d.rules ≠ [] := by
  obtain ⟨pieces, hscan, hfold, hrules⟩ := Draft.ofText_eq_ok_iff.1 h
  obtain ⟨faces, hfaces, cuts⟩ := cuts_of_scan hscan
  obtain ⟨statements, lines, holds⟩ :=
    Draft.holds_nil.foldlM (cuts.shown_lines hfaces) hfold
  rw [cuts.cutLines_eq hfaces] at lines
  exact ⟨statements, ⟨faces, cuts, lines⟩, holds, hrules⟩

theorem Reads.exists_draft (h : Reads text statements) (some_rule : rulesOf statements ≠ [])
    (once : (startsOf statements).length ≤ 1) :
    ∃ d, Draft.ofText text = .ok d ∧ d.Holds statements := by
  obtain ⟨faces, cuts, lines⟩ := h
  obtain ⟨pieces, hscan, hfaces⟩ := cuts.scans text .start
  have shown := cuts.shown_lines hfaces
  rw [← cuts.cutLines_eq hfaces] at lines
  obtain ⟨d, hfold⟩ := Draft.holds_nil.exists_foldlM shown lines once
  obtain ⟨found, lines', holds⟩ := Draft.holds_nil.foldlM shown hfold
  obtain rfl := rightUnique_states.forall₂ lines lines'
  rw [List.nil_append] at holds
  refine ⟨d, Draft.ofText_eq_ok_iff.2 ⟨pieces, hscan, hfold, fun hnil => some_rule ?_⟩, holds⟩
  rw [← holds.rules, hnil]
  rfl

end TopDown.Description
