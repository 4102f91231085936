import TopDown.Grammar.Build
import TopDown.Grammar.Printer
import TopDown.Proofs.Describable
import TopDown.Proofs.KindTable

/-
  A grammar read from a description and written out again reads as the same grammar.

  The faces of the written text are known part by part: a symbol, an alternative, a rule, the line
  for the start symbol. Reading these faces gives back the symbols, since a declared name is looked
  up before the words for kinds are, and no declared name is such a word. What is read in the end is
  the list of productions; adding them one after the other to a new grammar rebuilds the rules.
-/

namespace TopDown

/-! ## Rebuilding the rules from the productions -/

namespace Catalog

variable {β : Type} {c c' : Catalog β} {name : String}

theorem ext_entries (h : c.entries = c'.entries) : c = c' := by
  cases c
  cases c'
  cases h
  rfl

theorem set_set (c : Catalog β) (name : String) (value later : β) :
    (c.set name value).set name later = c.set name later := by
  refine ext_get? ?_ fun other => ?_
  · simp only [names_set]
    split <;> simp_all
  · by_cases h : other = name
    · subst h
      simp
    · simp only [get?_set_of_ne _ _ h]

theorem entries_set_of_notMem (value : β) (h : name ∉ c.names) :
    (c.set name value).entries = c.entries ++ [(name, value)] := by
  unfold set
  rw [dif_neg h]

end Catalog

namespace Grammar

variable {g : Grammar} {name : String} {alts : List Alternative}

theorem addAll_append (g : Grammar) (l l' : List (String × Alternative)) :
    g.addAll (l ++ l') = (g.addAll l).addAll l' :=
  List.foldl_append

theorem addAll_rule (h : alts ≠ []) :
    g.addAll (alts.map fun alt => (name, alt)) = g.setRule name (g.alternatives name ++ alts) := by
  induction alts generalizing g with
  | nil => exact absurd rfl h
  | cons alt alts ih =>
    cases alts with
    | nil => rfl
    | cons next alts =>
      refine (ih (g := g.addAlternative name alt) (by simp)).trans ?_
      simp [addAlternative, setRule, alternatives, Catalog.set_set]

theorem entries_addAll {entries : List (String × List Alternative)}
    (fresh : ∀ e ∈ entries, e.1 ∉ g.nonterminals) (nodup : (entries.map Prod.fst).Nodup)
    (inhabited : ∀ e ∈ entries, e.2 ≠ []) :
    (g.addAll (entries.flatMap fun (name, alts) => alts.map fun alt => (name, alt))).rules.entries
      = g.rules.entries ++ entries := by
  induction entries generalizing g with
  | nil => simp [addAll]
  | cons e rest ih =>
    obtain ⟨name, alts⟩ := e
    rw [List.map_cons, List.nodup_cons] at nodup
    have hname : name ∉ g.nonterminals := fresh _ List.mem_cons_self
    rw [List.flatMap_cons, addAll_append, addAll_rule (inhabited _ List.mem_cons_self),
      alternatives_eq_nil hname, List.nil_append, ih ?_ nodup.2
        fun e he => inhabited e (List.mem_cons_of_mem _ he)]
    · show (g.rules.set name alts).entries ++ rest = _
      rw [Catalog.entries_set_of_notMem alts hname, List.append_assoc]
      rfl
    · intro e he hmem
      obtain hname | hmem := mem_nonterminals_setRule.1 hmem
      · exact nodup.1 (List.mem_map.2 ⟨e, he, hname⟩)
      · exact fresh e (List.mem_cons_of_mem _ he) hmem

theorem Describable.inhabited_entries (h : g.Describable) {e : String × List Alternative}
    (he : e ∈ g.rules.entries) : e.2 ≠ [] := by
  have hget := Catalog.mem_entries_iff.1 he
  have := h.inhabited e.1 (List.mem_map_of_mem he)
  rwa [alternatives, hget] at this

theorem Describable.addAll_productions (h : g.Describable) :
    ((new g.start).addAll g.productions).freeze = g := by
  have entries : ((new g.start).addAll g.productions).rules.entries = g.rules.entries :=
    entries_addAll (fun _ _ => List.not_mem_nil) g.rules.nodup fun _ he => h.inhabited_entries he
  have rules : ((new g.start).addAll g.productions).rules = g.rules :=
    Catalog.ext_entries entries
  conv_rhs => rw [h.plain]
  rw [addAll_eq, rules]
  rfl

end Grammar

namespace Description

/-! ## The faces of a written grammar -/

def symbolFace : Symbol → Face
  | .terminal kind =>
    (if isWord kind.spelling then .identifier else .punctuation kind, kind.spelling)
  | .nonterminal name => (.identifier, name)

def alternativeFaces (alt : Alternative) : List Face :=
  if alt.isEmpty then [(.epsilon, "ε")] else alt.map symbolFace

def ruleFaces (e : String × List Alternative) : List Face :=
  (.identifier, e.1) :: (.arrow, "->") :: [(.bar, "|")].intercalate (e.2.map alternativeFaces)

def startFaces (name : String) : List Face :=
  [(.directive, "%start"), (.identifier, name)]

/-- The faces of the lines, as `renderLines` gives the lines. -/
def lineFaces (g : Grammar) : List (List Face) :=
  let start :=
    match g.start with
    | none => []
    | some s => if g.nonterminals.head? = some s then [] else [startFaces s]
  start ++ g.rules.entries.map ruleFaces

/-- A symbol that can be written where the names `declared` have rules. -/
def Writable (declared : List String) : Symbol → Prop
  | .terminal kind => kind ≠ .endOfInput
  | .nonterminal name => name ∈ declared

variable {declared : List String} {alt : Alternative}

theorem spelling_cases {kind : Kind} (h : kind ≠ .endOfInput) :
    isWord kind.spelling = true ∨ isWord kind.spelling = false ∧
      ∃ c, kind.spelling = String.singleton c ∧ Kind.punctuation? c = some kind := by
  have decided : isWord kind.spelling = true ∨ isWord kind.spelling = false ∧
      kind.spelling = String.singleton (kind.spelling.toList.headD ' ') ∧
        Kind.punctuation? (kind.spelling.toList.headD ' ') = some kind := by
    cases kind <;> first | exact absurd rfl h | decide +kernel
  exact decided.imp_right (And.imp_right (Exists.intro _))

theorem readsAs_symbol (free : ∀ name ∈ declared, FreeName name) {s : Symbol}
    (h : Writable declared s) : ReadsAs s.text [symbolFace s] := by
  cases s with
  | terminal kind =>
    simp only [symbolFace, Symbol.text]
    obtain hword | ⟨hword, c, hc, hsign⟩ := spelling_cases h
    · rw [if_pos hword]
      exact readsAs_word hword
    · rw [if_neg (by simp [hword]), hc]
      exact readsAs_sign hsign
  | nonterminal name => exact readsAs_word (free name h).word

theorem intercalate_singletons {α : Type} (l : List α) :
    [].intercalate (l.map fun x => [x]) = l := by
  induction l with
  | nil => rfl
  | cons x l ih => cases l <;> simp_all

theorem readsAs_alternative (free : ∀ name ∈ declared, FreeName name)
    (h : ∀ s ∈ alt, Writable declared s) :
    ReadsAs (Alternative.text alt) (alternativeFaces alt) := by
  unfold Alternative.text alternativeFaces
  split
  · exact readsAs_epsilon
  · have hsymbols : List.Forall₂ ReadsAs (alt.map Symbol.text)
        ((alt.map symbolFace).map fun f => [f]) := by
      rw [List.map_map, List.forall₂_map_left_iff, List.forall₂_map_right_iff, List.forall₂_same]
      exact fun s hs => readsAs_symbol free (h s hs)
    simpa only [intercalate_singletons] using ReadsAs.intercalate separates_blank hsymbols

theorem toList_padRight (width : Nat) (s : String) :
    (Text.padRight width s).toList = s.toList ++ List.replicate (width - s.length) ' ' := by
  unfold Text.padRight
  generalize width - s.length = n
  induction n with
  | zero => simp [String.pushn, Nat.repeat]
  | succ n ih =>
    simp [String.pushn, Nat.repeat] at ih ⊢
    rw [ih]
    simp [List.replicate_succ']

theorem Scans.blanks {rest : List Char} {more : List Face} (n : Nat) (h : Scans rest more) :
    Scans (List.replicate n ' ' ++ rest) more := by
  induction n with
  | zero => exact h
  | succ n ih => exact ih.blank

theorem apart_blanks {rest : List Char} (n : Nat) (h : Apart rest) :
    Apart (List.replicate n ' ' ++ rest) := by
  cases n with
  | zero => exact h
  | succ n => exact apart_blank _

theorem readsAs_rule (free : ∀ name ∈ declared, FreeName name) {e : String × List Alternative}
    (hname : e.1 ∈ declared) (h : ∀ alt ∈ e.2, ∀ s ∈ alt, Writable declared s) (width : Nat) :
    ReadsAs (Grammar.ruleText (Text.padRight width e.1) e.2) (ruleFaces e) := by
  have halts : ReadsAs (Alternative.listText e.2)
      ([(.bar, "|")].intercalate (e.2.map alternativeFaces)) := by
    refine ReadsAs.intercalate separates_bar ?_
    rw [List.forall₂_map_left_iff, List.forall₂_map_right_iff, List.forall₂_same]
    exact fun alt halt => readsAs_alternative free (h alt halt)
  intro rest more apart hrest
  simp only [Grammar.ruleText, String.toList_append, toList_padRight, List.append_assoc]
  refine readsAs_word (free e.1 hname).word _ _ (apart_blanks _ (separates_arrow.apart _)) ?_
  exact (separates_arrow.scans (halts rest more apart hrest)).blanks _

theorem readsAs_start {name : String} (h : FreeName name) :
    ReadsAs ("%start " ++ name) (startFaces name) := by
  intro rest more apart hrest
  rw [String.toList_append, List.append_assoc]
  exact (readsAs_word h.word rest more apart hrest).directive

/-! ## Reading the faces back -/

variable {source : List Char}

/-- Faces that may stand in an alternative. -/
def Face.isItem (f : Face) : Bool :=
  match f.1 with
  | .identifier | .punctuation _ | .epsilon => true
  | _ => false

theorem kind_symbolFace (s : Symbol) :
    (symbolFace s).1 = .identifier ∨ ∃ kind, (symbolFace s).1 = .punctuation kind := by
  cases s with
  | terminal kind =>
    by_cases hword : isWord kind.spelling = true
    · exact Or.inl (if_pos hword)
    · exact Or.inr ⟨kind, if_neg hword⟩
  | nonterminal name => exact Or.inl rfl

theorem isItem_of_mem_alternativeFaces {f : Face} (h : f ∈ alternativeFaces alt) :
    f.isItem = true := by
  unfold alternativeFaces at h
  split at h
  · obtain rfl := List.mem_singleton.1 h
    rfl
  · obtain ⟨s, -, rfl⟩ := List.mem_map.1 h
    obtain hkind | ⟨kind, hkind⟩ := kind_symbolFace s <;> simp [Face.isItem, hkind]

theorem cutAtBars_of_no_bar {pieces : List Piece} (h : ∀ p ∈ pieces, p.kind ≠ .bar) :
    cutAtBars pieces = [pieces] := by
  induction pieces with
  | nil => rfl
  | cons p pieces ih =>
    rw [List.forall_mem_cons] at h
    rw [cutAtBars, if_neg h.1, ih h.2]

theorem cutAtBars_append {bar : Piece} (hbar : bar.kind = .bar) (rest : List Piece)
    {pieces : List Piece} (h : ∀ p ∈ pieces, p.kind ≠ .bar) :
    cutAtBars (pieces ++ bar :: rest) = pieces :: cutAtBars rest := by
  induction pieces with
  | nil => rw [List.nil_append, cutAtBars, if_pos hbar]
  | cons p pieces ih =>
    rw [List.forall_mem_cons] at h
    rw [List.cons_append, cutAtBars, if_neg h.1, ih h.2]

theorem cutAtBars_faces {alts : List (List Face)} (some_alt : alts ≠ [])
    (items : ∀ alt ∈ alts, ∀ f ∈ alt, f.isItem = true) {pieces : List Piece}
    (h : pieces.map Piece.face = [(.bar, "|")].intercalate alts) :
    (cutAtBars pieces).map (List.map Piece.face) = alts := by
  induction alts generalizing pieces with
  | nil => exact absurd rfl some_alt
  | cons alt alts ih =>
    have no_bar {before : List Piece} (hbefore : before.map Piece.face = alt) :
        ∀ p ∈ before, p.kind ≠ .bar := by
      intro p hp hbar
      have := items alt List.mem_cons_self p.face (hbefore ▸ List.mem_map_of_mem hp)
      simp [Face.isItem, Piece.face, hbar] at this
    cases alts with
    | nil =>
      rw [List.intercalate_singleton] at h
      rw [cutAtBars_of_no_bar (no_bar h), List.map_singleton, h]
    | cons next alts =>
      rw [List.intercalate_cons_cons, List.append_assoc] at h
      obtain ⟨before, back, rfl, hbefore, hback⟩ := List.map_eq_append_iff.1 h
      obtain ⟨bar, rest, rfl, hbar, hrest⟩ := List.map_eq_cons_iff.1 hback
      rw [cutAtBars_append (Prod.mk.inj hbar).1 rest (no_bar hbefore), List.map_cons, hbefore,
        ih (by simp) (fun l hl => items l (List.mem_cons_of_mem alt hl)) hrest]

theorem mem_intercalate {α : Type} {x : α} {between : List α} {l : List (List α)}
    (h : x ∈ between.intercalate l) : x ∈ between ∨ ∃ part ∈ l, x ∈ part := by
  induction l with
  | nil => cases h
  | cons part l ih =>
    cases l with
    | nil =>
      rw [List.intercalate_singleton] at h
      exact Or.inr ⟨part, List.mem_cons_self, h⟩
    | cons next l =>
      rw [List.intercalate_cons_cons, List.mem_append, List.mem_append] at h
      obtain (h | h) | h := h
      · exact Or.inr ⟨part, List.mem_cons_self, h⟩
      · exact Or.inl h
      · obtain hbetween | ⟨q, hq, hx⟩ := ih h
        · exact Or.inl hbetween
        · exact Or.inr ⟨q, List.mem_cons_of_mem part hq, hx⟩

/-- On the right of an arrow stand items and bars. -/
theorem isItem_or_bar {e : String × List Alternative} {f : Face}
    (h : f ∈ [(.bar, "|")].intercalate (e.2.map alternativeFaces)) :
    f.isItem = true ∨ f.1 = .bar := by
  obtain hbar | ⟨part, hpart, hf⟩ := mem_intercalate h
  · obtain rfl := List.mem_singleton.1 hbar
    exact Or.inr rfl
  · obtain ⟨alt, -, rfl⟩ := List.mem_map.1 hpart
    exact Or.inl (isItem_of_mem_alternativeFaces hf)

theorem withinLine_ruleFaces (e : String × List Alternative) : WithinLine (ruleFaces e) := by
  intro f hf
  obtain rfl | hf := List.mem_cons.1 hf
  · simp
  obtain rfl | hf := List.mem_cons.1 hf
  · simp
  obtain hitem | hbar := isItem_or_bar hf
  · constructor <;> intro hkind <;> simp [Face.isItem, hkind] at hitem
  · constructor <;> simp [hbar]

theorem forall₂_of_map_eq {α β γ : Type} {f : α → γ} {f' : β → γ} {l : List α} {l' : List β}
    (h : l.map f = l'.map f') : List.Forall₂ (fun x y => f x = f' y) l l' := by
  rwa [← List.forall₂_eq_eq_eq, List.forall₂_map_left_iff, List.forall₂_map_right_iff] at h

/-- A rule of the draft that was read from the faces of an entry. -/
def Matches (e : String × List Alternative) (rule : RawRule) : Prop :=
  rule.name.face = (.identifier, e.1) ∧
    List.Forall₂ (fun alt pieces => alternativeFaces alt = pieces.map Piece.face) e.2 rule.alts

theorem Draft.read_rule (source : List Char) (d : Draft) {e : String × List Alternative}
    (inhabited : e.2 ≠ []) {line : Line} (h : line.faces = ruleFaces e) :
    ∃ rule, d.read source line = .ok { d with rules := d.rules ++ [rule] } ∧ Matches e rule := by
  obtain ⟨name, rest, hpieces, hname, hrest⟩ := List.map_eq_cons_iff.1 h
  obtain ⟨arrow, body, rfl, harrow, hbody⟩ := List.map_eq_cons_iff.1 hrest
  have hkind : name.kind = .identifier := (Prod.mk.inj hname).1
  have items : ∀ p ∈ body, p.isItem = true ∨ p.kind = .bar := fun p hp =>
    isItem_or_bar (f := p.face) (hbody ▸ List.mem_map_of_mem hp)
  have hread : readRule source name (arrow :: body) line.stop = .ok ⟨name, cutAtBars body⟩ :=
    readRule_eq_ok_iff.2 ⟨hkind, arrow, body, rfl, (Prod.mk.inj harrow).1, items, rfl⟩
  have hcut : (cutAtBars body).map (List.map Piece.face) = e.2.map alternativeFaces := by
    refine cutAtBars_faces (by simpa using inhabited) (fun alt halt f hf => ?_) hbody
    obtain ⟨alt, -, rfl⟩ := List.mem_map.1 halt
    exact isItem_of_mem_alternativeFaces hf
  refine ⟨⟨name, cutAtBars body⟩, ?_, hname, forall₂_of_map_eq hcut.symm⟩
  simp [Draft.read, hpieces, hkind, hread]

theorem Draft.foldlM_read_rules (source : List Char) {entries : List (String × List Alternative)}
    (inhabited : ∀ e ∈ entries, e.2 ≠ []) {lines : List Line}
    (h : lines.map Line.faces = entries.map ruleFaces) (d : Draft) :
    ∃ rules, lines.foldlM (Draft.read source) d = .ok { d with rules := d.rules ++ rules } ∧
      List.Forall₂ Matches entries rules := by
  induction entries generalizing lines d with
  | nil =>
    obtain rfl := List.map_eq_nil_iff.1 h
    exact ⟨[], by simp [pure, Except.pure], .nil⟩
  | cons e entries ih =>
    rw [List.forall_mem_cons] at inhabited
    obtain ⟨line, lines, rfl, hline, hlines⟩ := List.map_eq_cons_iff.1 h
    obtain ⟨rule, hread, hrule⟩ := d.read_rule source inhabited.1 hline
    obtain ⟨rules, hfold, hrules⟩ := ih inhabited.2 hlines { d with rules := d.rules ++ [rule] }
    refine ⟨rule :: rules, ?_, .cons hrule hrules⟩
    rw [List.foldlM_cons, hread]
    simpa [bind, Except.bind] using hfold

theorem Draft.read_start (source : List Char) {d : Draft} (unset : d.start = none) {name : String}
    {line : Line} (h : line.faces = startFaces name) :
    ∃ p : Piece, d.read source line = .ok { d with start := some p } ∧ p.text = name := by
  obtain ⟨directive, rest, hpieces, hdirective, hrest⟩ := List.map_eq_cons_iff.1 h
  obtain ⟨p, rest, rfl, hp, hnil⟩ := List.map_eq_cons_iff.1 hrest
  obtain rfl := List.map_eq_nil_iff.1 hnil
  refine ⟨p, ?_, (Prod.mk.inj hp).2⟩
  have hname : directive.directiveName = "start" := by
    rw [Piece.directiveName, (Prod.mk.inj hdirective).2]
    rfl
  have hread : readDirective source d.start directive [p] line.stop = .ok p :=
    readDirective_eq_ok_iff.2 ⟨hname, unset, rfl, (Prod.mk.inj hp).1⟩
  simp [Draft.read, hpieces, (Prod.mk.inj hdirective).1, hread]

theorem named?_spelling {kind : Kind} (h : kind ≠ .endOfInput) :
    Kind.named? kind.spelling = some kind := by
  have spelled : Kind.ofSpelling? kind.spelling = some kind := Kind.ofSpelling?_eq_some_iff.2 rfl
  simp [Kind.named?, spelled]

theorem spelling_notMem_epsilonWords (kind : Kind) : kind.spelling ∉ epsilonWords := by
  cases kind <;> decide

theorem readSymbol_face (free : ∀ name ∈ declared, FreeName name) {s : Symbol}
    (hs : Writable declared s) {p : Piece} (h : p.face = symbolFace s) :
    readSymbol source declared p = .ok s := by
  unfold readSymbol
  cases s with
  | terminal kind =>
    obtain ⟨hkind, htext⟩ := Prod.mk.inj h
    obtain hword | ⟨hword, -⟩ := spelling_cases hs
    · -- Declared names are looked up first, and no declared name is a word for a kind.
      have undeclared : kind.spelling ∉ declared := by
        intro hmem
        have := (free _ hmem).no_kind
        rw [named?_spelling hs] at this
        cases this
      simp [hkind, htext, hword, undeclared, named?_spelling hs]
    · simp [hkind, hword]
  | nonterminal name =>
    obtain ⟨hkind, htext⟩ := Prod.mk.inj h
    simp [hkind, htext, (show name ∈ declared from hs)]

theorem isEpsilon_of_face (free : ∀ name ∈ declared, FreeName name) {s : Symbol}
    (hs : Writable declared s) {p : Piece} (h : p.face = symbolFace s) :
    p.isEpsilon = false := by
  have hkind : p.kind ≠ .epsilon := by
    rw [show p.kind = (symbolFace s).1 from congrArg Prod.fst h]
    obtain hkind | ⟨kind, hkind⟩ := kind_symbolFace s <;> simp [hkind]
  have htext : p.text ∉ epsilonWords := by
    cases s with
    | terminal kind => exact (Prod.mk.inj h).2 ▸ spelling_notMem_epsilonWords kind
    | nonterminal name => exact (Prod.mk.inj h).2 ▸ (free name hs).no_epsilon
  simp [Piece.isEpsilon, hkind, htext]

theorem readAlternative_faces (free : ∀ name ∈ declared, FreeName name)
    (halt : ∀ s ∈ alt, Writable declared s) {pieces : List Piece}
    (h : alternativeFaces alt = pieces.map Piece.face) :
    readAlternative source declared pieces = .ok alt := by
  unfold alternativeFaces at h
  split at h
  · next hnil =>
    obtain rfl := List.isEmpty_iff.1 hnil
    obtain ⟨p, rest, rfl, hp, hrest⟩ := List.map_eq_cons_iff.1 h.symm
    obtain rfl := List.map_eq_nil_iff.1 hrest
    have heps : p.isEpsilon = true := by simp [Piece.isEpsilon, (Prod.mk.inj hp).1]
    simp [readAlternative, heps]
  · have symbols := (List.forall₂_and_left _ _).2 ⟨halt, forall₂_of_map_eq h⟩
    have nonempty : pieces.find? Piece.isEpsilon = none := by
      rw [List.find?_eq_none]
      intro p hp
      obtain ⟨s, -, hs, hface⟩ := exists_of_mem_right symbols hp
      simp [isEpsilon_of_face free hs hface.symm]
    unfold readAlternative
    rw [nonempty]
    refine mapM_eq_ok_iff.2 (List.Forall₂.flip (symbols.imp ?_))
    rintro s p ⟨hs, hface⟩
    exact readSymbol_face free hs hface.symm

end Description

namespace Grammar

open Description

variable {g : Grammar}

theorem Describable.writable (h : g.Describable) {e : String × List Alternative}
    (he : e ∈ g.rules.entries) : ∀ alt ∈ e.2, ∀ s ∈ alt, Writable g.nonterminals s := by
  intro alt halt s hs
  have mentioned : g.Mentions s :=
    ⟨e.1, alt, mem_alternatives_iff.2 ⟨e.2, Catalog.mem_entries_iff.1 he, halt⟩, hs⟩
  cases s with
  | terminal kind =>
    rintro rfl
    exact h.written mentioned
  | nonterminal name => exact declared_of_validate h.valid mentioned

theorem Describable.readsAs_lines (h : g.Describable) :
    List.Forall₂ ReadsAs g.renderLines (lineFaces g) := by
  obtain ⟨start, hstart, hdeclared⟩ := exists_start_of_validate h.valid
  have hrules : List.Forall₂ ReadsAs
      (g.rules.entries.map fun (name, alts) =>
        ruleText (Text.padRight (Text.widest g.nonterminals) name) alts)
      (g.rules.entries.map ruleFaces) := by
    rw [List.forall₂_map_left_iff, List.forall₂_map_right_iff, List.forall₂_same]
    exact fun e he => readsAs_rule h.names (List.mem_map_of_mem he) (h.writable he) _
  unfold renderLines lineFaces
  rw [hstart]
  dsimp only
  split
  · exact hrules
  · exact .cons (readsAs_start (h.names start hdeclared)) hrules

theorem Describable.scans_render (h : g.Describable) :
    Scans g.render.toList ([(.newline, "\n")].intercalate (lineFaces g) ++ [(.finish, "")]) := by
  obtain ⟨start, -, hdeclared⟩ := exists_start_of_validate h.valid
  have some_name : g.nonterminals.isEmpty = false := by
    simpa using List.ne_nil_of_mem hdeclared
  unfold render Text.lines Text.joined
  rw [some_name]
  simpa using ReadsAs.intercalate separates_newline h.readsAs_lines [] _ apart_nil scans_nil

theorem withinLine_lineFaces {line : List Face} (hline : line ∈ lineFaces g) : WithinLine line := by
  obtain hstart | hrule := List.mem_append.1 hline
  · have : ∃ name, line = startFaces name := by
      split at hstart
      · cases hstart
      · next s _ =>
        split at hstart
        · cases hstart
        · exact ⟨s, List.mem_singleton.1 hstart⟩
    obtain ⟨name, rfl⟩ := this
    simp [WithinLine, startFaces]
  · obtain ⟨e, -, rfl⟩ := List.mem_map.1 hrule
    exact withinLine_ruleFaces e

theorem map_name_of_matches {entries : List (String × List Alternative)} {rules : List RawRule}
    (h : List.Forall₂ Matches entries rules) :
    rules.map (·.name.text) = entries.map Prod.fst := by
  induction h with
  | nil => rfl
  | cons hrule _ ih =>
    rw [List.map_cons, List.map_cons, ih]
    exact congrArg (· :: _) (Prod.mk.inj hrule.1).2

theorem Describable.some_entry (h : g.Describable) : g.rules.entries ≠ [] := by
  obtain ⟨start, -, hdeclared⟩ := exists_start_of_validate h.valid
  intro hnil
  simp [nonterminals, Catalog.names, hnil] at hdeclared

/-- What the lines of a written grammar are read as: its rules, and its start symbol where that has
a line of its own. -/
theorem Describable.read_lines (h : g.Describable) (source : List Char) {lines : List Line}
    (hlines : lines.map Line.faces = lineFaces g) :
    ∃ d, lines.foldlM (Draft.read source) ⟨[], none⟩ = .ok d ∧
      List.Forall₂ Matches g.rules.entries d.rules ∧
      d.startName = g.start ∧ ∀ p, d.start = some p → p.text ∈ g.nonterminals := by
  obtain ⟨start, hstart, hdeclared⟩ := exists_start_of_validate h.valid
  have inhabited : ∀ e ∈ g.rules.entries, e.2 ≠ [] := fun _ he => h.inhabited_entries he
  rw [lineFaces, hstart] at hlines
  by_cases hhead : g.nonterminals.head? = some start
  · simp only [hhead, if_true, List.nil_append] at hlines
    obtain ⟨rules, hfold, hmatch⟩ := Draft.foldlM_read_rules source inhabited hlines ⟨[], none⟩
    refine ⟨⟨rules, none⟩, hfold, hmatch, ?_, by simp⟩
    rw [hstart, ← hhead]
    exact congrArg List.head? (map_name_of_matches hmatch)
  · simp only [hhead, if_false, List.singleton_append] at hlines
    obtain ⟨line, lines, rfl, hline, htail⟩ := List.map_eq_cons_iff.1 hlines
    obtain ⟨p, hread, rfl⟩ := Draft.read_start source (d := ⟨[], none⟩) rfl hline
    obtain ⟨rules, hfold, hmatch⟩ := Draft.foldlM_read_rules source inhabited htail ⟨[], some p⟩
    refine ⟨⟨rules, some p⟩, ?_, hmatch, hstart.symm, ?_⟩
    · rw [List.foldlM_cons, hread]
      exact hfold
    · intro q hq
      cases hq
      exact hdeclared

theorem Describable.ofText_render (h : g.Describable) :
    ∃ d, Draft.ofText g.render.toList = .ok d ∧ List.Forall₂ Matches g.rules.entries d.rules ∧
      d.startName = g.start ∧ ∀ p, d.start = some p → p.text ∈ g.nonterminals := by
  obtain ⟨pieces, hscan, hfaces⟩ := h.scans_render g.render.toList .start
  have hlines : (cutLines [] pieces).map Line.faces = lineFaces g :=
    cutLines_faces (by simp [lineFaces, h.some_entry]) (fun _ => withinLine_lineFaces) hfaces
  obtain ⟨d, hfold, hmatch, hstart⟩ := h.read_lines g.render.toList hlines
  have some_rule : d.rules ≠ [] := by
    intro hnil
    rw [hnil, List.forall₂_nil_right_iff] at hmatch
    exact h.some_entry hmatch
  exact ⟨d, Draft.ofText_eq_ok_iff.2 ⟨pieces, hscan, hfold, some_rule⟩, hmatch, hstart⟩

theorem Describable.toGrammar_eq (h : g.Describable) {source : List Char} {d : Draft}
    (rules : List.Forall₂ Matches g.rules.entries d.rules) (start : d.startName = g.start)
    (declared : ∀ p, d.start = some p → p.text ∈ g.nonterminals) :
    d.toGrammar source = .ok ((new g.start).addAll g.productions) := by
  have hdeclared : d.declared = g.nonterminals := map_name_of_matches rules
  refine Draft.toGrammar_eq_ok_iff.2 ⟨?_, ?_, g.productions, ?_, by rw [start]⟩
  · intro rule hrule
    obtain ⟨e, he, hname, -⟩ := exists_of_mem_right rules hrule
    obtain ⟨hkind, htext⟩ := Prod.mk.inj hname
    have free : FreeName rule.name.text := htext ▸ h.names e.1 (List.mem_map_of_mem he)
    exact (checkName_eq_ok_iff hkind).2 ⟨free.unreserved, free.no_kind, free.no_epsilon⟩
  · rw [hdeclared]
    exact declared
  · rw [hdeclared]
    -- Rule by rule, and in each of them alternative by alternative.
    have entries := (List.forall₂_and_left _ _).2 ⟨fun e he => h.writable he, rules⟩
    refine List.Forall₂.flip (List.rel_flatMap entries ?_)
    rintro ⟨name, alts⟩ rule ⟨writable, hname, halts⟩
    rw [List.forall₂_map_left_iff, List.forall₂_map_right_iff]
    refine ((List.forall₂_and_left _ _).2 ⟨writable, halts⟩).imp ?_
    rintro alt pieces ⟨writable, hfaces⟩
    exact ⟨(Prod.mk.inj hname).2.symm, readAlternative_faces h.names writable hfaces⟩

theorem Describable.ofDescription_render (h : g.Describable) :
    ofDescription g.render true = .ok g := by
  obtain ⟨d, hd, rules, start, declared⟩ := h.ofText_render
  have valid : ((new g.start).addAll g.productions).validate = .ok () := by
    have := h.valid
    rw [← h.addAll_productions] at this
    exact this
  exact ofDescription_eq_ok_iff.2
    ⟨d, _, hd, h.toGrammar_eq rules start declared, fun _ => valid, h.addAll_productions.symm⟩

/-- The describable grammars are those that some text describes. -/
theorem describable_iff_exists_text :
    g.Describable ↔ ∃ text, ofDescription text true = .ok g := by
  constructor
  · intro h
    exact ⟨g.render, h.ofDescription_render⟩
  · rintro ⟨text, h⟩
    exact describable_of_ofDescription h

/-- Writing a grammar and reading it again is the identity on grammars that were read: start
symbol, nonterminals and alternatives are the same and in the same order, and so is the text. -/
theorem ofDescription_roundTrip {text : String} (h : ofDescription text true = .ok g) :
    ofDescription g.render true = .ok g :=
  (describable_of_ofDescription h).ofDescription_render

/-- Two slashes, a minus and the empty alternative under a capital letter, the start symbol last. -/
def slashes : Grammar :=
  assemble (some "s")
    [("Ä", [[.terminal .slash, .terminal .slash, .terminal .minus], []]),
     ("s", [[.nonterminal "Ä", .terminal .identifier]])] []

theorem ofDescription_roundTrip_slashes :
    ofDescription "%start s\nÄ -> / / - | EPS // none\ns -> Ä IDT" true = .ok slashes ∧
      slashes.render = "%start s\nÄ -> / / - | ε\ns -> Ä ID" ∧
      ofDescription slashes.render true = .ok slashes := by
  have read : ofDescription "%start s\nÄ -> / / - | EPS // none\ns -> Ä IDT" true
      = .ok slashes := by
    cbv
  have written : slashes.render = "%start s\nÄ -> / / - | ε\ns -> Ä ID" := by
    decide +kernel
  exact ⟨read, written, ofDescription_roundTrip read⟩

end Grammar

end TopDown
