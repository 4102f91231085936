import TopDown.Grammar.Description.Reading
import TopDown.Proofs.Failable
import TopDown.Proofs.Rules
import TopDown.Proofs.Scanning

/-
  What a grammar that was read from a description looks like.

  Each stage of the reading has a lemma that says when it succeeds and with what: `Draft.ofText`,
  `Draft.toGrammar` and `Grammar.ofDescription`. From these, `describable_of_ofDescription` collects
  what a grammar owes to having been written down: its nonterminals are words that a left-hand side
  may hold, every one of them has an alternative, and the end of input is not among its terminals.
-/

namespace TopDown

namespace Grammar

variable {g : Grammar} {name : String} {alt : Alternative} {l : List (String × Alternative)}

/-! ## Adding alternatives one after the other -/

def addAll (g : Grammar) (l : List (String × Alternative)) : Grammar :=
  l.foldl (fun g (name, alt) => g.addAlternative name alt) g

/-- Nothing but the rules changes. -/
theorem addAll_eq (g : Grammar) (l : List (String × Alternative)) :
    g.addAll l = { g with rules := (g.addAll l).rules } := by
  induction l generalizing g with
  | nil => rfl
  | cons e l ih => exact ih (g.addAlternative e.1 e.2)

theorem alternatives_addAll :
    (g.addAll l).alternatives name
      = g.alternatives name ++ (l.filter (·.1 = name)).map Prod.snd := by
  induction l generalizing g with
  | nil => simp [addAll]
  | cons e l ih =>
    obtain ⟨owner, alt⟩ := e
    refine (ih (g := g.addAlternative owner alt)).trans ?_
    by_cases h : owner = name
    · subst h
      simp [addAlternative]
    · simp [addAlternative, alternatives_setRule_of_ne (Ne.symm h), h]

theorem mem_nonterminals_addAll :
    name ∈ (g.addAll l).nonterminals ↔ name ∈ g.nonterminals ∨ name ∈ l.map Prod.fst := by
  induction l generalizing g with
  | nil => simp [addAll]
  | cons e l ih =>
    refine (ih (g := g.addAlternative e.1 e.2)).trans ?_
    rw [addAlternative, mem_nonterminals_setRule, List.map_cons, List.mem_cons]
    tauto

end Grammar

namespace Description

/-! ## The stages of the reading -/

variable {source : List Char} {d : Draft} {g : Grammar}

theorem Draft.ofText_eq_ok_iff :
    Draft.ofText source = .ok d ↔ ∃ pieces, scan source source .start = .ok pieces ∧
      (cutLines [] pieces).foldlM (Draft.read source) ⟨[], none⟩ = .ok d ∧ d.rules ≠ [] := by
  unfold Draft.ofText
  rw [bind_eq_ok_iff]
  refine exists_congr fun pieces => and_congr_right fun _ => ?_
  rw [bind_eq_ok_iff]
  constructor
  · rintro ⟨d', hfold, h⟩
    by_cases hrules : d'.rules = []
    · simp [hrules, throw, throwThe, MonadExceptOf.throw, bind, Except.bind] at h
    · simp [hrules, pure, Except.pure] at h
      exact h ▸ ⟨hfold, hrules⟩
  · rintro ⟨hfold, hrules⟩
    exact ⟨d, hfold, by simp [hrules, pure, Except.pure]⟩

/-- An alternative of the draft and the production it becomes. -/
def Becomes (source : List Char) (declared : List String) (raw : String × List Piece)
    (production : String × Alternative) : Prop :=
  production.1 = raw.1 ∧ readAlternative source declared raw.2 = .ok production.2

theorem Draft.toGrammar_eq_ok_iff :
    d.toGrammar source = .ok g ↔
      (∀ rule ∈ d.rules, checkName source rule.name = .ok ()) ∧
      (∀ p, d.start = some p → p.text ∈ d.declared) ∧
      ∃ productions, List.Forall₂ (Becomes source d.declared) d.alternatives productions ∧
        g = (Grammar.new d.startName).addAll productions := by
  unfold Draft.toGrammar
  simp only [bind_eq_ok_iff, mapM_eq_ok_iff]
  constructor
  · rintro ⟨_, hnames, productions, hread, h⟩
    refine ⟨forM_eq_ok_iff.1 hnames, ?_⟩
    have becomes : List.Forall₂ (Becomes source d.declared) d.alternatives productions := by
      refine hread.imp ?_
      rintro raw production ⟨alt, halt, hpure⟩
      cases hpure
      exact ⟨rfl, halt⟩
    split at h
    · next p hp =>
      split at h
      · cases h
      · next hdeclared =>
        refine ⟨fun q hq => ?_, productions, becomes, (Except.ok.inj h).symm⟩
        cases hp.symm.trans hq
        exact Decidable.not_not.1 hdeclared
    · next hnone =>
      refine ⟨fun q hq => ?_, productions, becomes, (Except.ok.inj h).symm⟩
      cases hnone.symm.trans hq
  · rintro ⟨hnames, hstart, productions, becomes, rfl⟩
    refine ⟨(), forM_eq_ok_iff.2 hnames, productions, becomes.imp ?_, ?_⟩
    · rintro raw production ⟨hname, halt⟩
      exact ⟨production.2, halt, hname ▸ rfl⟩
    split
    · next p hp =>
      rw [if_neg (not_not_intro (hstart p hp))]
      rfl
    · rfl

theorem ofDraftText_eq_ok_iff {text : String} :
    Grammar.ofDraftText text = .ok g ↔
      ∃ d, Draft.ofText text.toList = .ok d ∧ d.toGrammar text.toList = .ok g := by
  unfold Grammar.ofDraftText
  rw [← bind_eq_ok_iff]
  dsimp only
  split
  · next h => simp [h]
  · next h => simp [h]

theorem ofDescription_eq_ok_iff {text : String} {validated : Bool} :
    Grammar.ofDescription text validated = .ok g ↔ ∃ d g', Draft.ofText text.toList = .ok d ∧
      d.toGrammar text.toList = .ok g' ∧ (validated = true → g'.validate = .ok ()) ∧
      g = g'.freeze := by
  unfold Grammar.ofDescription
  rw [bind_eq_ok_iff]
  simp only [ofDraftText_eq_ok_iff]
  cases validated with
  | false =>
    constructor
    · rintro ⟨g', ⟨d, hd, hg'⟩, h⟩
      exact ⟨d, g', hd, hg', Bool.noConfusion, (Except.ok.inj h).symm⟩
    · rintro ⟨d, g', hd, hg', -, rfl⟩
      exact ⟨g', ⟨d, hd, hg'⟩, rfl⟩
  | true =>
    simp only [if_true, bind_eq_ok_iff]
    constructor
    · rintro ⟨g', ⟨d, hd, hg'⟩, _, valid, h⟩
      exact ⟨d, g', hd, hg', fun _ => valid, (Except.ok.inj h).symm⟩
    · rintro ⟨d, g', hd, hg', valid, rfl⟩
      exact ⟨g', ⟨d, hd, hg'⟩, (), valid trivial, rfl⟩

/-! ## Reading one line -/

theorem readAlternatives_eq_ok_iff {owner : String} {pieces : List Piece}
    {alts : List (List Piece)} :
    readAlternatives source owner pieces = .ok alts ↔
      (∀ p ∈ pieces, p.isItem = true ∨ p.kind = .bar) ∧ alts = cutAtBars pieces := by
  unfold readAlternatives
  split
  · next p hp =>
    have other := List.find?_some hp
    simp at other
    refine iff_of_false (by simp) fun h => ?_
    obtain item | bar := h.1 p (List.mem_of_find?_eq_some hp)
    · simp [other.1] at item
    · exact other.2 bar
  · next hnone =>
    have items : ∀ p ∈ pieces, p.isItem = true ∨ p.kind = .bar := by
      simpa [or_iff_not_imp_left] using hnone
    exact ⟨fun h => ⟨items, (Except.ok.inj h).symm⟩, fun h => by rw [h.2]⟩

theorem readRule_eq_ok_iff {name stop : Piece} {rest : List Piece} {rule : RawRule} :
    readRule source name rest stop = .ok rule ↔ name.kind = .identifier ∧
      ∃ arrow body, rest = arrow :: body ∧ arrow.kind = .arrow ∧
        (∀ p ∈ body, p.isItem = true ∨ p.kind = .bar) ∧ rule = ⟨name, cutAtBars body⟩ := by
  constructor
  · intro h
    unfold readRule at h
    split_ifs at h with other
    split at h
    · cases h
    · next arrow body =>
      split_ifs at h with none
      split at h
      · cases h
      · next alts halts =>
        cases h
        obtain ⟨items, rfl⟩ := readAlternatives_eq_ok_iff.1 halts
        exact ⟨not_not.1 other, arrow, body, rfl, not_not.1 none, items, rfl⟩
  · rintro ⟨hname, arrow, body, rfl, harrow, items, rfl⟩
    have hread : readAlternatives source name.text body = .ok (cutAtBars body) :=
      readAlternatives_eq_ok_iff.2 ⟨items, rfl⟩
    simp [readRule, hname, harrow, hread]

theorem readDirective_eq_ok_iff {known : Option Piece} {directive stop name : Piece}
    {rest : List Piece} :
    readDirective source known directive rest stop = .ok name ↔
      directive.directiveName = "start" ∧ known = none ∧ rest = [name] ∧
        name.kind = .identifier := by
  constructor
  · intro h
    unfold readDirective at h
    split_ifs at h with unknown repeated
    split at h
    · cases h
    · split_ifs at h with other
      split at h
      · cases h
        exact ⟨not_not.1 unknown, by simpa using repeated, rfl, not_not.1 other⟩
      · cases h
  · rintro ⟨hstart, rfl, rfl, hname⟩
    simp [readDirective, hstart, hname]

/-! ## Legible drafts -/

theorem mem_of_mem_cutAtBars {pieces alt : List Piece} {p : Piece} (hp : p ∈ alt)
    (h : alt ∈ cutAtBars pieces) : p ∈ pieces := by
  induction pieces generalizing alt with
  | nil => simp_all [cutAtBars]
  | cons q pieces ih =>
    rw [cutAtBars] at h
    split at h
    · obtain rfl | h := List.mem_cons.1 h
      · cases hp
      · exact List.mem_cons_of_mem q (ih hp h)
    · split at h
      · simp_all
      · next first rest hcut =>
        obtain rfl | h := List.mem_cons.1 h
        · obtain rfl | hp := List.mem_cons.1 hp
          · exact List.mem_cons_self
          · exact List.mem_cons_of_mem q (ih hp (hcut ▸ List.mem_cons_self))
        · exact List.mem_cons_of_mem q (ih hp (hcut ▸ List.mem_cons_of_mem first h))

structure RawRule.Legible (rule : RawRule) : Prop where
  name : rule.name.kind = .identifier
  word : isWord rule.name.text = true
  items : ∀ alt ∈ rule.alts, ∀ p ∈ alt, p.face.Legible

theorem readRule_legible {name stop : Piece} {rest : List Piece} {rule : RawRule}
    (hname : name.face.Legible) (hrest : ∀ p ∈ rest, p.face.Legible)
    (h : readRule source name rest stop = .ok rule) : rule.Legible := by
  obtain ⟨hkind, arrow, body, rfl, -, -, rfl⟩ := readRule_eq_ok_iff.1 h
  refine ⟨hkind, ?_, fun alt halt p hp => ?_⟩
  · simpa [Piece.face, hkind, Face.Legible] using hname
  · exact hrest p (List.mem_cons_of_mem arrow (mem_of_mem_cutAtBars hp halt))

theorem Draft.read_legible {d' : Draft} {line : Line} (hline : ∀ p ∈ line.pieces, p.face.Legible)
    (hd : ∀ rule ∈ d.rules, rule.Legible) (h : d.read source line = .ok d') :
    ∀ rule ∈ d'.rules, rule.Legible := by
  unfold Draft.read at h
  split at h
  · cases h
    exact hd
  · next p rest hpieces =>
    rw [hpieces, List.forall_mem_cons] at hline
    split at h
    · split at h
      · cases h
      · cases h
        exact hd
    · split at h
      · cases h
      · next rule hrule =>
        cases h
        intro r hr
        obtain hr | hr := List.mem_append.1 hr
        · exact hd r hr
        · obtain rfl := List.mem_singleton.1 hr
          exact readRule_legible hline.1 hline.2 hrule

theorem Draft.ofText_legible (h : Draft.ofText source = .ok d) :
    ∀ rule ∈ d.rules, rule.Legible := by
  obtain ⟨pieces, hscan, hfold, -⟩ := Draft.ofText_eq_ok_iff.1 h
  refine foldlM_induction (P := fun d => ∀ rule ∈ d.rules, rule.Legible) ?_ (by simp) hfold
  intro line hline d d' hd hread
  refine Draft.read_legible (fun p hp => scan_legible hscan p ?_) hd hread
  exact (mem_of_mem_cutLines hp hline).resolve_left List.not_mem_nil

/-! ## Symbols -/

/-- A name that a left-hand side may hold. -/
structure FreeName (name : String) : Prop where
  word : isWord name = true
  unreserved : isReserved name = false
  no_kind : Kind.named? name = none
  no_epsilon : name ∉ epsilonWords

theorem checkName_eq_ok_iff {name : Piece} (hkind : name.kind = .identifier) :
    checkName source name = .ok () ↔ isReserved name.text = false ∧
      Kind.named? name.text = none ∧ name.text ∉ epsilonWords := by
  have epsilon : name.isEpsilon = true ↔ name.text ∈ epsilonWords := by
    simp [Piece.isEpsilon, hkind]
  unfold checkName
  split_ifs with reserved word
  · exact iff_of_false (by simp) fun h => by simp [h.1] at reserved
  · refine iff_of_false (by simp) fun h => ?_
    rw [h.2.1] at word
    exact h.2.2 (epsilon.1 word)
  · rw [Bool.or_eq_true, not_or, Option.not_isSome_iff_eq_none] at word
    exact iff_of_true rfl ⟨by simpa using reserved, word.1, fun h => word.2 (epsilon.2 h)⟩

theorem RawRule.Legible.freeName {rule : RawRule} (legible : rule.Legible)
    (h : checkName source rule.name = .ok ()) : FreeName rule.name.text := by
  obtain ⟨unreserved, no_kind, no_epsilon⟩ := (checkName_eq_ok_iff legible.name).1 h
  exact ⟨legible.word, unreserved, no_kind, no_epsilon⟩

theorem named?_ne_endOfInput {s : String} {kind : Kind} (h : Kind.named? s = some kind) :
    kind ≠ .endOfInput := by
  unfold Kind.named? at h
  split at h
  · cases h
  · next hne _ =>
    cases h
    exact hne
  · have all : ∀ e ∈ Kind.aliases, e.2 ≠ .endOfInput := by decide
    obtain ⟨_, _, hmem, -⟩ := List.lookup_eq_some_iff.1 h
    exact all (s, kind) (hmem ▸ List.mem_append_right _ List.mem_cons_self)

theorem readSymbol_ne_endOfInput {declared : List String} {p : Piece} {s : Symbol}
    (hp : p.face.Legible) (h : readSymbol source declared p = .ok s) :
    s ≠ .terminal .endOfInput := by
  unfold readSymbol at h
  split at h
  · next kind hkind =>
    cases h
    simpa [Piece.face, hkind, Face.Legible] using hp
  · split at h
    · cases h
      exact Symbol.noConfusion
    · split at h
      · next kind hkind =>
        cases h
        simpa using named?_ne_endOfInput hkind
      · split at h
        · cases h
        · cases h
          exact Symbol.noConfusion

theorem readAlternative_ne_endOfInput {declared : List String} {pieces : List Piece}
    {alt : Alternative} (hpieces : ∀ p ∈ pieces, p.face.Legible)
    (h : readAlternative source declared pieces = .ok alt) : .terminal .endOfInput ∉ alt := by
  unfold readAlternative at h
  split at h
  · split at h
    · cases h
    · cases h
      exact List.not_mem_nil
  · intro hmem
    obtain ⟨p, hp, hs⟩ := exists_of_mem_right (mapM_eq_ok_iff.1 h) hmem
    exact readSymbol_ne_endOfInput (hpieces p hp) hs rfl

end Description

/-! ## Describable grammars -/

/-- A valid grammar that has only what can be written down in a description. -/
structure Grammar.Describable (g : Grammar) : Prop where
  valid : g.validate = .ok ()
  names : ∀ name ∈ g.nonterminals, Description.FreeName name
  inhabited : ∀ name ∈ g.nonterminals, g.alternatives name ≠ []
  written : ¬ g.Mentions (.terminal .endOfInput)
  plain : g = { Grammar.new g.start with rules := g.rules, frozen := true }

open Description in
theorem Grammar.describable_of_ofDescription {text : String} {g : Grammar}
    (h : Grammar.ofDescription text true = .ok g) : g.Describable := by
  obtain ⟨d, g', hd, hg', valid, rfl⟩ := ofDescription_eq_ok_iff.1 h
  obtain ⟨hnames, -, productions, hread, rfl⟩ := Draft.toGrammar_eq_ok_iff.1 hg'
  have legible := Draft.ofText_legible hd
  -- Every production comes from an alternative of a rule of the draft.
  have origin : ∀ e ∈ productions, ∃ rule ∈ d.rules, ∃ pieces ∈ rule.alts,
      e.1 = rule.name.text ∧ readAlternative text.toList d.declared pieces = .ok e.2 := by
    intro e he
    obtain ⟨raw, hraw, hname, halt⟩ := exists_of_mem_right hread he
    simp only [Draft.alternatives, List.mem_flatMap, List.mem_map] at hraw
    obtain ⟨rule, hrule, pieces, hpieces, rfl⟩ := hraw
    exact ⟨rule, hrule, pieces, hpieces, hname, halt⟩
  have declares {name : String}
      (hname : name ∈ ((Grammar.new d.startName).addAll productions).nonterminals) :
      ∃ alt, (name, alt) ∈ productions := by
    obtain hnew | hname := mem_nonterminals_addAll.1 hname
    · cases hnew
    · obtain ⟨⟨_, alt⟩, he, rfl⟩ := List.mem_map.1 hname
      exact ⟨alt, he⟩
  have alternatives {name : String} :
      ((Grammar.new d.startName).addAll productions).alternatives name
        = (productions.filter (·.1 = name)).map Prod.snd :=
    alternatives_addAll
  refine ⟨valid rfl, fun name hname => ?_, fun name hname hnil => ?_, ?_, ?_⟩
  · obtain ⟨alt, he⟩ := declares hname
    obtain ⟨rule, hrule, _, _, rfl, _⟩ := origin _ he
    exact (legible rule hrule).freeName (hnames rule hrule)
  · obtain ⟨alt, he⟩ := declares hname
    have : alt ∈ ((Grammar.new d.startName).addAll productions).alternatives name := by
      rw [alternatives]
      exact List.mem_map.2 ⟨_, List.mem_filter.2 ⟨he, by simp⟩, rfl⟩
    exact List.ne_nil_of_mem this hnil
  · rintro ⟨name, alt, halt, hs⟩
    obtain ⟨e, he, rfl⟩ := List.mem_map.1 (alternatives ▸ halt)
    obtain ⟨rule, hrule, pieces, hpieces, -, hread⟩ := origin e (List.mem_of_mem_filter he)
    exact readAlternative_ne_endOfInput ((legible rule hrule).items pieces hpieces) hread hs
  · rw [addAll_eq]
    rfl

end TopDown
