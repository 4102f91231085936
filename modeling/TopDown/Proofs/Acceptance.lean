import TopDown.Proofs.Meaning
import TopDown.Proofs.Statements

/-
  Which texts describe a grammar, and which grammar they describe.

  Both are said of the statements that the lines of a text make: `WellFormed` collects what they
  must keep to, `Built` what the grammar owes to them. A text is read exactly when its lines make
  well-formed statements (`ofDescription_exact`). For what is built it is enough to build one
  grammar from well-formed statements, since a text is read in one way only.
-/

namespace TopDown

namespace Description

variable {source : List Char} {statements : List Statement} {d : Draft}

/-! ## Statements -/

/-- The names on the left-hand sides. -/
def declaredIn (statements : List Statement) : List String :=
  (rulesOf statements).map Prod.fst

/-- The alternatives of a nonterminal as its lines write them, in order. -/
def writtenFor (name : String) (statements : List Statement) : List (List Face) :=
  ((rulesOf statements).filter (·.1 = name)).flatMap Prod.snd

/-- What statements must keep to in order to describe a grammar. -/
structure WellFormed (statements : List Statement) : Prop where
  some_rule : rulesOf statements ≠ []
  one_start : (startsOf statements).length ≤ 1
  names : ∀ name ∈ declaredIn statements, Declarable name
  items : ∀ rule ∈ rulesOf statements, ∀ items ∈ rule.2, Acceptable (declaredIn statements) items
  start : ∀ name ∈ startsOf statements, name ∈ declaredIn statements

/-- The grammar is what the statements describe. -/
structure Built (statements : List Statement) (g : Grammar) : Prop where
  frozen : g.frozen = true
  nonterminals : g.nonterminals = (declaredIn statements).eraseDups
  alternatives : ∀ name, List.Forall₂ (Means (declaredIn statements))
    (writtenFor name statements) (g.alternatives name)
  start : g.start = (startsOf statements).head?.or (declaredIn statements).head?
  plain : g = { Grammar.new g.start with rules := g.rules, frozen := true }

theorem Draft.Holds.declared_eq (h : d.Holds statements) : d.declared = declaredIn statements := by
  rw [declaredIn, ← h.rules, List.map_map]
  rfl

theorem Draft.Holds.startName_eq (h : d.Holds statements) :
    d.startName = (startsOf statements).head?.or (declaredIn statements).head? := by
  rw [← h.start, ← h.declared_eq]
  unfold Draft.startName
  cases d.start <;> rfl

/-- Every rule has alternatives, and there are only items in them. -/
def Itemised (statements : List Statement) : Prop :=
  ∀ rule ∈ rulesOf statements, rule.2 ≠ [] ∧ ∀ items ∈ rule.2, ∀ f ∈ items, f.isItem = true

theorem Reads.itemised {text : List Char} (h : Reads text statements) : Itemised statements := by
  obtain ⟨faces, -, lines⟩ := h
  intro rule hrule
  obtain ⟨st, hst, hsome⟩ := List.mem_filterMap.1 hrule
  obtain ⟨line, -, states⟩ := exists_of_mem_right lines hst
  cases states with
  | nothing => cases hsome
  | start => cases hsome
  | @rule name arrow body inside =>
    cases hsome
    refine ⟨List.splitOnP_ne_nil _ body, fun items hitems f hf => ?_⟩
    obtain ⟨mem, inner⟩ := mem_splitOnP hitems hf
    exact (inside f mem).resolve_right (by simpa using inner)

/-! ## From statements to grammars -/

theorem Draft.Holds.isItem (h : d.Holds statements) (itemised : Itemised statements)
    {rule : RawRule} (hrule : rule ∈ d.rules) {pieces : List Piece} (hpieces : pieces ∈ rule.alts) :
    ∀ p ∈ pieces, p.isItem = true := by
  have given : rule.faces ∈ rulesOf statements := h.rules ▸ List.mem_map_of_mem hrule
  intro p hp
  exact (itemised _ given).2 _ (List.mem_map_of_mem hpieces) p.face (List.mem_map_of_mem hp)

/-- A draft from which a grammar can be made holds well-formed statements. -/
theorem Draft.Holds.wellFormed (h : d.Holds statements) (some_rule : d.rules ≠ [])
    (itemised : Itemised statements) {g : Grammar} (hg : d.toGrammar source = .ok g) :
    WellFormed statements := by
  obtain ⟨names, start, productions, becomes, -⟩ := Draft.toGrammar_eq_ok_iff.1 hg
  rw [h.declared_eq] at start becomes
  constructor
  · rw [← h.rules]
    simpa using some_rule
  · rw [← h.start]
    cases d.start <;> simp
  · intro name hname
    rw [← h.declared_eq] at hname
    obtain ⟨rule, hrule, rfl⟩ := List.mem_map.1 hname
    exact (checkName_iff_declarable (h.names rule hrule)).1 (names rule hrule)
  · intro rule hrule items hitems
    rw [← h.rules] at hrule
    obtain ⟨rule, given, rfl⟩ := List.mem_map.1 hrule
    obtain ⟨pieces, hpieces, rfl⟩ := List.mem_map.1 hitems
    have alternative : (rule.name.text, pieces) ∈ d.alternatives :=
      List.mem_flatMap.2 ⟨rule, given, List.mem_map_of_mem hpieces⟩
    obtain ⟨production, -, -, hread⟩ := exists_of_mem_right becomes.flip alternative
    exact ((readAlternative_eq_ok_iff (h.isItem itemised given hpieces)).1 hread).1
  · rw [← h.start]
    intro name hname
    obtain ⟨p, hp, rfl⟩ : ∃ p, d.start = some p ∧ p.text = name := by simpa using hname
    exact start p hp

/-- The productions of rules, one alternative after the other. -/
def productionsOf (entries : List (String × List Alternative)) : List (String × Alternative) :=
  entries.flatMap fun (name, alts) => alts.map fun alt => (name, alt)

/-- The entry has what the alternatives of a rule stand for. -/
def Fills (declared : List String) (rule : String × List (List Face))
    (e : String × List Alternative) : Prop :=
  e.1 = rule.1 ∧ List.Forall₂ (Means declared) rule.2 e.2

theorem WellFormed.exists_entries (h : WellFormed statements) (itemised : Itemised statements) :
    ∃ entries, List.Forall₂ (Fills (declaredIn statements)) (rulesOf statements) entries := by
  apply exists_forall₂
  intro rule hrule
  obtain ⟨alts, halts⟩ := exists_forall₂ fun items hitems =>
    exists_means ((itemised rule hrule).2 items hitems) (h.items rule hrule items hitems)
  exact ⟨(rule.1, alts), rfl, halts⟩

theorem Draft.Holds.toGrammar_eq (h : d.Holds statements) (valid : WellFormed statements)
    (itemised : Itemised statements) {entries : List (String × List Alternative)}
    (fills : List.Forall₂ (Fills (declaredIn statements)) (rulesOf statements) entries) :
    d.toGrammar source = .ok ((Grammar.new d.startName).addAll (productionsOf entries)) := by
  refine Draft.toGrammar_eq_ok_iff.2 ⟨?_, ?_, productionsOf entries, ?_, rfl⟩
  · intro rule hrule
    have name : rule.name.text ∈ declaredIn statements :=
      h.declared_eq ▸ List.mem_map_of_mem hrule
    exact (checkName_iff_declarable (h.names rule hrule)).2 (valid.names _ name)
  · intro p hp
    rw [h.declared_eq]
    apply valid.start
    simp [← h.start, hp]
  · rw [h.declared_eq]
    rw [← h.rules, List.forall₂_map_left_iff] at fills
    -- Rule by rule, and in each of them alternative by alternative.
    refine List.rel_flatMap ((List.forall₂_and_left _ _).2 ⟨fun _ hrule => hrule, fills⟩) ?_
    rintro rule ⟨name, alts⟩ ⟨hrule, hname, halts⟩
    rw [RawRule.faces, List.forall₂_map_left_iff] at halts
    rw [List.forall₂_map_left_iff, List.forall₂_map_right_iff]
    refine ((List.forall₂_and_left _ _).2 ⟨fun _ hpieces => hpieces, halts⟩).imp ?_
    rintro pieces alt ⟨hpieces, means⟩
    have given : rule.faces ∈ rulesOf statements := h.rules ▸ List.mem_map_of_mem hrule
    have acceptable := valid.items _ given _ (List.mem_map_of_mem hpieces)
    refine ⟨hname, (readAlternative_eq_ok_iff (h.isItem itemised hrule hpieces)).2 ?_⟩
    exact ⟨acceptable, means⟩

end Description

namespace Grammar

open Description

variable {g : Grammar} {name : String} {start : Option String}
  {entries : List (String × List Alternative)}

theorem alternatives_addAll_productionsOf :
    (g.addAll (productionsOf entries)).alternatives name
      = g.alternatives name ++ (entries.filter (·.1 = name)).flatMap Prod.snd := by
  rw [alternatives_addAll]
  congr 1
  induction entries with
  | nil => rfl
  | cons e entries ih =>
    obtain ⟨owner, alts⟩ := e
    by_cases h : owner = name
    · subst h
      simpa [productionsOf, List.filter_map, Function.comp_def] using ih
    · simpa [productionsOf, List.filter_map, Function.comp_def, h] using ih

theorem eraseDups_concat (names : List String) (name : String) :
    (names ++ [name]).eraseDups
      = if name ∈ names.eraseDups then names.eraseDups else names.eraseDups ++ [name] := by
  by_cases h : name ∈ names
  · simp [List.eraseDups_append, List.removeAll, h]
  · simp [List.eraseDups_append, List.removeAll, h, List.eraseDups_cons]

theorem nonterminals_addAll_productionsOf (inhabited : ∀ e ∈ entries, e.2 ≠ []) :
    ((new start).addAll (productionsOf entries)).nonterminals
      = (entries.map Prod.fst).eraseDups := by
  induction entries using List.reverseRecOn with
  | nil => rfl
  | append_singleton entries e ih =>
    rw [List.forall_mem_append, List.forall_mem_singleton] at inhabited
    have last : productionsOf (entries ++ [e])
        = productionsOf entries ++ e.2.map fun alt => (e.1, alt) := by
      simp [productionsOf]
    rw [last, addAll_append, addAll_rule inhabited.2, List.map_append, List.map_singleton,
      eraseDups_concat, ← ih inhabited.1]
    exact Catalog.names_set ..

/-! ## Descriptions -/

theorem ofDescription_false_eq_error {text : String} {e : GrammarError}
    (h : ofDescription text false = .error e) : ∃ error, e = .malformed error := by
  unfold ofDescription ofDraftText at h
  dsimp only at h
  split at h
  · next error _ =>
    cases h
    exact ⟨error, rfl⟩
  · cases h

/-- Well-formed statements describe a grammar. -/
theorem exists_built {text : String} {statements : List Statement}
    (reads : Reads text.toList statements) (valid : WellFormed statements) :
    ∃ g, ofDescription text false = .ok g ∧ Built statements g := by
  obtain ⟨d, hd, holds⟩ := reads.exists_draft valid.some_rule valid.one_start
  have itemised := reads.itemised
  obtain ⟨entries, fills⟩ := valid.exists_entries itemised
  have read : d.toGrammar text.toList = .ok _ := holds.toGrammar_eq valid itemised fills
  refine ⟨_, ofDescription_eq_ok_iff.2 ⟨d, _, hd, read, Bool.noConfusion, rfl⟩, ?_⟩
  have names : entries.map Prod.fst = declaredIn statements := by
    rw [declaredIn, ← List.forall₂_eq_eq_eq, List.forall₂_map_left_iff, List.forall₂_map_right_iff]
    exact fills.flip.imp fun _ _ h => h.1
  have inhabited : ∀ e ∈ entries, e.2 ≠ [] := by
    intro e he hnil
    obtain ⟨rule, hrule, -, halts⟩ := exists_of_mem_right fills he
    rw [hnil, List.forall₂_nil_right_iff] at halts
    exact (itemised rule hrule).1 halts
  constructor
  · rfl
  · show ((new d.startName).addAll (productionsOf entries)).nonterminals = _
    rw [nonterminals_addAll_productionsOf inhabited, names]
  · intro name
    show List.Forall₂ _ _ (((new d.startName).addAll (productionsOf entries)).alternatives name)
    rw [alternatives_addAll_productionsOf, alternatives_eq_nil List.not_mem_nil, List.nil_append]
    refine List.rel_flatMap (List.rel_filter ?_ fills) ?_
    · intro rule e h
      simp [h.1]
    · exact fun rule e h => h.2
  · rw [addAll_eq]
    exact holds.startName_eq
  · rw [addAll_eq]
    rfl

/-- A text is accepted exactly when its lines make well-formed statements; the grammar is what they
describe, and every other text is refused as malformed. -/
theorem ofDescription_exact (text : String) :
    ((∃ g, ofDescription text false = .ok g) ↔
      ∃ statements, Reads text.toList statements ∧ WellFormed statements) ∧
    (∀ statements g, Reads text.toList statements → ofDescription text false = .ok g →
      Built statements g) ∧
    ((¬ ∃ statements, Reads text.toList statements ∧ WellFormed statements) →
      ∃ error, ofDescription text false = .error (.malformed error)) := by
  have sound {g : Grammar} (h : ofDescription text false = .ok g) :
      ∃ statements, Reads text.toList statements ∧ WellFormed statements ∧ Built statements g := by
    obtain ⟨d, g', hd, hg, -, rfl⟩ := ofDescription_eq_ok_iff.1 h
    obtain ⟨statements, reads, holds, some_rule⟩ := holds_of_ofText hd
    have valid := holds.wellFormed some_rule reads.itemised hg
    obtain ⟨g, hg, built⟩ := exists_built reads valid
    cases h.symm.trans hg
    exact ⟨statements, reads, valid, built⟩
  have complete : (∃ statements, Reads text.toList statements ∧ WellFormed statements) →
      ∃ g, ofDescription text false = .ok g := by
    intro ⟨statements, reads, valid⟩
    obtain ⟨g, hg, -⟩ := exists_built reads valid
    exact ⟨g, hg⟩
  refine ⟨⟨?_, complete⟩, ?_, ?_⟩
  · intro ⟨g, hg⟩
    obtain ⟨statements, reads, valid, -⟩ := sound hg
    exact ⟨statements, reads, valid⟩
  · intro statements g reads hg
    obtain ⟨others, reads', -, built⟩ := sound hg
    exact reads.unique reads' ▸ built
  · intro none
    cases h : ofDescription text false with
    | ok g =>
      obtain ⟨statements, reads, valid, -⟩ := sound h
      exact absurd ⟨statements, reads, valid⟩ none
    | error e =>
      obtain ⟨error, rfl⟩ := ofDescription_false_eq_error h
      exact ⟨error, rfl⟩

/-- A grammar that gives the alternatives of `b` in two lines, with the line of `a` between. -/
def reopened : Grammar :=
  assemble (some "a")
    [("b", [[.terminal .identifier], [], [.nonterminal "a"]]), ("a", [[.nonterminal "b"]])] []

-- One text that is accepted, and one that is not since `EPS` stands beside another item.
theorem ofDescription_exact_reopened :
    (∃ statements, Reads "b -> ID | ε\n\na → b # more\nb -> a\n%start a".toList statements ∧
      WellFormed statements ∧ Built statements reopened) ∧
    ¬ ∃ statements, Reads "a -> b | EPS b".toList statements ∧ WellFormed statements := by
  have read : ofDescription "b -> ID | ε\n\na → b # more\nb -> a\n%start a" false
      = .ok reopened := by
    cbv
  have refused : ofDescription "a -> b | EPS b" false = .error (.malformed
      ⟨.crowdedEpsilon, some (⟨9, 1, 10⟩, "a -> b | EPS b\n         ^")⟩) := by
    cbv
  constructor
  · obtain ⟨accepted, built, -⟩ :=
      ofDescription_exact "b -> ID | ε\n\na → b # more\nb -> a\n%start a"
    obtain ⟨statements, reads, valid⟩ := accepted.1 ⟨_, read⟩
    exact ⟨statements, reads, valid, built statements _ reads read⟩
  · intro valid
    obtain ⟨g, hg⟩ := (ofDescription_exact "a -> b | EPS b").1.2 valid
    cases refused.symm.trans hg

end Grammar

end TopDown
