import TopDown.Proofs.Elimination

/-
  Removing left recursion fails for want of a base only at a nonterminal that derives nothing.

  The pass gives up at a nonterminal all of whose alternatives begin with it once earlier
  nonterminals have been spliced away. Such alternatives derive no word: the words of a leftmost
  derivation would have to come from a shorter one of the same kind
  (`notMem_language_of_startsWith`). The steps before, and the splicing, keep its language, cuts
  included, so it derives no word in the given grammar either.

  `eliminateBelow_refused` takes the failure apart: a run that ends in it has come to the
  nonterminal with whatever its steps keep.
-/

namespace TopDown.Grammar

variable {g : Grammar} {name other : String} {alts : List Alternative} {earlier : List String}
  {ceiling : Nat}

/-! ## Where the pass gives up -/

theorem validate_ne_unfixable : g.validate ≠ .error (.unfixable name) := by
  unfold validate
  split
  · nofun
  · split
    · nofun
    · split
      · nofun
      · nofun

theorem expandedAlternatives_ne_unfixable :
    g.expandedAlternatives ceiling earlier name ≠ .error (.unfixable other) := by
  unfold expandedAlternatives
  split
  · nofun
  · nofun

/-- Moving recursion into a tail fails only where all alternatives are recursive, and there are
some. -/
theorem splitRecursion_eq_unfixable
    (h : (g.splitRecursion name alts).outcome = .error (.unfixable other)) :
    other = name ∧ ∀ alt ∈ alts, Alternative.startsWith name alt = true := by
  unfold splitRecursion at h
  rw [List.partition_eq_filter_filter] at h
  dsimp only at h
  split at h
  · cases h
  · split at h
    · next none =>
      cases h
      refine ⟨rfl, fun alt halt => ?_⟩
      simpa using List.filter_eq_nil_iff.1 none alt halt
    · split at h
      · cases h
      · cases h

/-- A run that fails for want of a base fails at that nonterminal, and what dealing with one
nonterminal after the other keeps holds there. -/
theorem eliminateBelow_refused {P : Grammar → List String → Prop} (start : P g.thaw [])
    (step : ∀ {G G' : Grammar} {earlier later : List String} {name : String}
      {alts : List Alternative}, earlier ++ name :: later = g.nonterminals → P G earlier →
      G.expandedAlternatives ceiling earlier name = .ok alts →
      (G.splitRecursion name alts).outcome = .ok G' → P G' (earlier ++ [name]))
    (h : (g.eliminateBelow ceiling).outcome = .error (.unfixable name)) :
    ∃ G earlier later alts, earlier ++ name :: later = g.nonterminals ∧ P G earlier ∧
      G.expandedAlternatives ceiling earlier name = .ok alts ∧
      ∀ alt ∈ alts, Alternative.startsWith name alt = true := by
  have run : ∀ (order : List String) (G : Grammar) (earlier : List String),
      earlier ++ order = g.nonterminals → P G earlier →
      (order.foldlM (eliminateIn ceiling) (G, earlier)).outcome = .error (.unfixable name) →
      ∃ G earlier later alts, earlier ++ name :: later = g.nonterminals ∧ P G earlier ∧
        G.expandedAlternatives ceiling earlier name = .ok alts ∧
        ∀ alt ∈ alts, Alternative.startsWith name alt = true := by
    intro order
    induction order with
    | nil =>
      intro G earlier _ _ failed
      cases failed
    | cons next rest ih =>
      intro G earlier whole so_far failed
      rw [List.foldlM_cons] at failed
      rcases Traced.outcome_bind_eq_error.1 failed with here | ⟨state, dealt, failed⟩
      · rcases Traced.outcome_bind_eq_error.1 here with endless | ⟨alts, expanded, here⟩
        · exact absurd endless expandedAlternatives_ne_unfixable
        · rcases Traced.outcome_bind_eq_error.1 here with refused | ⟨_, -, here⟩
          · obtain ⟨rfl, recursive⟩ := splitRecursion_eq_unfixable refused
            exact ⟨G, earlier, rest, alts, whole, so_far, expanded, recursive⟩
          · cases here
      · obtain ⟨alts, expanded, dealt⟩ := Traced.outcome_bind_eq_ok.1 dealt
        obtain ⟨G', split, dealt⟩ := Traced.outcome_bind_eq_ok.1 dealt
        cases dealt
        refine ih G' (earlier ++ [next]) ?_ (step whole so_far expanded split) failed
        rw [List.append_assoc]
        exact whole
  unfold eliminateBelow at h
  rcases Traced.outcome_bind_eq_error.1 h with invalid | ⟨_, -, h⟩
  · exact absurd invalid validate_ne_unfixable
  · rcases Traced.outcome_bind_eq_error.1 h with failed | ⟨_, -, h⟩
    · exact run g.nonterminals g.thaw [] rfl start failed
    · cases h

/-! ## What it gives up on -/

/-- A nonterminal all of whose alternatives begin with itself derives no word. -/
theorem notMem_language_of_startsWith
    (recursive : ∀ alt ∈ g.alternatives name, Alternative.startsWith name alt = true)
    (w : List Kind) : w ∉ g.language name := by
  intro derived
  refine language_induction (P := fun _ => False) ?_ derived
  -- a word of an alternative begins with a word of the nonterminal, and there is none
  intro alt halt w hw
  obtain ⟨rest, rfl⟩ := Alternative.startsWith_iff.1 (recursive alt halt)
  rw [Alternative.language_cons] at hw
  obtain ⟨u, hu, -⟩ := Language.mem_mul.1 hw
  rw [Symbol.language, languageWith_self] at hu
  exact hu.2

/-- Removing left recursion is refused with good reason, whatever the nesting ceiling. A nonterminal
whose recursion is said to be unfixable is declared and derives no word in the given grammar. So a
grammar in which every nonterminal derives some word is not refused in this way. -/
theorem eliminateBelow_unfixable (ceiling : Nat) (g : Grammar) :
    (∀ name, (g.eliminateBelow ceiling).outcome = .error (.unfixable name) →
      name ∈ g.nonterminals ∧
        ∀ w : List Kind, ¬ g.Derives [.nonterminal name] (w.map .terminal)) ∧
    ((∀ name ∈ g.nonterminals,
        ∃ w : List Kind, g.Derives [.nonterminal name] (w.map .terminal)) →
      ∀ name, (g.eliminateBelow ceiling).outcome ≠ .error (.unfixable name)) := by
  have empty : ∀ name, (g.eliminateBelow ceiling).outcome = .error (.unfixable name) →
      name ∈ g.nonterminals ∧
        ∀ w : List Kind, ¬ g.Derives [.nonterminal name] (w.map .terminal) := by
    intro name refused
    obtain ⟨G, earlier, later, alts, order, so_far, expanded, recursive⟩ :=
      eliminateBelow_refused (P := fun G _ => g.Conservative G) (.thaw g)
        (fun order so_far expanded split => so_far.eliminate order expanded split) refused
    obtain ⟨declared, unmet⟩ := mem_nonterminals_of_order order
    have spliced := so_far.trans (conservative_expanded expanded unmet)
    refine ⟨declared, fun w derived => ?_⟩
    have word : w ∈ (G.setRule name alts).language name := by
      rw [spliced.language name declared]
      exact derived
    refine notMem_language_of_startsWith ?_ w word
    rwa [alternatives_setRule_self]
  refine ⟨empty, fun productive name refused => ?_⟩
  obtain ⟨declared, none⟩ := empty name refused
  obtain ⟨w, derived⟩ := productive name declared
  exact none w derived

/-- Two rules that lead into each other and nowhere else, and one that need not use them. -/
def circling : Grammar :=
  assemble (some "s")
    [("x", [[.nonterminal "y", .terminal .semicolon]]),
     ("y", [[.nonterminal "x", .terminal .comma], [.nonterminal "x", .nonterminal "s"]]),
     ("s", [[.terminal .integer], [.nonterminal "x"]])] []

/-- `circling` with a way out. -/
def leaving : Grammar :=
  assemble (some "s")
    [("x", [[.nonterminal "y", .terminal .semicolon]]),
     ("y", [[.nonterminal "x", .terminal .comma], [.terminal .integer]]),
     ("s", [[.terminal .integer], [.nonterminal "x"]])] []

theorem eliminateBelow_unfixable_circling :
    circling.eliminateLeftRecursion.outcome = .error (.unfixable "y") ∧
      (∀ w : List Kind, ¬ circling.Derives [.nonterminal "y"] (w.map .terminal)) ∧
      (∀ name ∈ leaving.nonterminals,
        ∃ w : List Kind, leaving.Derives [.nonterminal name] (w.map .terminal)) ∧
      ∀ name, leaving.eliminateLeftRecursion.outcome ≠ .error (.unfixable name) := by
  have refused : (circling.eliminateBelow expansionCeiling).outcome = .error (.unfixable "y") := by
    rfl
  have productive : ∀ name ∈ leaving.nonterminals,
      ∃ w : List Kind, leaving.Derives [.nonterminal name] (w.map .terminal) := by
    have y : leaving.Derives [.nonterminal "y"] ([.integer].map .terminal) :=
      derives_of_alternative (show [.terminal .integer] ∈ _ by decide) .refl
    have x : leaving.Derives [.nonterminal "x"] ([.integer, .semicolon].map .terminal) :=
      derives_of_alternative (show [.nonterminal "y", .terminal .semicolon] ∈ _ by decide)
        (y.append .refl)
    have s : leaving.Derives [.nonterminal "s"] ([.integer].map .terminal) :=
      derives_of_alternative (show [.terminal .integer] ∈ _ by decide) .refl
    have names : leaving.nonterminals = ["x", "y", "s"] := by rfl
    intro name declared
    rw [names] at declared
    fin_cases declared
    · exact ⟨_, x⟩
    · exact ⟨_, y⟩
    · exact ⟨_, s⟩
  refine ⟨refused, ?_, productive, ?_⟩
  · exact ((eliminateBelow_unfixable expansionCeiling circling).1 "y" refused).2
  · exact (eliminateBelow_unfixable expansionCeiling leaving).2 productive

end TopDown.Grammar
