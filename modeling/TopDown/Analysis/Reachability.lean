import TopDown.Analysis.Stable
import TopDown.Grammar.Basic

/-
  Names that can be reached from other names by following links, and the nonterminals that can be
  reached from the start symbol by following references.

  Links are followed in rounds, all new names at once (`reachedFrom`). References are followed one
  name at a time, with a pile of the names that are still to be looked at (`Grammar.search`); a name
  may lie on the pile several times, and the search goes deep before it goes wide.
-/

namespace TopDown

/-- Names reached so far, and those among them whose links have not been followed yet. -/
structure Spread where
  reached : List String
  fresh : List String
  deriving DecidableEq

/-- Follows the links of the fresh names; what is new there is fresh next. -/
def Spread.step (next : String → List String) (s : Spread) : Spread :=
  let more := (s.fresh.flatMap next).eraseDups.filter (· ∉ s.reached)
  ⟨s.reached ++ more, more⟩

/-- The names reached from `seeds` in any number of links, when at most `bound` names exist. -/
def reachedFrom (next : String → List String) (bound : Nat) (seeds : List String) : List String :=
  (stabilize (Spread.step next) (2 * bound + 1) ⟨seeds, seeds⟩).reached

/-- A search under way: the names it has seen, and the pile of names still to be looked at. -/
structure Search where
  seen : List String
  pending : List String
  deriving DecidableEq

namespace Grammar

/-- The nonterminals that the alternatives of `name` refer to. -/
def referencesOf (g : Grammar) (name : String) : List String :=
  (g.alternatives name).flatMap fun alt => alt.filterMap Symbol.name?

/-- The declared nonterminals that `name` refers to and that have not been seen, the last one
first. -/
def unseenFrom (g : Grammar) (seen : List String) (name : String) : List String :=
  ((g.referencesOf name).filter fun other => other ∈ g.nonterminals ∧ other ∉ seen).reverse

/-- Takes a name off the pile. If it has not been seen before, it is seen now, and what it refers to
goes on top. -/
def searchTurn (g : Grammar) (s : Search) : Search :=
  match s.pending with
  | [] => s
  | name :: rest =>
    if name ∈ s.seen then ⟨s.seen, rest⟩
    else
      let seen := name :: s.seen
      ⟨seen, g.unseenFrom seen name ++ rest⟩

/-- The number of declared nonterminals that a search has not seen. -/
def unseenCount (g : Grammar) (s : Search) : Nat :=
  (g.nonterminals.filter (· ∉ s.seen)).length

theorem referencesOf_eq_nil {g : Grammar} {name : String} (h : name ∉ g.nonterminals) :
    g.referencesOf name = [] := by
  have none : g.rules.get? name = none := Catalog.get?_eq_none_iff.2 h
  simp [referencesOf, alternatives, none]

/-- A turn leaves fewer declared names unseen, or else as many and a smaller pile. -/
theorem searchTurn_decreases (g : Grammar) {s : Search} (h : s.pending ≠ []) :
    Prod.Lex (· < ·) (· < ·) (g.unseenCount (g.searchTurn s), (g.searchTurn s).pending.length)
      (g.unseenCount s, s.pending.length) := by
  obtain ⟨seen, pending⟩ := s
  cases pending with
  | nil => exact absurd rfl h
  | cons name rest =>
    by_cases known : name ∈ seen
    · simp only [searchTurn, known, if_true]
      exact Prod.Lex.right _ (Nat.lt_succ_self _)
    · have fewer : g.nonterminals.filter (· ∉ name :: seen)
          = (g.nonterminals.filter (· ∉ seen)).filter (· ≠ name) := by
        rw [List.filter_filter]
        exact List.filter_congr fun other _ => by simp
      simp only [searchTurn, known, if_false, unseenCount]
      rw [fewer]
      by_cases declared : name ∈ g.nonterminals
      · refine Prod.Lex.left _ _ (List.length_filter_lt_length_iff_exists.2 ⟨name, ?_, by simp⟩)
        exact List.mem_filter.2 ⟨declared, by simpa using known⟩
      · -- nothing goes on the pile for a name that is not declared
        have same : (g.nonterminals.filter (· ∉ seen)).filter (· ≠ name)
            = g.nonterminals.filter (· ∉ seen) := by
          rw [List.filter_eq_self]
          intro other hother
          have : other ≠ name := fun hname => declared (hname ▸ (List.mem_filter.1 hother).1)
          simpa using this
        rw [same]
        simp only [unseenFrom, referencesOf_eq_nil declared]
        exact Prod.Lex.right _ (Nat.lt_succ_self _)

/-- Searches until the pile is empty. -/
def search (g : Grammar) (s : Search) : Search :=
  if s.pending = [] then s else g.search (g.searchTurn s)
termination_by (g.unseenCount s, s.pending.length)
decreasing_by exact g.searchTurn_decreases ‹_›

/-- The start symbol is the first name on the pile, if it is declared. -/
def searchStart (g : Grammar) : Search :=
  ⟨[], (g.start.filter fun start => start ∈ g.nonterminals).toList⟩

/-- The declared nonterminals that can be reached from the start symbol, in order. -/
def reachable (g : Grammar) : List String :=
  let seen := (g.search g.searchStart).seen
  g.nonterminals.filter (· ∈ seen)

end Grammar

end TopDown
