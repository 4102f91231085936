import TopDown.Grammar.Printer

/-
  Transformations that report what they do. A traced value is an outcome, a grammar error or a
  value, together with the events on the way to it. Events of a transformation that fails are kept.
  Nothing in an outcome depends on events.
-/

namespace TopDown

/-- What a transformation may report. -/
inductive Event where
  | selfLoopDropped (name : String)
  | recursionSplit (name tail : String) (alts : List Alternative)
  | recursionEliminated (before after : Nat)
  | factored (name : String) (common : Alternative) (tail : String) (alts : List Alternative)
  | roundEnded (round conflicts : Nat)
  /-- An expansion was undone because left recursion stood in its way. -/
  | expansionUnfixable (error : GrammarError)
  /-- An expansion was undone because the grammar grew past the limit. -/
  | expansionTooLarge (limit : Int)
  deriving DecidableEq

def Event.text : Event → String
  | selfLoopDropped name => "dropping trivial self-loop " ++ name ++ " -> " ++ name
  | recursionSplit name tail alts =>
    "direct left recursion on " ++ name ++ ": tail " ++ Grammar.ruleText tail alts
  | recursionEliminated before after =>
    "left recursion eliminated: " ++ toString before ++ " -> " ++ toString after ++ " nonterminals"
  | factored name common tail alts =>
    "factor " ++ name ++ ": " ++ Alternative.text common ++ " " ++ Grammar.ruleText tail alts
  | roundEnded round conflicts =>
    "factoring round " ++ toString round ++ ": " ++ toString conflicts ++ " conflict(s)"
  | expansionUnfixable error => "expansion abandoned: " ++ error.message
  | expansionTooLarge limit =>
    "expansion abandoned: grammar grew past " ++ toString limit ++ " symbols"

structure Traced (α : Type) where
  outcome : Except GrammarError α
  events : List Event

namespace Traced

variable {α β : Type}

def pure (a : α) : Traced α := ⟨.ok a, []⟩

def bind (x : Traced α) (f : α → Traced β) : Traced β :=
  match x.outcome with
  | .error e => ⟨.error e, x.events⟩
  | .ok a =>
    let y := f a
    ⟨y.outcome, x.events ++ y.events⟩

instance : Monad Traced where
  pure := pure
  bind := bind

/-- Reports an event. -/
def note (event : Event) : Traced Unit := ⟨.ok (), [event]⟩

def fail (error : GrammarError) : Traced α := ⟨.error error, []⟩

/-- An outcome without events. -/
def lift (outcome : Except GrammarError α) : Traced α := ⟨outcome, []⟩

/-- Hands an error on as a value, so that the caller can deal with it. -/
def attempt (x : Traced α) : Traced (Except GrammarError α) := ⟨.ok x.outcome, x.events⟩

@[simp] theorem outcome_pure (a : α) : (Pure.pure a : Traced α).outcome = .ok a := rfl

@[simp] theorem outcome_bind (x : Traced α) (f : α → Traced β) :
    (x >>= f).outcome = x.outcome >>= fun a => (f a).outcome := by
  show (bind x f).outcome = _
  unfold bind
  cases x.outcome <;> rfl

theorem outcome_bind_eq_ok {x : Traced α} {f : α → Traced β} {b : β} :
    (x >>= f).outcome = .ok b ↔ ∃ a, x.outcome = .ok a ∧ (f a).outcome = .ok b := by
  rw [outcome_bind]
  cases x.outcome with
  | error e =>
    constructor
    · intro h
      cases h
    · rintro ⟨a, ha, -⟩
      cases ha
  | ok a =>
    constructor
    · exact fun h => ⟨a, rfl, h⟩
    · rintro ⟨a', ha, h⟩
      cases ha
      exact h

theorem outcome_bind_eq_error {x : Traced α} {f : α → Traced β} {e : GrammarError} :
    (x >>= f).outcome = .error e ↔
      x.outcome = .error e ∨ ∃ a, x.outcome = .ok a ∧ (f a).outcome = .error e := by
  rw [outcome_bind]
  cases x.outcome with
  | error first =>
    constructor
    · intro h
      cases h
      exact Or.inl rfl
    · rintro (h | ⟨a, ha, -⟩)
      · cases h
        rfl
      · cases ha
  | ok a =>
    constructor
    · exact fun h => Or.inr ⟨a, rfl, h⟩
    · rintro (h | ⟨a', ha, h⟩)
      · cases h
      · cases ha
        exact h

end Traced

end TopDown
