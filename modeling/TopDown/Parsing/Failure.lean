import TopDown.Text.Quoted
import TopDown.Token.Basic
import TopDown.Token.KindSet

/-
  Why a parse has no tree. A rejection says where the tokens leave the language and which kinds
  could have come there; an exhaustion says that the search was cut off, and nothing about the
  language.
-/

namespace TopDown

/-- A limit that was passed. -/
inductive Exhaustion where
  | steps (limit pos : Nat)
  | depth (limit pos : Nat)
  /-- Nesting beyond what any parse is given room for. -/
  | nesting
  deriving DecidableEq

inductive ParseFailure where
  | unexpectedToken (pos : Nat) (token : Token) (expected : KindSet)
  | unexpectedEnd (pos : Nat) (expected : KindSet)
  | exhausted (limit : Exhaustion)
  /-- A rule asks for the end of input as if it were a token, and there is none left to take. -/
  | endTaken
  deriving DecidableEq

def Exhaustion.message : Exhaustion → String
  | steps limit pos => "step limit (" ++ toString limit ++ ") exceeded at token #" ++ toString pos
  | depth limit pos => "depth limit (" ++ toString limit ++ ") exceeded at token #" ++ toString pos
  | nesting => "recursion limit exceeded"

namespace ParseFailure

/-- The failure at a position of a token list, given what was expected there. -/
def atPosition (tokens : Array Token) (pos : Nat) (expected : KindSet) : ParseFailure :=
  match tokens[pos]? with
  | some token => .unexpectedToken pos token expected
  | none => .unexpectedEnd pos expected

/-- The kinds that could have come, when there are any. -/
def expectation (expected : KindSet) : String :=
  if expected = ∅ then "" else ", expected one of " ++ expected.text

def message : ParseFailure → String
  | unexpectedToken pos token expected =>
    let place := if token.place.line = 0 then "" else " at " ++ token.place.label
    "unexpected " ++ token.kind.spelling ++ " " ++ Text.quoteOption token.text ++ place
      ++ " (token #" ++ toString pos ++ ")" ++ expectation expected
  | unexpectedEnd _ expected => "unexpected end of input" ++ expectation expected
  | exhausted limit => limit.message
  | endTaken => "list index out of range"

/-- Does the failure say that the tokens are not in the language? -/
def isRejection : ParseFailure → Bool
  | unexpectedToken .. => true
  | unexpectedEnd .. => true
  | exhausted _ => false
  | endTaken => false

end ParseFailure

/-- Turns the result of a parse into a yes or no; a parse that was cut off stays an error. -/
def accepted {α : Type} : Except ParseFailure α → Except ParseFailure Bool
  | .ok _ => .ok true
  | .error failure => if failure.isRejection then .ok false else .error failure

/-- A parse that gives an answer was not cut off. -/
theorem ne_exhausted_of_accepted {α : Type} {r : Except ParseFailure α} {answer : Bool}
    (h : accepted r = .ok answer) (limit : Exhaustion) : r ≠ .error (.exhausted limit) := by
  rintro rfl
  cases h

theorem exists_ok_of_accepted {α : Type} {r : Except ParseFailure α}
    (h : accepted r = .ok true) : ∃ value, r = .ok value := by
  cases r with
  | ok value => exact ⟨value, rfl⟩
  | error failure =>
    rw [accepted] at h
    split at h
    · cases h
    · cases h

theorem exists_error_of_accepted {α : Type} {r : Except ParseFailure α}
    (h : accepted r = .ok false) : ∃ failure, r = .error failure ∧ failure.isRejection = true := by
  cases r with
  | ok value => cases h
  | error failure =>
    rw [accepted] at h
    split at h
    · next rejection => exact ⟨failure, rfl, rejection⟩
    · cases h

/-- A parse that is neither cut off nor asks for the end of input as a token answers whether `P`
holds, if it finds a tree exactly when it does. -/
theorem exists_accepted {α : Type} {r : Except ParseFailure α} {P : Prop}
    (uncut : ∀ limit, r ≠ .error (.exhausted limit)) (untaken : r ≠ .error .endTaken)
    (sound : ∀ value, r = .ok value → P) (complete : P → ∃ value, r = .ok value) :
    ∃ answer, accepted r = .ok answer ∧ (answer = true ↔ P) := by
  cases r with
  | ok value => exact ⟨true, rfl, fun _ => sound value rfl, fun _ => rfl⟩
  | error failure =>
    have refused : ¬ P := by
      intro hP
      obtain ⟨value, h⟩ := complete hP
      cases h
    have rejection : failure.isRejection = true := by
      cases failure with
      | unexpectedToken pos token expected => rfl
      | unexpectedEnd pos expected => rfl
      | exhausted limit => exact absurd rfl (uncut limit)
      | endTaken => exact absurd rfl untaken
    refine ⟨false, ?_, ?_⟩
    · rw [accepted, if_pos rejection]
    · exact iff_of_false Bool.false_ne_true refused

end TopDown
