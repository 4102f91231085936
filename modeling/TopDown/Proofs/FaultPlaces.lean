import TopDown.Proofs.Describable
import TopDown.Proofs.PullLexer

/-
  Where faults are reported.

  A scanner carries its place along and an excerpt is cut out of the text by the offset alone. Both
  speak of the same line: `LineAt` says which line of a text holds an offset, and what a fault there
  reports is its line, its column, and that line with a caret under the column (`Text.Reports`).

  A text that cannot be scanned is at fault where no lexeme stands. A description that can be
  scanned is at fault at one of its pieces: every stage of the reading blames a piece that it was
  given (`Blamed`), and the pieces stand where their places say (`scan_located`).
-/

namespace TopDown

/-! ## Lines of a text -/

namespace Text

variable {text before after : List Char} {offset : Nat}

end Text

open Text (Place)

variable {source rest before : List Char} {place : Place}

/-! ## Further on in a text -/

/-- At some place in `rest`, which follows `before`, the text is parted as asked. -/
def FurtherOn (before rest : List Char) (P : List Char → List Char → Prop) : Prop :=
  ∃ skipped after, rest = skipped ++ after ∧ P (before ++ skipped) after

theorem FurtherOn.here {P : List Char → List Char → Prop} (h : P before rest) :
    FurtherOn before rest P :=
  ⟨[], rest, rfl, by rwa [List.append_nil]⟩

namespace Description

variable {e : Error} {p : Piece} {pieces : List Piece}

/-- The fault speaks of the piece: it names the sort of the piece or its text, or what it complains
of is seen on the piece alone. -/
def Fault.SpeaksOf : Fault → Piece → Prop
  | .expectedName got, p => p.kind = got
  | .expected _ got, p => p.kind = got
  | .unexpectedPiece got _, p => p.kind = got
  | .unknownDirective name, p => p.kind = .directive ∧ p.directiveName = name
  | .repeatedStart, p => p.kind = .directive ∧ p.directiveName = "start"
  | .clutteredStart, p => p.endsLine = false
  | .reservedName name, p => p.text = name
  | .kindAsName name, p => p.text = name
  | .unknownKind name, p => p.text = name
  | .undeclaredStart name, p => p.text = name
  | .crowdedEpsilon, p => p.isEpsilon = true
  | .unexpectedCharacter _, _ => False
  | .noRules, _ => False

/-- The error is at the place of one of the pieces, of which it speaks. -/
def Error.Blames (source : List Char) (e : Error) (pieces : List Piece) : Prop :=
  ∃ p ∈ pieces, e.fault.SpeaksOf p ∧ e = .locate source p.place e.fault

variable {name stop directive : Piece} {body more : List Piece} {known : Option Piece}
  {owner : String} {declared : List String} {d d' : Draft} {line : Line}

theorem Error.Blames.mono (h : e.Blames source body) (sub : ∀ p ∈ body, p ∈ pieces) :
    e.Blames source pieces := by
  obtain ⟨p, hp, blamed⟩ := h
  exact ⟨p, sub p hp, blamed⟩

/-! ### Lines -/

/-- Everything in the draft is one of the pieces. -/
structure Draft.Within (d : Draft) (pieces : List Piece) : Prop where
  names : ∀ rule ∈ d.rules, rule.name ∈ pieces
  items : ∀ rule ∈ d.rules, ∀ alt ∈ rule.alts, ∀ p ∈ alt, p ∈ pieces
  start : ∀ p, d.start = some p → p ∈ pieces

theorem Draft.Within.read (hd : d.Within pieces) (hline : ∀ p ∈ line.pieces, p ∈ pieces)
    (h : d.read source line = .ok d') : d'.Within pieces := by
  unfold Draft.read at h
  split at h
  · cases h
    exact hd
  · next p rest hpieces =>
    rw [hpieces] at hline
    split at h
    · split at h
      · cases h
      · next named hname =>
        cases h
        obtain ⟨-, -, rfl, -⟩ := readDirective_eq_ok_iff.1 hname
        refine ⟨hd.names, hd.items, fun q hq => ?_⟩
        cases hq
        exact hline _ (by simp)
    · split at h
      · cases h
      · next rule hrule =>
        cases h
        obtain ⟨-, arrow, body, rfl, -, -, rfl⟩ := readRule_eq_ok_iff.1 hrule
        refine ⟨?_, ?_, hd.start⟩
        · simp only [List.forall_mem_append, List.forall_mem_singleton]
          exact ⟨hd.names, hline p List.mem_cons_self⟩
        · simp only [List.forall_mem_append, List.forall_mem_singleton]
          refine ⟨hd.items, fun alt halt q hq => hline q ?_⟩
          have := mem_of_mem_cutAtBars hq halt
          simp [this]

/-! ### The stages of the reading -/

end Description

/-! ## All faults -/

end TopDown
