import TopDown.Grammar.Description.Draft
import TopDown.Grammar.Fresh

/-
  From a draft to a grammar. The left-hand sides are the declared nonterminals; they may be neither
  made-up names nor words for token kinds. A name on a right-hand side is a declared nonterminal,
  else a word for a token kind, else a nonterminal without a rule, which must not be in capitals.

  `Grammar.ofDescription` reads a whole text. Several lines for one nonterminal add up.
-/

namespace TopDown

namespace Description

/-- Words for the empty alternative. -/
def epsilonWords : List String := ["EPSILON", "EPS"]

/-- Does the piece stand for the empty alternative? -/
def Piece.isEpsilon (p : Piece) : Bool :=
  p.kind = .epsilon || (p.kind = .identifier && p.text ∈ epsilonWords)

/-- Does the name begin like a made-up one? -/
def isReserved (name : String) : Bool :=
  FreshName.mark.toList.isPrefixOf name.toList

/-- A left-hand side must be free for use as a nonterminal. -/
def checkName (source : List Char) (name : Piece) : Except Error Unit :=
  if isReserved name.text then .error (.locate source name.place (.reservedName name.text))
  else if (Kind.named? name.text).isSome || name.isEpsilon then
    .error (.locate source name.place (.kindAsName name.text))
  else .ok ()

/-- The symbol that an item of a right-hand side stands for. -/
def readSymbol (source : List Char) (declared : List String) (p : Piece) : Except Error Symbol :=
  match p.kind with
  | .punctuation kind => .ok (.terminal kind)
  | _ =>
    if p.text ∈ declared then .ok (.nonterminal p.text)
    else
      match Kind.named? p.text with
      | some kind => .ok (.terminal kind)
      | none =>
        if Text.isUpperText p.text then .error (.locate source p.place (.unknownKind p.text))
        else .ok (.nonterminal p.text)

/-- An alternative; a piece for the empty alternative stands alone in it. -/
def readAlternative (source : List Char) (declared : List String) (pieces : List Piece) :
    Except Error Alternative :=
  match pieces.find? Piece.isEpsilon with
  | some p =>
    if pieces.length > 1 then .error (.locate source p.place .crowdedEpsilon) else .ok []
  | none => pieces.mapM (readSymbol source declared)

/-- Every alternative of a draft with its nonterminal, in order. -/
def Draft.alternatives (d : Draft) : List (String × List Piece) :=
  d.rules.flatMap fun rule => rule.alts.map fun alt => (rule.name.text, alt)

/-- The names on the left-hand sides. -/
def Draft.declared (d : Draft) : List String :=
  d.rules.map (·.name.text)

/-- The start symbol: the one the text names, or else the first left-hand side. -/
def Draft.startName (d : Draft) : Option String :=
  match d.start with
  | some p => some p.text
  | none => d.declared.head?

/-- The grammar that a draft describes. -/
def Draft.toGrammar (source : List Char) (d : Draft) : Except Error Grammar := do
  d.rules.forM fun rule => checkName source rule.name
  let declared := d.declared
  let alternatives ← d.alternatives.mapM fun (name, pieces) => do
    return (name, ← readAlternative source declared pieces)
  match d.start with
  | some p =>
    if p.text ∉ declared then throw (.locate source p.place (.undeclaredStart p.text))
  | none => pure ()
  return alternatives.foldl (fun g (name, alt) => g.addAlternative name alt)
    (Grammar.new d.startName)

end Description

namespace Grammar

/-- Reads a grammar description without asking whether every nonterminal has a rule. -/
def ofDraftText (text : String) : Except GrammarError Grammar :=
  let source := text.toList
  match Description.Draft.ofText source >>= Description.Draft.toGrammar source with
  | .error e => .error (.malformed e)
  | .ok g => .ok g

/-- Reads a grammar description. The result is frozen. -/
def ofDescription (text : String) (validated : Bool) : Except GrammarError Grammar := do
  let g ← ofDraftText text
  if validated then g.validate
  return g.freeze

end Grammar

end TopDown
