import TopDown.Analysis.Lookahead
import TopDown.Text.Padding

/-
  Choosing an alternative by the next token kind alone. An alternative is a candidate on the kinds
  it can begin with and, when it can be left out, on the kinds that follow its nonterminal and at
  the end of input. Of several candidates the first declared one that can begin with the kind is
  chosen; those that merely can be left out come after it. Two candidates make a conflict.
-/

namespace TopDown

/-- What an alternative can begin with, and whether it can be left out. -/
structure Prospect where
  first : KindSet
  nullable : Bool
  deriving DecidableEq

/-- The kinds on which an alternative is a candidate, given what follows its nonterminal. -/
def Prospect.candidates (follow : KindSet) (p : Prospect) : KindSet :=
  if p.nullable then p.first ∪ follow.insert .endOfInput else p.first

/-- Everything a predictive parser looks up. -/
structure DecisionTable where
  lookahead : Lookahead
  rows : Catalog (List Prospect)
  deriving DecidableEq

namespace Grammar

def decisionTable (g : Grammar) : DecisionTable :=
  let lookahead := g.lookahead
  ⟨lookahead, g.rules.map fun _ alts =>
    alts.map fun alt => ⟨lookahead.firstOf alt, lookahead.isNullable alt⟩⟩

end Grammar

namespace DecisionTable

/-- The prospects of the alternatives of a nonterminal, in order. -/
def row (t : DecisionTable) (name : String) : List Prospect :=
  (t.rows.get? name).getD []

/-- What follows a nonterminal. -/
def follow (t : DecisionTable) (name : String) : KindSet :=
  t.lookahead.follow.kinds name

/-- The alternatives of a row that are candidates on a kind, ascending. -/
def candidatesIn (row : List Prospect) (follow : KindSet) (kind : Kind) : List Nat :=
  (row.zipIdx.filter fun (p, _) => kind ∈ p.candidates follow).map Prod.snd

/-- The alternatives of a nonterminal that are candidates on a kind, ascending. -/
def candidates (t : DecisionTable) (name : String) (kind : Kind) : List Nat :=
  candidatesIn (t.row name) (t.follow name) kind

/-- The alternative chosen on a kind. -/
def select (t : DecisionTable) (name : String) (kind : Kind) : Option Nat :=
  let row := t.row name
  match row.findIdx? fun p => kind ∈ p.first with
  | some i => some i
  | none =>
    let follow := t.follow name
    row.findIdx? fun p => kind ∈ p.candidates follow

/-- The kinds on which some alternative is chosen. The end of input counts only where it can follow
the nonterminal. -/
def expected (t : DecisionTable) (name : String) : KindSet :=
  let follow := t.follow name
  (KindSet.unions ((t.row name).map (Prospect.candidates follow))).filter fun kind =>
    kind ≠ .endOfInput || kind ∈ follow

/-- The conflicts, by the order of the nonterminals and then of the spellings. -/
def conflicts (t : DecisionTable) : List Conflict :=
  t.rows.entries.flatMap fun (name, row) =>
    let follow := t.follow name
    Kind.bySpelling.filterMap fun kind =>
      let alts := candidatesIn row follow kind
      if alts.length > 1 then some ⟨name, kind, alts⟩ else none

/-- One line for each conflict. -/
def conflictReport (t : DecisionTable) : String :=
  let conflicts := t.conflicts
  if conflicts.isEmpty then "(no conflicts)" else Text.lines (conflicts.map Conflict.text)

end DecisionTable

/-- The conflicts of a grammar; none when the next kind always decides. -/
def Grammar.conflicts (g : Grammar) : List Conflict :=
  g.decisionTable.conflicts

end TopDown
