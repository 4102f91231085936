import TopDown.Catalog
import TopDown.Grammar.Error
import TopDown.Grammar.Symbol
import TopDown.Token.KindSet

/-
  Grammars: ordered rules, a start symbol, and a record of the nonterminals that were made up
  along the way. The order of the rules is the order in which their nonterminals were declared;
  made-up nonterminals come last, in the order of their making.

  A nonterminal that no rule declares has no alternatives. `validate` accepts a grammar in which
  the start symbol and everything referred to have some.
-/

namespace TopDown

/-- What a made-up nonterminal is for. -/
inductive Origin.Sort where
  /-- The repetition split off a directly left-recursive nonterminal. -/
  | leftRecursion
  /-- What is left of several alternatives after their common beginning. -/
  | factor
  /-- A sort that no transformation of this library makes. -/
  | other (label : String)
  deriving DecidableEq

def Origin.Sort.label : Origin.Sort → String
  | leftRecursion => "left_recursion"
  | factor => "factor"
  | other label => label

def Origin.Sort.ofLabel (label : String) : Origin.Sort :=
  if label = "left_recursion" then leftRecursion
  else if label = "factor" then factor
  else other label

/-- Where a made-up nonterminal comes from: its purpose and the nonterminal it was split from. -/
structure Origin where
  sort : Origin.Sort
  owner : String
  deriving DecidableEq

structure Grammar where
  start : Option String
  rules : Catalog (List Alternative)
  origins : Catalog Origin
  /-- The number in the last name that was made up. -/
  counter : Nat
  frozen : Bool
  deriving DecidableEq

namespace Grammar

/-- A grammar without rules. -/
def new (start : Option String) : Grammar :=
  ⟨start, ∅, ∅, 0, false⟩

/-! ## Questions -/

/-- The declared nonterminals, in order. -/
def nonterminals (g : Grammar) : List String :=
  g.rules.names

/-- The alternatives of a nonterminal; none when it is not declared. -/
def alternatives (g : Grammar) (name : String) : List Alternative :=
  (g.rules.get? name).getD []

/-- The alternatives of a declared nonterminal. -/
def declaredAlternatives (g : Grammar) (name : String) : Except GrammarError (List Alternative) :=
  match g.rules.get? name with
  | some alts => .ok alts
  | none => .error (.undefined name none)

/-- Every alternative with its nonterminal, in order. -/
def productions (g : Grammar) : List (String × Alternative) :=
  g.rules.entries.flatMap fun (name, alts) => alts.map fun alt => (name, alt)

/-- The kinds used as terminals. -/
def terminals (g : Grammar) : KindSet :=
  KindSet.ofList (g.productions.flatMap fun (_, alt) => alt.filterMap Symbol.kind?)

/-- Every occurrence of a nonterminal in an alternative, after the nonterminal whose alternative
it is. -/
def occurrences (g : Grammar) : List (String × String) :=
  g.productions.flatMap fun (user, alt) => (alt.filterMap Symbol.name?).map fun name => (user, name)

/-- The nonterminals that alternatives refer to, declared or not. -/
def references (g : Grammar) : List String :=
  (g.occurrences.map Prod.snd).eraseDups

/-- Was the nonterminal made up by factoring? Its subtree belongs to the node above it. -/
def isFactorTail (g : Grammar) (name : String) : Bool :=
  (g.origins.get? name).any fun origin => origin.sort == .factor

/-- The number of symbols and alternatives. -/
def size (g : Grammar) : Nat :=
  g.productions.foldr (fun (_, alt) total => alt.length + 1 + total) 0

/-- The start symbol and every nonterminal referred to need an alternative. -/
def validate (g : Grammar) : Except GrammarError Unit :=
  match g.start with
  | none => .error .noStart
  | some start =>
    if g.alternatives start = [] then .error (.undefined start none)
    else
      match g.occurrences.find? fun (_, name) => g.alternatives name = [] with
      | some (user, name) => .error (.undefined name (some user))
      | none => .ok ()

/-! ## Changes -/

def freeze (g : Grammar) : Grammar := { g with frozen := true }

/-- A copy that may be changed. -/
def thaw (g : Grammar) : Grammar := { g with frozen := false }

/-- Gives a nonterminal its alternatives; a new nonterminal comes last. -/
def setRule (g : Grammar) (name : String) (alts : List Alternative) : Grammar :=
  { g with rules := g.rules.set name alts }

def addAlternative (g : Grammar) (name : String) (alt : Alternative) : Grammar :=
  g.setRule name (g.alternatives name ++ [alt])

/-- The grammar itself, unless it is frozen. -/
def unfrozen (g : Grammar) : Except GrammarError Grammar :=
  if g.frozen then .error .frozen else .ok g

end Grammar

end TopDown
