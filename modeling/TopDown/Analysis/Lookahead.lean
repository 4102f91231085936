import TopDown.Analysis.Stable
import TopDown.Grammar.Basic

/-
  What a nonterminal can begin with and what can come after it.

  * `nullable`: the nonterminals that derive the empty word;
  * `first`: for each nonterminal, the kinds that a phrase derived from it can begin with;
  * `follow`: for each nonterminal, the kinds that can stand directly after it. The end of input
    is one of them when it can come last in a sentence.

  Each is found by repeating one step until nothing changes. The empty word is in no `first` set;
  `nullable` stands in for it.
-/

namespace TopDown

structure Lookahead where
  nullable : List String
  first : Catalog KindSet
  follow : Catalog KindSet
  deriving DecidableEq

/-- The kinds filed under a name; none when the name is not there. -/
def Catalog.kinds (table : Catalog KindSet) (name : String) : KindSet :=
  (table.get? name).getD ∅

/-! ## Sequences -/

/-- Can the symbol be left out? -/
def Symbol.isNullable (nullable : List String) : Symbol → Bool
  | .terminal _ => false
  | .nonterminal name => name ∈ nullable

/-- Can every symbol of the sequence be left out? -/
def Alternative.isNullable (nullable : List String) (alt : Alternative) : Bool :=
  alt.all (Symbol.isNullable nullable)

/-- The kinds that a phrase derived from the sequence can begin with. -/
def Alternative.first (nullable : List String) (table : Catalog KindSet) : Alternative → KindSet
  | [] => ∅
  | .terminal kind :: _ => KindSet.singleton kind
  | .nonterminal name :: rest =>
    if name ∈ nullable then table.kinds name ∪ Alternative.first nullable table rest
    else table.kinds name

namespace Grammar

/-! ## Nullable nonterminals -/

/-- The nonterminals with an alternative that `known` makes nullable. -/
def nullableStep (g : Grammar) (known : List String) : List String :=
  (g.rules.entries.filter fun (_, alts) => alts.any (Alternative.isNullable known)).map Prod.fst

def nullable (g : Grammar) : List String :=
  stabilize g.nullableStep g.nonterminals.length []

/-! ## First kinds -/

def firstStep (g : Grammar) (nullable : List String) (table : Catalog KindSet) : Catalog KindSet :=
  g.rules.map fun _ alts => KindSet.unions (alts.map (Alternative.first nullable table))

def firstTable (g : Grammar) (nullable : List String) : Catalog KindSet :=
  stabilize (g.firstStep nullable) (19 * g.nonterminals.length) (g.rules.map fun _ _ => ∅)

/-! ## Following kinds -/

/-- An occurrence of a nonterminal: its name, the nonterminal whose alternative it is in, and the
symbols after it there. -/
structure Site where
  name : String
  owner : String
  rest : Alternative

/-- The occurrences in one alternative. -/
def sitesIn (owner : String) : Alternative → List Site
  | [] => []
  | .terminal _ :: rest => sitesIn owner rest
  | .nonterminal name :: rest => ⟨name, owner, rest⟩ :: sitesIn owner rest

def sites (g : Grammar) : List Site :=
  g.productions.flatMap fun (owner, alt) => sitesIn owner alt

/-- The nonterminals that are referred to and not declared. -/
def undeclared (g : Grammar) : List String :=
  g.references.filter (· ∉ g.nonterminals)

/-- The occurrences of every nonterminal: declared ones first, then those only referred to. -/
def siteTable (g : Grammar) : Catalog (List Site) :=
  let sites := g.sites
  Catalog.ofList ((g.nonterminals ++ g.undeclared).map fun name =>
    (name, sites.filter (·.name = name)))

/-- The kinds that follow a nonterminal by what stands after its occurrences, and the end of input
for a declared start symbol. -/
def followSeed (g : Grammar) (nullable : List String) (first : Catalog KindSet) (name : String)
    (sites : List Site) : KindSet :=
  let direct := KindSet.unions (sites.map fun site => site.rest.first nullable first)
  if g.start = some name ∧ name ∈ g.nonterminals then direct.insert .endOfInput else direct

/-- The owners of occurrences that can come last: all that follows such an owner also follows the
nonterminal. -/
def followOwners (nullable : List String) (sites : List Site) : List String :=
  ((sites.filter fun site => site.rest.isNullable nullable).map Site.owner).eraseDups

/-- Adds to what follows a name all that follows its owners. -/
def followStep (owners : Catalog (List String)) (table : Catalog KindSet) : Catalog KindSet :=
  table.map fun name kinds =>
    kinds ∪ KindSet.unions (((owners.get? name).getD []).map table.kinds)

def followTable (g : Grammar) (nullable : List String) (first : Catalog KindSet) :
    Catalog KindSet :=
  let sites := g.siteTable
  let owners := sites.map fun _ here => followOwners nullable here
  stabilize (followStep owners) (19 * sites.names.length)
    (sites.map fun name here => g.followSeed nullable first name here)

def lookahead (g : Grammar) : Lookahead :=
  let nullable := g.nullable
  let first := g.firstTable nullable
  ⟨nullable, first, g.followTable nullable first⟩

end Grammar

namespace Lookahead

/-- The first kinds of a sequence of symbols. -/
def firstOf (l : Lookahead) (symbols : List Symbol) : KindSet :=
  Alternative.first l.nullable l.first symbols

/-- Can the whole sequence be left out? -/
def isNullable (l : Lookahead) (symbols : List Symbol) : Bool :=
  Alternative.isNullable l.nullable symbols

end Lookahead

end TopDown
