import TopDown.Analysis.Lookahead
import TopDown.Analysis.Reachability

/-
  Left recursion: a nonterminal from which one can derive, in one or more steps, something that
  begins with the nonterminal itself, possibly after symbols that derive the empty word.
-/

namespace TopDown

/-- The nonterminals that can come first in a sequence: each one up to and including the first
symbol that cannot be left out. -/
def Alternative.leaders (nullable : List String) : Alternative → List String
  | .nonterminal name :: rest =>
    if name ∈ nullable then name :: Alternative.leaders nullable rest else [name]
  | _ => []

namespace Grammar

/-- For each nonterminal, those that can come first in one of its alternatives. -/
def leaderTable (g : Grammar) (nullable : List String) : Catalog (List String) :=
  g.rules.map fun _ alts => (alts.flatMap (Alternative.leaders nullable)).eraseDups

/-- The left-recursive nonterminals, in order. -/
def leftRecursive (g : Grammar) : List String :=
  let table := g.leaderTable g.nullable
  let leaders := fun name => (table.get? name).getD []
  let bound := g.nonterminals.length + g.references.length
  g.nonterminals.filter fun name => name ∈ reachedFrom leaders bound (leaders name)

/-- The nonterminals with an alternative that begins with the nonterminal itself, in order. -/
def directlyLeftRecursive (g : Grammar) : List String :=
  (g.rules.entries.filter fun (name, alts) => alts.any (Alternative.startsWith name)).map Prod.fst

end Grammar

end TopDown
