import TopDown.Grammar.Basic

/-
  Grammars from lists of items. An item is a grammar symbol, or something that cannot be one.
-/

namespace TopDown

inductive Item where
  | symbol (s : Symbol)
  /-- Not a symbol; `shown` is how messages write it. -/
  | unusable (shown : String)

def Item.toSymbol : Item → Except GrammarError Symbol
  | symbol s => .ok s
  | unusable shown => .error (.unusableSymbol shown)

namespace Grammar

/-- A frozen grammar with the given start symbol and rules. Of two rules for one name the later
one counts, in the place of the earlier. -/
def build (start : Option String) (rules : List (String × List (List Item))) :
    Except GrammarError Grammar := do
  let entries ← (Catalog.ofList rules).entries.mapM fun (name, alts) => do
    return (name, ← alts.mapM fun alt => alt.mapM Item.toSymbol)
  let g := entries.foldl (fun g (name, alts) => g.setRule name alts) (new start)
  g.validate
  return g.freeze

/-- A frozen grammar put together as it stands, without any check. -/
def assemble (start : Option String) (rules : List (String × List Alternative))
    (origins : List (String × Origin)) : Grammar :=
  let g := { new start with rules := Catalog.ofList rules, origins := Catalog.ofList origins }
  g.freeze

end Grammar

end TopDown
