import TopDown.Grammar.Basic
import TopDown.Text.Padding
import TopDown.Text.Quoted

/-
  Grammars as text. A grammar is written one rule a line, arrows aligned, and before the rules the
  start symbol unless it is the first nonterminal. A grammar read from a description and written
  out again reads as the same grammar.
-/

namespace TopDown.Grammar

/-- One rule, not aligned. -/
def ruleText (name : String) (alts : List Alternative) : String :=
  name ++ " -> " ++ Alternative.listText alts

/-- The lines of a grammar that has rules. -/
def renderLines (g : Grammar) : List String :=
  let width := Text.widest g.nonterminals
  let start :=
    match g.start with
    | none => []
    | some s => if g.nonterminals.head? = some s then [] else ["%start " ++ s]
  start ++ g.rules.entries.map fun (name, alts) => ruleText (Text.padRight width name) alts

def render (g : Grammar) : String :=
  if g.nonterminals.isEmpty then "" else Text.lines g.renderLines

/-- Start symbol and nonterminals on one line. -/
def summary (g : Grammar) : String :=
  "Grammar(start=" ++ Text.quoteOption g.start ++ ", nonterminals=["
    ++ Text.joined ", " (g.nonterminals.map Text.quote) ++ "])"

/-- The rule of a declared nonterminal as a line. -/
def lineOf (g : Grammar) (name : String) : Except GrammarError String := do
  return ruleText name (← g.declaredAlternatives name)

end TopDown.Grammar
