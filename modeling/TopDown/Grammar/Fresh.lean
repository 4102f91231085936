import TopDown.Grammar.Basic

/-
  Made-up names. They begin with two underscores, which no name in a grammar description does,
  followed by a tag for their purpose and a number. Numbers go up for the whole life of a grammar:
  the next name takes the least number above the counter whose name nobody uses. A counter may start
  at any integer; that of a grammar starts at zero.
-/

namespace TopDown

namespace FreshName

/-- What every made-up name begins with. -/
def mark : String := "__"

def spell (tag : String) (n : Int) : String :=
  mark ++ tag ++ toString n

/-- The least number from `n` on whose name is not taken, looking at `tries` numbers. -/
def firstFree (tag : String) (taken : List String) : Nat → Int → Int
  | 0, n => n
  | tries + 1, n => if spell tag n ∈ taken then firstFree tag taken tries (n + 1) else n

/-- The number of the next name. Among one number more than there are names taken, one is free. -/
def next (counter : Int) (tag : String) (taken : List String) : Int :=
  firstFree tag taken taken.length (counter + 1)

/-- The next name, and the counter after it. -/
def draw (counter : Int) (tag : String) (taken : List String) : String × Int :=
  let n := next counter tag taken
  (spell tag n, n)

end FreshName

namespace Grammar

/-- The next unused name with a given tag, and the grammar with its counter moved. -/
def nextName (g : Grammar) (tag : String) (taken : List String) : String × Grammar :=
  let (name, n) := FreshName.draw g.counter tag taken
  (name, { g with counter := n.toNat })

/-- Names that a made-up name must avoid. -/
def usedNames (g : Grammar) : List String :=
  g.nonterminals ++ g.occurrences.map Prod.snd

/-- Makes up a nonterminal, without alternatives yet, and records its origin. -/
def synthesize (g : Grammar) (tag : String) (origin : Origin) : String × Grammar :=
  let (name, g) := g.nextName tag g.usedNames
  (name, { g with rules := g.rules.set name [], origins := g.origins.set name origin })

/-- A nonterminal for the repetition split off `owner`. -/
def recursionTail (g : Grammar) (owner : String) : String × Grammar :=
  g.synthesize "lr" ⟨.leftRecursion, owner⟩

/-- A nonterminal for what follows a common beginning of alternatives of `owner`. -/
def factorTail (g : Grammar) (owner : String) : String × Grammar :=
  g.synthesize "lf" ⟨.factor, owner⟩

/-- Makes up a nonterminal for a purpose, in a grammar that may be changed. -/
def fresh (g : Grammar) (sort : Origin.Sort) (owner : String) :
    Except GrammarError (String × Grammar) := do
  let g ← g.unfrozen
  match sort with
  | .leftRecursion => return g.recursionTail owner
  | .factor => return g.factorTail owner
  | .other label => throw (.unknownOrigin label)

end Grammar

end TopDown
