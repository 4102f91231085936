import TopDown.Grammar.Symbol
import TopDown.Text.Padding
import TopDown.Text.Quoted
import TopDown.Token.Basic

/-
  Derivation trees. A leaf is a token; a node is a nonterminal with the trees of one of its
  alternatives below it. `shape` forgets the tokens and keeps the names.
-/

namespace TopDown

inductive Tree where
  | leaf (token : Token)
  | node (name : String) (children : List Tree)

namespace Tree

/-- The symbol at the root. -/
def symbol : Tree → Symbol
  | leaf token => .terminal token.kind
  | node name _ => .nonterminal name

/-- The name of the root as it is shown. -/
def label (t : Tree) : String :=
  t.symbol.text

def children : Tree → List Tree
  | leaf _ => []
  | node _ children => children

/-! ## Leaves -/

mutual

/-- The tokens at the leaves, from left to right. -/
def leaves : Tree → List Token
  | leaf token => [token]
  | node _ children => leavesOf children

/-- The tokens at the leaves of several trees. -/
def leavesOf : List Tree → List Token
  | [] => []
  | t :: rest => t.leaves ++ leavesOf rest

end

theorem sizeOf_append (ts us : List Tree) : sizeOf (ts ++ us) + 1 = sizeOf ts + sizeOf us := by
  induction ts with
  | nil =>
    simp
    omega
  | cons t ts ih =>
    simp
    omega

/-- Adds the tokens at the leaves of trees to those found so far. The trees are a stack: a node
that is taken from it leaves its children there. -/
def collect (found : List Token) : List Tree → List Token
  | [] => found
  | leaf token :: stack => collect (found ++ [token]) stack
  | node _ children :: stack => collect found (children ++ stack)
termination_by stack => sizeOf stack
decreasing_by
  · rw [List.cons.sizeOf_spec]
    omega
  · have := sizeOf_append children stack
    rw [List.cons.sizeOf_spec, node.sizeOf_spec]
    omega

/-- The tokens at the leaves, found one after the other. -/
def tokens (t : Tree) : List Token :=
  collect [] [t]

/-! ## Shapes -/

/-- The names in a tree. -/
inductive Shape where
  | mk (label : String) (children : List Shape)
  deriving BEq

mutual

def shape : Tree → Shape
  | leaf token => .mk token.kind.spelling []
  | node name children => .mk name (shapesOf children)

def shapesOf : List Tree → List Shape
  | [] => []
  | t :: rest => t.shape :: shapesOf rest

end

/-! ## Text -/

mutual

/-- One line for each node and leaf, indented by its depth. A token without text is shown by its
kind alone, and a node without children by an `ε`. -/
def linesAt (indent : String) (depth : Nat) : Tree → List String
  | leaf token =>
    let text := match token.text with
      | none => ""
      | some text => " " ++ Text.quote text
    [String.join (List.replicate depth indent) ++ token.kind.spelling ++ text]
  | node name children =>
    (String.join (List.replicate depth indent) ++ name ++ if children.isEmpty then " ε" else "")
      :: linesOfAt indent (depth + 1) children

def linesOfAt (indent : String) (depth : Nat) : List Tree → List String
  | [] => []
  | t :: rest => linesAt indent depth t ++ linesOfAt indent depth rest

end

/-- The tree as text, with a given indentation for each level. -/
def renderWith (indent : String) (t : Tree) : String :=
  Text.lines (t.linesAt indent 0)

def render (t : Tree) : String :=
  t.renderWith "  "

end Tree

end TopDown
