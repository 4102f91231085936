import TopDown.Analysis.Decision
import TopDown.Analysis.LeftRecursion
import TopDown.Analysis.Lookahead
import TopDown.Analysis.Reachability
import TopDown.Analysis.Stable
import TopDown.Catalog
import TopDown.Grammar.Basic
import TopDown.Grammar.Build
import TopDown.Grammar.Conflict
import TopDown.Grammar.Description.Draft
import TopDown.Grammar.Description.Fault
import TopDown.Grammar.Description.Piece
import TopDown.Grammar.Description.Reading
import TopDown.Grammar.Description.Scanner
import TopDown.Grammar.Error
import TopDown.Grammar.Fresh
import TopDown.Grammar.Printer
import TopDown.Grammar.Symbol
import TopDown.Main
import TopDown.Parsing.Backtracking
import TopDown.Parsing.Failure
import TopDown.Parsing.Limits
import TopDown.Parsing.Predictive
import TopDown.Program.Arguments
import TopDown.Program.Commands
import TopDown.Program.Files
import TopDown.Program.Session
import TopDown.Text.CharClass
import TopDown.Text.Integer
import TopDown.Text.Padding
import TopDown.Text.Place
import TopDown.Text.Quoted
import TopDown.Text.Table.IdentifierContinue
import TopDown.Text.Table.IdentifierStart
import TopDown.Text.Table.Lowercase
import TopDown.Text.Table.Printable
import TopDown.Text.Table.Uppercase
import TopDown.Text.Utf8
import TopDown.Token.Basic
import TopDown.Token.Kind
import TopDown.Token.KindSet
import TopDown.Token.Lexer
import TopDown.Transform.Elimination
import TopDown.Transform.Factoring
import TopDown.Transform.Traced
import TopDown.Tree.Basic
import TopDown.Tree.Fold
import TopDown.Proofs.Derivation
import TopDown.Proofs.FreshName
import TopDown.Proofs.Rules
import TopDown.Proofs.Elimination
import TopDown.Proofs.Factoring
import TopDown.Proofs.Curtailment
import TopDown.Proofs.Backtracking
import TopDown.Proofs.KindTable
import TopDown.Proofs.Lookahead
import TopDown.Proofs.Decision
import TopDown.Proofs.Conflicts
import TopDown.Proofs.Predictive
import TopDown.Proofs.Pipeline
import TopDown.Proofs.Validity
import TopDown.Proofs.Unambiguity
import TopDown.Proofs.LeftRecursion
import TopDown.Proofs.Frontier
import TopDown.Proofs.SearchFrontier
import TopDown.Proofs.PredictiveFrontier
import TopDown.Proofs.Agreement
import TopDown.Proofs.TreeFold
import TopDown.Proofs.PrefixTrees
import TopDown.Proofs.RecursionTrees
import TopDown.Proofs.EliminationTrees
import TopDown.Proofs.Folding
import TopDown.Proofs.Worklist
import TopDown.Proofs.UnfixableRecursion
import TopDown.Proofs.Exactness
import TopDown.Proofs.RecursionFree
import TopDown.Proofs.EliminationShape
import TopDown.Proofs.StraightElimination
import TopDown.Proofs.Scanning
import TopDown.Proofs.Describable
import TopDown.Proofs.RoundTrip
import TopDown.Proofs.FactoredForm
import TopDown.Proofs.FactoredSize
import TopDown.Proofs.Extension
import TopDown.Proofs.TreeLimits
import TopDown.Proofs.LinearParse
import TopDown.Proofs.CallPaths
import TopDown.Proofs.Priority
import TopDown.Proofs.SearchReports
import TopDown.Proofs.RaisedLimits
import TopDown.Proofs.FoldedTree
import TopDown.Proofs.Lexemes
import TopDown.Proofs.Tiling
import TopDown.Proofs.Pieces
import TopDown.Proofs.Statements
import TopDown.Proofs.Meaning
import TopDown.Proofs.Acceptance
import TopDown.Proofs.Reachability
import TopDown.Proofs.PullLexer
import TopDown.Proofs.FaultPlaces
import TopDown.Proofs.Failable
