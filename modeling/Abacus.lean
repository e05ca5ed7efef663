import Abacus.Main
import Abacus.Proofs.Grammar
import Abacus.Proofs.Grammar.Operands
import Abacus.Proofs.Grammar.Levels
import Abacus.Proofs.Grammar.Nesting
import Abacus.Proofs.Grammar.Reader
import Abacus.Proofs.Grammar.Parsing
import Abacus.Proofs.Grammar.Lookahead
import Abacus.Proofs.Tokens.Scanning
import Abacus.Proofs.Grammar.Viable
import Abacus.Proofs.Lexemes
import Abacus.Proofs.Number.Bits
import Abacus.Proofs.Number.Nearest
import Abacus.Proofs.Number.Numeral
import Abacus.Proofs.Printing
import Abacus.Proofs.RoundTrip
import Abacus.Proofs.Spelling
import Abacus.Proofs.Statement
import Abacus.Proofs.Evaluation
import Abacus.Proofs.Session
import Abacus.Proofs.Parts
import Abacus.Proofs.Table.Lookup
import Abacus.Proofs.Scope
import Abacus.Proofs.Evaluation.Comparison
import Abacus.Proofs.Evaluation.DepthLimit
import Abacus.Proofs.Evaluation.Dependence
import Abacus.Proofs.Session.Faults
import Abacus.Proofs.Session.Kept
import Abacus.Proofs.Session.WellFormed
import Abacus.Proofs.Session.Listing
import Abacus.Proofs.Evaluation.Binding
import Abacus.Proofs.Evaluation.Rebinding
import Abacus.Proofs.Text.Marks
import Abacus.Proofs.Text.Respaced
import Abacus.Proofs.Statement.Respaced
import Abacus.Proofs.Script
import Abacus.Proofs.Statement.Balance
import Abacus.Proofs.Shell
import Abacus.Proofs.Shell.Script
import Abacus.Proofs.Shell.Commands
import Abacus.Proofs.Shell.Invariant
import Abacus.Proofs.Tokens.Layout
import Abacus.Proofs.Tokens.Joined
import Abacus.Proofs.Number.ReadBack
import Abacus.Proofs.Leaves
import Abacus.Proofs.Distinct
import Abacus.Proofs.Program
import Abacus.Proofs.Evaluation.Snapshot
import Abacus.Proofs.Session.Shadowing
import Abacus.Proofs.Text.Occurrences
import Abacus.Proofs.Session.Spans
import Abacus.Proofs.Grammar.Inversion
import Abacus.Proofs.Places
import Abacus.Proofs.Parentheses
import Abacus.Proofs.Statement.NamePlaces
import Abacus.Proofs.Number.Power
import Abacus.Proofs.Number.Rounding
import Abacus.Proofs.Number.Display
import Abacus.Proofs.Outline.Lines
import Abacus.Proofs.Outline.Spans
