import MiniC.Command
import MiniC.Grammar.Session
import MiniC.Main
import MiniC.Source.Reader
import MiniC.Typing.Node
import MiniC.Proofs.Tree.Relabel
import MiniC.Proofs.Grammar.Language
import MiniC.Proofs.Grammar.Levels
import MiniC.Proofs.Grammar.Run
import MiniC.Proofs.Grammar.Composition
import MiniC.Proofs.Grammar.Counting
import MiniC.Proofs.Grammar.Placed
import MiniC.Proofs.Grammar.Expression
import MiniC.Proofs.Grammar.StatementReads
import MiniC.Proofs.Grammar.StatementAccepts
import MiniC.Proofs.Grammar.TopLevel
import MiniC.Proofs.Grammar.Program
import MiniC.Proofs.Grammar.Interleaving
import MiniC.Proofs.Grammar.Failure
import MiniC.Proofs.Grammar.Viable
import MiniC.Proofs.Grammar.Lockstep
import MiniC.Proofs.Grammar.LockstepExpression
import MiniC.Proofs.Grammar.LockstepStatement
import MiniC.Proofs.Grammar.Parting
import MiniC.Proofs.Grammar.CorrectPrefix
import MiniC.Proofs.Grammar.BlockIds
import MiniC.Proofs.Grammar.Concatenation
import MiniC.Proofs.Grammar.Enumeration
import MiniC.Proofs.Typing.System
import MiniC.Proofs.Typing.Context
import MiniC.Proofs.Typing.Check
import MiniC.Proofs.Typing.Placement
import MiniC.Proofs.Text.Classes
import MiniC.Proofs.Token.Layout
import MiniC.Proofs.Token.Lexeme
import MiniC.Proofs.Token.Pattern
import MiniC.Proofs.Token.Scan
import MiniC.Proofs.Token.Spread
import MiniC.Proofs.Grammar.Meaning
import MiniC.Proofs.Typing.Steps
import MiniC.Proofs.Typing.ScopeIds
import MiniC.Proofs.Grammar.Origin
import MiniC.Proofs.Grammar.OriginStatement
import MiniC.Proofs.Source.Bytes
import MiniC.Proofs.Token.Place
import MiniC.Proofs.Token.Loop
import MiniC.Proofs.Token.Unrecognised
import MiniC.Proofs.Token.Joined
import MiniC.Proofs.Source.Row
import MiniC.Proofs.Tree.Preorder
import MiniC.Proofs.Typing.Annotation
import MiniC.Proofs.Tree.Walk
import MiniC.Proofs.Grammar.ErrorPlace
import MiniC.Proofs.Source.Line
import MiniC.Proofs.Report.Caret
import MiniC.Proofs.Text.Code
import MiniC.Proofs.Text.Quoted
import MiniC.Proofs.Number.Text
import MiniC.Proofs.Tree.Alike
import MiniC.Proofs.Tree.Outline
import MiniC.Proofs.Grammar.Faithful
import MiniC.Proofs.Grammar.Precedence
import MiniC.Proofs.Grammar.Height
import MiniC.Proofs.Typing.Restore
import MiniC.Proofs.Typing.Postorder
import MiniC.Proofs.Typing.Progress
import MiniC.Proofs.Typing.Recheck
import MiniC.Proofs.Grammar.Lookahead
import MiniC.Proofs.Grammar.Discipline
import MiniC.Proofs.Grammar.Dispatch
import MiniC.Proofs.Grammar.Spans
import MiniC.Proofs.Grammar.SpansStatement
import MiniC.Proofs.Typing.History
import MiniC.Proofs.Typing.OperatorTree
import MiniC.Proofs.Source.Lookup
import MiniC.Proofs.Number.Read
import MiniC.Proofs.Grammar.Literal
import MiniC.Proofs.Token.Listing
