import MiniC.Grammar.Statement
import MiniC.Token.Scan
import MiniC.Tree.Node

/-!
Parsing by hand: single steps and single rules on a list of tokens, with a table of one's own. A
failure does not end a session, which goes on in the state the failure left.
-/

namespace MiniC

/-- The rules that can be run by themselves. -/
inductive Rule where
  | statement
  | varDecl
  /-- An assignment with its semicolon. -/
  | assignment
  /-- An assignment without a semicolon. -/
  | update
  | ifElse
  | whileLoop
  | forLoop
  | ret
  | blockStatement
  | block
  /-- An expression without operators looser than the level. -/
  | atLevel (level : Level)
  | unary
  | primary
  | group
  | typeKeyword
  deriving DecidableEq, Repr

/-- What a rule gives. -/
inductive Parsed where
  | node (node : Node)
  | type (type : DataType) (position : Position)

/-- Runs a rule by these rules for expressions and blocks. -/
def Rule.runWith (table : Table) (atLevel : Level → Parse Expr) (group : Parse Expr)
    (block : Parse Block) : Rule → Parse Parsed
  | .statement => return .node (.stmt (← Grammar.statementWith table expression block))
  | .varDecl => handle .varDecl
  | .assignment => return .node (.assignment (← Grammar.assignment expression true))
  | .update => return .node (.assignment (← Grammar.assignment expression false))
  | .ifElse => handle .ifElse
  | .whileLoop => handle .whileLoop
  | .forLoop => handle .forLoop
  | .ret => handle .ret
  | .blockStatement => handle .block
  | .block => return .node (.block (← block))
  | .atLevel level => return .node (.expr (← atLevel level))
  | .unary => return .node (.expr (← Grammar.unary group))
  | .primary => return .node (.expr (← Grammar.primary group))
  | .group => return .node (.expr (← group))
  | .typeKeyword => do
    let (type, position) ← Grammar.typeKeyword
    return .type type position
where
  expression : Parse Expr := atLevel .logicalOr
  handle (handler : Handler) : Parse Parsed :=
    return .node (.stmt (← Grammar.handle expression block handler))

/-- Runs a rule. -/
def Rule.parse (rule : Rule) (table : Table) : Parse Parsed :=
  rule.runWith table Parser.atLevel Parser.group (Parser.block table)

/-- Scans a source text and runs a rule at its start, with the table of the language. Tokens left
over do not matter. -/
def Rule.ofSource (rule : Rule) (file source : String) : Except Diagnostic Parsed := do
  let tokens ← Token.scan file source
  match rule.parse .standard (.start file tokens) with
  | .ok parsed _ => .ok parsed
  | .error diagnostic _ => .error diagnostic

/-- A cursor and a table of statements. -/
structure Session where
  cursor : Cursor
  table : Table

namespace Session

/-- A session at the start of the tokens, with an empty table. -/
def start (file : String) (tokens : List Token) : Session :=
  ⟨.start file tokens, []⟩

/-- The levels of nesting that are open. -/
def depth (session : Session) : Nat :=
  session.cursor.depth

/-- What can be asked of a session. -/
inductive Request where
  /-- The lookahead. -/
  | current
  /-- The lookahead, which must be there. -/
  | demand (expected : String)
  | atOperator (lexeme : String)
  | atKeyword (lexeme : String)
  | advance
  | expectKind (kind : Token.Kind) (expected : String)
  | expectOperator (lexeme : String)
  | expectKeyword (lexeme : String)
  /-- The error for a lookahead that does not fit. -/
  | unexpected (expected : String)
  /-- Takes a block id. -/
  | takeId
  /-- Opens levels of nesting, as many of them as the limit allows. -/
  | enter (levels : Nat)
  /-- Closes levels of nesting, at most those that are open. -/
  | exit (levels : Nat)
  | previousEnd
  | spanFrom (start : Position)
  /-- Adds the language's own entries to the table. -/
  | register
  | bind (lexeme : String) (handler : Handler)
  /-- The lexemes of the table. -/
  | lexemes
  | parse (rule : Rule)

/-- What a session answers. -/
inductive Reply where
  | done
  | failed (diagnostic : Diagnostic)
  | token (token : Option Token)
  | flag (value : Bool)
  | id (id : Int32)
  | position (position : Position)
  | span (span : Span)
  | lexemes (lexemes : List String)
  | parsed (result : Parsed)

/-- Runs a rule and goes on where it ends, whether it succeeds or fails. -/
def run {α : Type} (session : Session) (rule : Parse α) (reply : α → Reply) : Reply × Session :=
  match rule session.cursor with
  | .ok value cursor => (reply value, { session with cursor := cursor })
  | .error diagnostic cursor => (.failed diagnostic, { session with cursor := cursor })

/-- Opens levels of nesting one by one, up to the limit. -/
def enter : (levels : Nat) → Parse Unit
  | 0 => return ()
  | levels + 1 => do
    Parse.enter
    enter levels

/-- Answers a request. -/
def answer (session : Session) : Request → Reply × Session
  | .current => (.token session.cursor.ahead.head?, session)
  | .demand expected => token (Parse.peek expected)
  | .atOperator lexeme => (.flag (session.cursor.atOperator lexeme), session)
  | .atKeyword lexeme => (.flag (session.cursor.atKeyword lexeme), session)
  | .advance => token Parse.advance
  | .expectKind kind expected => token (Parse.expectKind kind expected)
  | .expectOperator lexeme => token (Parse.expectOperator lexeme)
  | .expectKeyword lexeme => token (Parse.expectKeyword lexeme)
  | .unexpected expected => (.failed (session.cursor.unexpected expected), session)
  | .takeId => session.run Parse.takeId .id
  | .enter levels => session.run (enter levels) fun _ => .done
  | .exit levels => session.run (Parse.exit levels) fun _ => .done
  | .previousEnd => (.position session.cursor.previousEnd, session)
  | .spanFrom start => (.span (session.cursor.spanFrom start), session)
  | .register => (.done, { session with table := session.table.register })
  | .bind lexeme handler => (.done, { session with table := session.table.bind lexeme handler })
  | .lexemes => (.lexemes session.table.lexemes, session)
  | .parse rule => session.run (rule.parse session.table) .parsed
where
  token (rule : Parse Token) : Reply × Session :=
    session.run rule fun token => .token (some token)

end Session

end MiniC
