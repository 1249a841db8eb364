import MiniC.Token.Basic

/-!
Reading tokens one by one. The cursor holds the tokens it has passed and those it has not, so the
lookahead is the first token ahead and nothing is ever taken back. It also counts the levels of
nesting that are open. A rule that fails leaves the cursor where the failure was found, with the
levels open that were open there.
-/

namespace MiniC

/-- A place between tokens, the id that the next block will get, and the levels of nesting that are
open. -/
structure Cursor where
  /-- The tokens already consumed, latest first. -/
  behind : List Token
  ahead : List Token
  nextId : Int32
  file : String
  depth : Nat

namespace Cursor

/-- The start of a list of tokens. Id 0 is that of the global scope, so blocks count from 1. -/
def start (file : String) (tokens : List Token) : Cursor :=
  ⟨[], tokens, 1, file, 0⟩

/-- The end of the token consumed last. -/
def previousEnd (cursor : Cursor) : Position :=
  match cursor.behind with
  | [] => .start cursor.file
  | token :: _ => token.span.stop

/-- The start of the lookahead, or the end of the tokens when none is left. -/
def position (cursor : Cursor) : Position :=
  match cursor.ahead with
  | [] => cursor.previousEnd
  | token :: _ => token.span.start

def atOperator (cursor : Cursor) (lexeme : String) : Bool :=
  cursor.ahead.head?.any (·.isOperator lexeme)

def atKeyword (cursor : Cursor) (lexeme : String) : Bool :=
  cursor.ahead.head?.any (·.isKeyword lexeme)

/-- From `start` to the end of the token consumed last. -/
def spanFrom (cursor : Cursor) (start : Position) : Span :=
  ⟨start, cursor.previousEnd⟩

/-- The end of the tokens, met where something is still expected. -/
def endOfInput (cursor : Cursor) (expected : String) : Diagnostic :=
  ⟨.endOfInput expected, cursor.previousEnd⟩

/-- A lookahead other than the expected one. -/
def unexpected (cursor : Cursor) (expected : String) : Diagnostic :=
  match cursor.ahead with
  | [] => cursor.endOfInput expected
  | token :: _ => ⟨.unexpectedDetailed token.lexeme ("expected " ++ expected), token.span.start⟩

end Cursor

/-- The deepest nesting of blocks, parentheses and operator chains. -/
def Grammar.maxDepth : Nat := 128

/-- A rule of the grammar: it moves the cursor, and gives a result or fails. -/
abbrev Parse := EStateM Diagnostic Cursor

namespace Parse

variable {α : Type}

def fail (diagnostic : Diagnostic) : Parse α :=
  throw diagnostic

/-- Fails because the lookahead is not what is expected. -/
def unexpected (expected : String) : Parse α := do
  fail ((← get).unexpected expected)

/-- The lookahead, which stays where it is. -/
def peek (expected : String) : Parse Token := do
  let cursor ← get
  match cursor.ahead with
  | [] => fail (cursor.endOfInput expected)
  | token :: _ => return token

/-- Consumes the lookahead. -/
def advance : Parse Token := do
  let cursor ← get
  match cursor.ahead with
  | [] => fail (cursor.endOfInput "more input")
  | token :: rest =>
    set { cursor with behind := token :: cursor.behind, ahead := rest }
    return token

/-- Consumes a token of the given kind. -/
def expectKind (kind : Token.Kind) (expected : String) : Parse Token := do
  let token ← peek expected
  if token.kind = kind then advance else unexpected expected

/-- Consumes the operator with the given spelling. -/
def expectOperator (lexeme : String) : Parse Token := do
  if (← get).atOperator lexeme then advance else unexpected ("`" ++ lexeme ++ "`")

/-- Consumes the keyword with the given spelling. -/
def expectKeyword (lexeme : String) : Parse Token := do
  if (← get).atKeyword lexeme then advance else unexpected ("`" ++ lexeme ++ "`")

/-- Takes the next block id. -/
def takeId : Parse Int32 := do
  let cursor ← get
  set { cursor with nextId := cursor.nextId + 1 }
  return cursor.nextId

/-- Fails because no further level of nesting may be opened. -/
def tooDeep : Parse α := do
  fail ⟨.tooDeep Grammar.maxDepth, (← get).position⟩

/-- Opens a level of nesting, unless as many are open as may be. -/
def enter : Parse Unit := do
  if Grammar.maxDepth ≤ (← get).depth then tooDeep
  else modify fun cursor => { cursor with depth := cursor.depth + 1 }

/-- Closes levels of nesting, at most those that are open. -/
def exit (levels : Nat) : Parse Unit :=
  modify fun cursor => { cursor with depth := cursor.depth - levels }

/-- Runs a rule one level deeper. The level is closed when the rule succeeds and stays open when it
fails. -/
def within (rule : Parse α) : Parse α := do
  enter
  let value ← rule
  exit 1
  return value

end Parse

end MiniC
