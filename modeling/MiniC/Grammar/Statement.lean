import MiniC.Grammar.Expression

/-!
The rules for statements. Which rule parses a statement that starts with a keyword or an operator
is looked up in a table; one that starts with an identifier is an assignment.
-/

namespace MiniC

/-- The rules that a table can name. -/
inductive Handler where
  | varDecl
  | ifElse
  | whileLoop
  | forLoop
  | ret
  | block
  deriving DecidableEq, Repr

/-- For each lexeme the rule for statements that start with it. -/
abbrev Table := List (String × Handler)

namespace Table

/-- Names the rule for a lexeme, in place of any other. -/
def bind (table : Table) (lexeme : String) (handler : Handler) : Table :=
  (lexeme, handler) :: table.filter fun entry => entry.1 ≠ lexeme

/-- The language's own entries. -/
def entries : List (String × Handler) :=
  [("int", .varDecl), ("float", .varDecl), ("string", .varDecl), ("void", .varDecl),
    ("if", .ifElse), ("while", .whileLoop), ("for", .forLoop), ("return", .ret),
    ("\x7b", .block)]

/-- Adds the language's own entries. -/
def register (table : Table) : Table :=
  entries.foldl (fun table entry => table.bind entry.1 entry.2) table

/-- The table of the language. -/
def standard : Table := register []

/-- The lexemes with a rule, in ascending order. -/
def lexemes (table : Table) : List String :=
  (table.map Prod.fst).mergeSort fun a b => decide (a ≤ b)

/-- The rule for a statement that starts with `token`. -/
def handler? (table : Table) (token : Token) : Option Handler :=
  match token.kind with
  | .keyword | .operator => table.lookup token.lexeme
  | _ => none

end Table

namespace Grammar

/-- A type keyword, with the place it starts at. -/
def typeKeyword : Parse (DataType × Position) := do
  let token ← Parse.peek "a type keyword"
  match token.dataType? with
  | none => Parse.unexpected "a type keyword"
  | some type =>
    let token ← Parse.advance
    return (type, token.span.start)

/-- An expression after `=`, if there is one. -/
def initialValue (expression : Parse Expr) : Parse (Option Expr) := do
  if (← get).atOperator "=" then
    let _ ← Parse.advance
    return some (← expression)
  else return none

/-- `type name = value;`, the value being optional. -/
def varDecl (expression : Parse Expr) : Parse VarDecl := do
  let (type, start) ← typeKeyword
  let name ← Parse.expectKind .identifier "an identifier during variable declaration"
  let init ← initialValue expression
  let _ ← Parse.expectOperator ";"
  return ⟨name.lexeme, type, init, (← get).spanFrom start⟩

/-- `name = value`, with a semicolon if it is `terminated`. -/
def assignment (expression : Parse Expr) (terminated : Bool) : Parse Assignment := do
  let name ← Parse.expectKind .identifier "an identifier"
  let _ ← Parse.expectOperator "="
  let value ← expression
  if terminated then
    let _ ← Parse.expectOperator ";"
  return ⟨name.lexeme, value, none, (← get).spanFrom name.span.start⟩

/-- A block after `else`, if there is one. -/
def elseBody (block : Parse Block) : Parse (Option Block) := do
  if (← get).atKeyword "else" then
    let _ ← Parse.advance
    return some (← block)
  else return none

/-- `if (condition) block`, and perhaps `else block`. -/
def ifElse (expression : Parse Expr) (block : Parse Block) : Parse Stmt := do
  let token ← Parse.expectKeyword "if"
  let test ← parenthesised expression
  let thenBlock ← block
  let elseBlock ← elseBody block
  return .ifElse test thenBlock elseBlock ((← get).spanFrom token.span.start)

/-- `while (condition) block`. -/
def whileLoop (expression : Parse Expr) (block : Parse Block) : Parse Stmt := do
  let token ← Parse.expectKeyword "while"
  let test ← parenthesised expression
  let body ← block
  return .whileLoop test body ((← get).spanFrom token.span.start)

/-- The first clause of a `for` header: a declaration or an assignment. -/
def forInit (expression : Parse Expr) : Parse Stmt := do
  let token ← Parse.peek "a declaration or assignment"
  if token.isTypeKeyword then return .varDecl (← varDecl expression)
  else if token.kind = .identifier then return .assign (← assignment expression true)
  else Parse.unexpected "a declaration or assignment"

/-- `for (init condition; update) block`; the update has no semicolon. -/
def forLoop (expression : Parse Expr) (block : Parse Block) : Parse Stmt := do
  let token ← Parse.expectKeyword "for"
  let _ ← Parse.expectOperator "("
  let init ← forInit expression
  let test ← expression
  let _ ← Parse.expectOperator ";"
  let update ← assignment expression false
  let _ ← Parse.expectOperator ")"
  let body ← block
  return .forLoop init test update body ((← get).spanFrom token.span.start)

/-- The value of a `return`, unless the semicolon follows at once. -/
def returnValue (expression : Parse Expr) : Parse (Option Expr) := do
  if (← get).atOperator ";" then return none else return some (← expression)

/-- `return value;`, the value being optional. -/
def ret (expression : Parse Expr) : Parse Return := do
  let token ← Parse.expectKeyword "return"
  let value ← returnValue expression
  let _ ← Parse.expectOperator ";"
  return ⟨value, none, (← get).spanFrom token.span.start⟩

/-- The rule that a handler stands for. -/
def handle (expression : Parse Expr) (block : Parse Block) : Handler → Parse Stmt
  | .varDecl => return .varDecl (← varDecl expression)
  | .ifElse => ifElse expression block
  | .whileLoop => whileLoop expression block
  | .forLoop => forLoop expression block
  | .ret => return .ret (← ret expression)
  | .block => return .block (← block)

/-- A statement whose blocks are parsed by `block`. -/
def statementWith (table : Table) (expression : Parse Expr) (block : Parse Block) :
    Parse Stmt := do
  let token ← Parse.peek "a statement"
  match table.handler? token with
  | some handler => handle expression block handler
  | none =>
    if token.kind = .identifier then return .assign (← assignment expression true)
    else Parse.fail ⟨.unexpected token.lexeme, token.span.start⟩

/-- Statements up to the closing brace. Each consumes a token, so `fuel` is the number of tokens
ahead; without any left there is neither a statement nor a brace. -/
def untilBrace (statement : Parse Stmt) : (fuel : Nat) → Parse (List Stmt)
  | 0 => do
    let cursor ← get
    if cursor.atOperator "\x7d" then return []
    else Parse.fail (cursor.endOfInput "a statement")
  | fuel + 1 => do
    if (← get).atOperator "\x7d" then return []
    else
      let stmt ← statement
      return stmt :: (← untilBrace statement fuel)

/-- Statements in braces. The id is taken before those of the blocks inside. -/
def braces (statement : Parse Stmt) : Parse Block := do
  let brace ← Parse.expectOperator "\x7b"
  let id ← Parse.takeId
  let body ← untilBrace statement (← get).ahead.length
  let _ ← Parse.expectOperator "\x7d"
  return ⟨body, id, (← get).spanFrom brace.span.start⟩

end Grammar

namespace Parser

open Grammar

/-- Statements in braces, with fuel for the levels that can still be opened. -/
def blockUpTo (table : Table) : (fuel : Nat) → Parse Block
  | 0 => Parse.tooDeep
  | fuel + 1 => Parse.within do
    braces (statementWith table expression (blockUpTo table fuel))

/-- Statements in braces, one level deeper. -/
def block (table : Table) : Parse Block :=
  blockUpTo table maxDepth

/-- Any statement. -/
def statement (table : Table) : Parse Stmt :=
  statementWith table expression (block table)

end Parser

end MiniC
