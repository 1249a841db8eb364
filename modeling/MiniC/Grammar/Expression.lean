import MiniC.Grammar.Cursor
import MiniC.Number.Decimal
import MiniC.Tree.Basic

/-!
The rules for expressions: parentheses and literals, an optional unary operator, and six levels of
binary operators whose chains fold to the left.

Every parenthesis and every fold of a chain opens one level of nesting. That of a parenthesis is
closed with it; those of a chain are closed together when the chain ends, so its i-th operand is
parsed with i levels more open than the chain.
-/

namespace MiniC

open Number

/-- The unary operator that a token spells. -/
def Token.unaryOp? (token : Token) : Option UnaryOp :=
  if token.isOperator "-" then some .negate
  else if token.isOperator "!" then some .not
  else none

/-- The binary operator that a token spells. -/
def Token.binaryOp? (token : Token) : Option BinaryOp :=
  if token.kind = .operator then BinaryOp.ofLexeme? token.lexeme else none

/-- The lookahead as a binary operator of the given level. -/
def Cursor.binaryOp? (cursor : Cursor) (level : Level) : Option BinaryOp :=
  (cursor.ahead.head?.bind Token.binaryOp?).filter fun op => op.level = level

namespace Grammar

/-- A string lexeme without the quotes around it. -/
def stripQuotes (lexeme : String) : String :=
  let inner := lexeme.toList.dropWhile (· == '"')
  String.ofList (inner.reverse.dropWhile (· == '"')).reverse

/-- The literal or name that a token stands for. -/
def atom? (token : Token) : Option Expr :=
  match token.kind with
  | .integer => (readInt64? token.lexeme).map (.integer · token.span)
  | .float => (Binary64.read? token.lexeme).map (.float · token.span)
  | .string => some (.string (stripQuotes token.lexeme) token.span)
  | .identifier => some (.symbol token.lexeme none token.span)
  | .keyword | .operator => none

/-- A literal or a name. A number that cannot be read is consumed before it is reported. -/
def atom : Parse Expr := do
  let token ← Parse.advance
  match atom? token with
  | some expr => return expr
  | none => Parse.fail ⟨.badNumber token.lexeme, token.span.start⟩

/-- A literal, a name, or what `group` parses at an opening parenthesis. -/
def primary (group : Parse Expr) : Parse Expr := do
  let token ← Parse.peek "an expression"
  match token.kind with
  | .integer | .float | .string | .identifier => atom
  | .operator =>
    if token.lexeme = "(" then group else Parse.unexpected "an expression"
  | .keyword => Parse.unexpected "an expression"

/-- A primary expression under at most one unary operator. -/
def unary (group : Parse Expr) : Parse Expr := do
  match (← get).ahead.head?.bind Token.unaryOp? with
  | none => primary group
  | some op =>
    let token ← Parse.advance
    let operand ← primary group
    return .unary op operand none ⟨token.span.start, operand.span.stop⟩

/-- An expression in parentheses. It keeps the span of what is inside. -/
def parenthesised (expression : Parse Expr) : Parse Expr := do
  let _ ← Parse.expectOperator "("
  let expr ← expression
  let _ ← Parse.expectOperator ")"
  return expr

/-- An expression of the given levels, loosest first: `fold` extends what the tighter levels parse
by the operators of its own. -/
def layered (group : Parse Expr) (fold : Level → Expr → Parse Expr) : List Level → Parse Expr
  | [] => unary group
  | level :: tighter => do fold level (← layered group fold tighter)

/-- Extends `left` by as many operators of one level as follow it, of which `chain` parses those
after the next one. So many folds of the chain have opened a level each so far; where the chain ends
all of them are closed. -/
def chained (group : Parse Expr) (chain : Level → Nat → Expr → Parse Expr) (level : Level)
    (folds : Nat) (left : Expr) : Parse Expr := do
  match (← get).binaryOp? level with
  | none =>
    Parse.exit folds
    return left
  | some op =>
    Parse.enter
    let _ ← Parse.advance
    let right ← layered group (chain · 0) level.tighter
    chain level (folds + 1) (.binary left op right none ⟨left.span.start, right.span.stop⟩)

end Grammar

namespace Parser

open Grammar

/-! The rules call each other only one level deeper, so no more calls are nested than levels can
still be opened. That number is the fuel; without any the limit on nesting is reached. -/

mutual

def groupUpTo : (fuel : Nat) → Parse Expr
  | 0 => Parse.tooDeep
  | fuel + 1 => Parse.within do
    parenthesised (layered (groupUpTo fuel) (chainUpTo fuel · 0) Level.logicalOr.andTighter)
termination_by structural fuel => fuel

def chainUpTo : (fuel : Nat) → Level → (folds : Nat) → (left : Expr) → Parse Expr
  | 0 => chained Parse.tooDeep fun _ _ _ => Parse.tooDeep
  | fuel + 1 => chained (groupUpTo fuel) (chainUpTo fuel)
termination_by structural fuel => fuel

end

/-- An expression in parentheses, one level deeper. -/
def group : Parse Expr :=
  groupUpTo maxDepth

/-- The rest of a chain of operators of one level, in which so many folds have been made. -/
def chain : Level → (folds : Nat) → (left : Expr) → Parse Expr :=
  chainUpTo maxDepth

/-- An expression without operators looser than `level`. -/
def atLevel (level : Level) : Parse Expr :=
  layered group (chain · 0) level.andTighter

/-- Any expression. -/
def expression : Parse Expr :=
  atLevel .logicalOr

end Parser

end MiniC
