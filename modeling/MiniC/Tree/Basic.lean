import MiniC.Number.Binary64
import MiniC.Source.Position
import MiniC.Tree.Operator
import MiniC.Typing.DataType

/-!
The tree of a program. Nodes whose type is found by checking carry it as an option: a tree fresh
from its tokens has `none` there, and a check that fails leaves the rest of them as they were.
-/

namespace MiniC

open Number (Binary64)

/-- An expression: a literal, a name, or an operator applied to its operands. -/
inductive Expr where
  | integer (value : Int64) (span : Span)
  | float (value : Binary64) (span : Span)
  /-- A string literal, without its quotes. -/
  | string (value : String) (span : Span)
  /-- The name of a variable. -/
  | symbol (name : String) (type : Option DataType) (span : Span)
  | binary (left : Expr) (op : BinaryOp) (right : Expr) (type : Option DataType) (span : Span)
  | unary (op : UnaryOp) (operand : Expr) (type : Option DataType) (span : Span)
  deriving DecidableEq, Repr

namespace Expr

def span : Expr → Span
  | .integer _ span | .float _ span | .string _ span | .symbol _ _ span
  | .binary _ _ _ _ span | .unary _ _ _ span => span

/-- The type of an expression, which literals show by themselves. -/
def dataType? : Expr → Option DataType
  | .integer .. => some .int
  | .float .. => some .float
  | .string .. => some .string
  | .symbol _ type _ | .binary _ _ _ type _ | .unary _ _ type _ => type

end Expr

/-- The declaration of a variable, with the value it starts with, if any. -/
structure VarDecl where
  name : String
  type : DataType
  init : Option Expr
  span : Span
  deriving DecidableEq, Repr

/-- An assignment; its type is that of the variable. -/
structure Assignment where
  name : String
  value : Expr
  type : Option DataType
  span : Span
  deriving DecidableEq, Repr

/-- A return; its type is that of the value, or `void`. -/
structure Return where
  value : Option Expr
  type : Option DataType
  span : Span
  deriving DecidableEq, Repr

mutual

/-- A statement. The bodies of loops and branches are blocks. -/
inductive Stmt where
  | varDecl (decl : VarDecl)
  | assign (assignment : Assignment)
  | ifElse (condition : Expr) (thenBody : Block) (elseBody : Option Block) (span : Span)
  | whileLoop (condition : Expr) (body : Block) (span : Span)
  | forLoop (init : Stmt) (condition : Expr) (update : Assignment) (body : Block) (span : Span)
  | ret (value : Return)
  | block (block : Block)

/-- Statements in braces. The id names the scope they open. -/
structure Block where
  body : List Stmt
  id : Int32
  span : Span

end

def Stmt.span : Stmt → Span
  | .varDecl decl => decl.span
  | .assign assignment => assignment.span
  | .ifElse _ _ _ span | .whileLoop _ _ span | .forLoop _ _ _ _ span => span
  | .ret r => r.span
  | .block b => b.span

/-- The statements of a whole source. -/
structure Program where
  body : List Stmt
  span : Span

end MiniC
