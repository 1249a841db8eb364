import MiniC.Number.Shortest
import MiniC.Text.Quoted
import MiniC.Tree.Basic

/-!
One view of all nodes of a tree, the walk that visits them depth first, children in source order,
and the outline that shows them.
-/

namespace MiniC

/-- A node of a tree. A block or assignment that is part of another statement is a node of its own
kind, not a statement. -/
inductive Node where
  | program (program : Program)
  | stmt (stmt : Stmt)
  | block (block : Block)
  | assignment (assignment : Assignment)
  | expr (expr : Expr)

namespace Node

/-- What a node is called in an outline. -/
inductive Tag where
  | program
  | varDecl
  | assignment
  | ifElse
  | whileLoop
  | forLoop
  | ret
  | block
  | binaryOp
  | unaryOp
  | literal
  | identifier
  deriving DecidableEq, Repr

def Tag.name : Tag → String
  | .program => "Program"
  | .varDecl => "VarDecl"
  | .assignment => "Assignment"
  | .ifElse => "If"
  | .whileLoop => "While"
  | .forLoop => "For"
  | .ret => "Return"
  | .block => "Block"
  | .binaryOp => "BinaryOp"
  | .unaryOp => "UnaryOp"
  | .literal => "Literal"
  | .identifier => "Identifier"

end Node

def Expr.tag : Expr → Node.Tag
  | .integer .. | .float .. | .string .. => .literal
  | .symbol .. => .identifier
  | .binary .. => .binaryOp
  | .unary .. => .unaryOp

/-- The literal, name or operator of an expression, as text. -/
def Expr.label : Expr → String
  | .integer value _ => toString value.toInt
  | .float value _ => value.text
  | .string value _ => Text.quoted value
  | .symbol name _ _ => name
  | .binary _ op _ _ _ => op.lexeme
  | .unary op _ _ _ => op.lexeme

def Stmt.tag : Stmt → Node.Tag
  | .varDecl _ => .varDecl
  | .assign _ => .assignment
  | .ifElse .. => .ifElse
  | .whileLoop .. => .whileLoop
  | .forLoop .. => .forLoop
  | .ret _ => .ret
  | .block _ => .block

namespace Node

def tag : Node → Tag
  | .program _ => .program
  | .stmt s => s.tag
  | .block _ => .block
  | .assignment _ => .assignment
  | .expr e => e.tag

/-- The literal, name or operator that a node holds itself, as text. -/
def label? : Node → Option String
  | .program _ | .block _ => none
  | .stmt (.varDecl d) => some d.name
  | .stmt (.assign a) | .assignment a => some a.name
  | .stmt _ => none
  | .expr e => some e.label

def dataType? : Node → Option DataType
  | .program _ | .block _ => none
  | .stmt (.varDecl d) => some d.type
  | .stmt (.assign a) | .assignment a => a.type
  | .stmt (.ret r) => r.type
  | .stmt _ => none
  | .expr e => e.dataType?

def span : Node → Span
  | .program p => p.span
  | .stmt s => s.span
  | .block b => b.span
  | .assignment a => a.span
  | .expr e => e.span

/-- The id of a block, also of one in the place of a statement. -/
def blockId? : Node → Option Int32
  | .block b | .stmt (.block b) => some b.id
  | _ => none

/-- The parts of a node, in source order. -/
def children : Node → List Node
  | .program p => p.body.map .stmt
  | .block b | .stmt (.block b) => b.body.map .stmt
  | .assignment a | .stmt (.assign a) => [.expr a.value]
  | .stmt (.varDecl d) => d.init.toList.map .expr
  | .stmt (.ifElse condition thenBody elseBody _) =>
    .expr condition :: .block thenBody :: elseBody.toList.map .block
  | .stmt (.whileLoop condition body _) => [.expr condition, .block body]
  | .stmt (.forLoop init condition update body _) =>
    [.stmt init, .expr condition, .assignment update, .block body]
  | .stmt (.ret r) => r.value.toList.map .expr
  | .expr (.binary left _ right _ _) => [.expr left, .expr right]
  | .expr (.unary _ operand _ _) => [.expr operand]
  | .expr _ => []

end Node

/-- The nodes of an expression at `depth`, each with its own depth. -/
def Expr.walk (depth : Nat) : Expr → List (Nat × Node)
  | .binary left op right type span =>
    (depth, .expr (.binary left op right type span)) ::
      left.walk (depth + 1) ++ right.walk (depth + 1)
  | .unary op operand type span =>
    (depth, .expr (.unary op operand type span)) :: operand.walk (depth + 1)
  | expr => [(depth, .expr expr)]

/-- The nodes below an assignment at `depth`. -/
def Assignment.walkParts (depth : Nat) (assignment : Assignment) : List (Nat × Node) :=
  assignment.value.walk (depth + 1)

mutual

def Stmt.walk (depth : Nat) : Stmt → List (Nat × Node)
  | .varDecl decl =>
    (depth, .stmt (.varDecl decl)) :: decl.init.toList.flatMap (·.walk (depth + 1))
  | .assign assignment =>
    (depth, .stmt (.assign assignment)) :: assignment.walkParts depth
  | .ifElse condition thenBody elseBody span =>
    (depth, .stmt (.ifElse condition thenBody elseBody span)) ::
      condition.walk (depth + 1) ++ thenBody.walk (depth + 1) ++ walkElse (depth + 1) elseBody
  | .whileLoop condition body span =>
    (depth, .stmt (.whileLoop condition body span)) ::
      condition.walk (depth + 1) ++ body.walk (depth + 1)
  | .forLoop init condition update body span =>
    (depth, .stmt (.forLoop init condition update body span)) ::
      init.walk (depth + 1) ++ condition.walk (depth + 1) ++
        (depth + 1, .assignment update) :: update.walkParts (depth + 1) ++ body.walk (depth + 1)
  | .ret r =>
    (depth, .stmt (.ret r)) :: r.value.toList.flatMap (·.walk (depth + 1))
  | .block ⟨body, id, span⟩ =>
    (depth, .stmt (.block ⟨body, id, span⟩)) :: walkAll (depth + 1) body
termination_by structural stmt => stmt

/-- The nodes of the block of an `else`, if there is one. -/
def walkElse (depth : Nat) : Option Block → List (Nat × Node)
  | none => []
  | some block => block.walk depth
termination_by structural block => block

def Block.walk (depth : Nat) : Block → List (Nat × Node)
  | ⟨body, id, span⟩ => (depth, .block ⟨body, id, span⟩) :: walkAll (depth + 1) body
termination_by structural block => block

/-- The nodes of statements that stand side by side at `depth`. -/
def walkAll (depth : Nat) : List Stmt → List (Nat × Node)
  | [] => []
  | stmt :: stmts => stmt.walk depth ++ walkAll depth stmts
termination_by structural stmts => stmts

end

/-- The nodes of a tree from `node` down, each with its depth below it. -/
def Node.walk : Node → List (Nat × Node)
  | .program p => (0, .program p) :: walkAll 1 p.body
  | .stmt s => s.walk 0
  | .block b => b.walk 0
  | .assignment a => (0, .assignment a) :: a.walkParts 0
  | .expr e => e.walk 0

/-! The outline of a program: one line for each node, in the order of the walk, indented by
depth. -/

/-- `Tag(value=…, type=…)`, where `None` stands for what a node does not have. -/
def Node.describe (node : Node) : String :=
  node.tag.name ++ "(value=" ++ node.label?.getD "None" ++
    ", type=" ++ (node.dataType?.map DataType.name).getD "None" ++ ")"

/-- A node's line, two blanks deeper at each level. -/
def Node.outlineLine (depth : Nat) (node : Node) : String :=
  String.ofList (List.replicate (2 * depth) ' ') ++ node.describe ++ "\n"

def Program.outline (program : Program) : String :=
  String.join ((Node.program program).walk.map fun (depth, node) => node.outlineLine depth)

end MiniC
