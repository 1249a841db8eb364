import MiniC.Proofs.Tree.Relabel
import MiniC.Tree.Node

/-!
Walks through trees.
-/

namespace MiniC

/-- The name of a variable that a node holds itself. -/
def Node.name? : Node → Option String
  | .stmt (.varDecl d) => some d.name
  | .stmt (.assign a) | .assignment a => some a.name
  | .expr (.symbol name _ _) => some name
  | _ => none

/-! A walk starts with the root of the tree. -/

theorem Expr.walk_eq (e : Expr) (depth : Nat) :
    e.walk depth = (depth, .expr e) :: (e.walk depth).tail := by
  cases e <;> rfl

theorem Stmt.walk_eq (stmt : Stmt) (depth : Nat) :
    stmt.walk depth = (depth, .stmt stmt) :: (stmt.walk depth).tail := by
  cases stmt with
  | block b =>
    obtain ⟨body, id, span⟩ := b
    rfl
  | _ => rfl

theorem Block.walk_eq (b : Block) (depth : Nat) :
    b.walk depth = (depth, .block b) :: (b.walk depth).tail := by
  obtain ⟨body, id, span⟩ := b
  rfl

theorem walkAll_eq (stmt : Stmt) (stmts : List Stmt) (depth : Nat) :
    walkAll depth (stmt :: stmts) =
      (depth, .stmt stmt) :: ((stmt.walk depth).tail ++ walkAll depth stmts) :=
  congrArg (· ++ walkAll depth stmts) (stmt.walk_eq depth)

theorem Expr.mem_walk (e : Expr) (depth : Nat) : (depth, .expr e) ∈ e.walk depth := by
  rw [walk_eq]
  exact List.mem_cons_self

theorem Stmt.mem_walk (stmt : Stmt) (depth : Nat) : (depth, .stmt stmt) ∈ stmt.walk depth := by
  rw [walk_eq]
  exact List.mem_cons_self

/-! A walk through a tree with other marks meets the same nodes with other marks. -/

/-- A node with other marks. -/
def Node.relabel (f : Relabel) : Node → Node
  | .program p => .program (p.relabel f)
  | .stmt s => .stmt (s.relabel f)
  | .block b => .block (b.relabel f)
  | .assignment a => .assignment (a.relabel f)
  | .expr e => .expr (e.relabel f)

@[simp] theorem Node.name?_relabel (f : Relabel) (node : Node) :
    (node.relabel f).name? = node.name? := by
  cases node with
  | program | block | assignment => rfl
  | stmt stmt => cases stmt <;> rfl
  | expr e => cases e <;> rfl

@[simp] theorem Node.blockId?_relabel (f : Relabel) (node : Node) :
    (node.relabel f).blockId? = node.blockId?.map f.id := by
  cases node with
  | program | assignment | expr => rfl
  | block b => exact congrArg some (b.relabel_id f)
  | stmt stmt =>
    cases stmt with
    | block b => exact congrArg some (b.relabel_id f)
    | _ => rfl

/-- A walk whose nodes have other marks, at the same depths. -/
def relabelWalk (f : Relabel) (walk : List (Nat × Node)) : List (Nat × Node) :=
  walk.map fun visited => (visited.1, visited.2.relabel f)

@[simp] theorem relabelWalk_nil (f : Relabel) : relabelWalk f [] = [] := rfl

@[simp] theorem relabelWalk_cons (f : Relabel) (depth : Nat) (node : Node)
    (walk : List (Nat × Node)) :
    relabelWalk f ((depth, node) :: walk) = (depth, node.relabel f) :: relabelWalk f walk := rfl

@[simp] theorem relabelWalk_append (f : Relabel) (walk walk' : List (Nat × Node)) :
    relabelWalk f (walk ++ walk') = relabelWalk f walk ++ relabelWalk f walk' :=
  List.map_append

variable (f : Relabel)

theorem Expr.walk_relabel (e : Expr) (depth : Nat) :
    (e.relabel f).walk depth = relabelWalk f (e.walk depth) := by
  induction e generalizing depth with
  | integer | float | string | symbol => rfl
  | binary left op right type span ihl ihr => simp [relabel, walk, Node.relabel, ihl, ihr]
  | unary op operand type span ih => simp [relabel, walk, Node.relabel, ih]

theorem walk_optional_relabel (e : Option Expr) (depth : Nat) :
    (e.map (·.relabel f)).toList.flatMap (·.walk depth) =
      relabelWalk f (e.toList.flatMap (·.walk depth)) := by
  cases e with
  | none => rfl
  | some e => simpa using e.walk_relabel f depth

mutual

theorem Stmt.walk_relabel (stmt : Stmt) (depth : Nat) :
    (stmt.relabel f).walk depth = relabelWalk f (stmt.walk depth) := by
  cases stmt with
  | varDecl d =>
    simp [Stmt.relabel, Stmt.walk, Node.relabel, VarDecl.relabel, walk_optional_relabel]
  | assign a =>
    simp [Stmt.relabel, Stmt.walk, Node.relabel, Assignment.relabel, Assignment.walkParts,
      Expr.walk_relabel]
  | ifElse condition thenBody elseBody span =>
    simp [Stmt.relabel, Stmt.walk, Node.relabel, condition.walk_relabel, thenBody.walk_relabel,
      walkElse_relabel elseBody]
  | whileLoop condition body span =>
    simp [Stmt.relabel, Stmt.walk, Node.relabel, condition.walk_relabel, body.walk_relabel]
  | forLoop init condition update body span =>
    simp [Stmt.relabel, Stmt.walk, Node.relabel, init.walk_relabel, condition.walk_relabel,
      Assignment.relabel, Assignment.walkParts, Expr.walk_relabel, body.walk_relabel]
  | ret r => simp [Stmt.relabel, Stmt.walk, Node.relabel, Return.relabel, walk_optional_relabel]
  | block b =>
    obtain ⟨body, id, span⟩ := b
    simp [Stmt.relabel, Stmt.walk, Node.relabel, Block.relabel, walkAll_relabel body]
termination_by structural stmt

theorem walkElse_relabel (b : Option Block) (depth : Nat) :
    walkElse depth (relabelElse f b) = relabelWalk f (walkElse depth b) := by
  cases b with
  | none => rfl
  | some b => exact b.walk_relabel depth
termination_by structural b

theorem Block.walk_relabel (b : Block) (depth : Nat) :
    (b.relabel f).walk depth = relabelWalk f (b.walk depth) := by
  obtain ⟨body, id, span⟩ := b
  simp [Block.relabel, Block.walk, Node.relabel, walkAll_relabel body]
termination_by structural b

theorem walkAll_relabel (stmts : List Stmt) (depth : Nat) :
    walkAll depth (relabelAll f stmts) = relabelWalk f (walkAll depth stmts) := by
  cases stmts with
  | nil => rfl
  | cons stmt stmts =>
    simp [relabelAll, walkAll, stmt.walk_relabel, walkAll_relabel stmts]
termination_by structural stmts

end

theorem Program.walk_relabel (p : Program) :
    (Node.program (p.relabel f)).walk = relabelWalk f (Node.program p).walk := by
  simp [Node.walk, Node.relabel, Program.relabel, walkAll_relabel]

/-- What a change leaves of the nodes stays the same along the whole walk. -/
theorem Program.map_walk_relabel {α : Type} {g : Node → α}
    (hg : ∀ node, g (node.relabel f) = g node) (p : Program) :
    (Node.program (p.relabel f)).walk.map (fun visited => g visited.2) =
      (Node.program p).walk.map fun visited => g visited.2 := by
  rw [p.walk_relabel, relabelWalk, List.map_map]
  exact List.map_congr_left fun visited _ => hg visited.2

end MiniC
