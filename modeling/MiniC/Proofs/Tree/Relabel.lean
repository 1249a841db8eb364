import MiniC.Tree.Basic

/-!
Trees up to their marks. A mark is what a tree carries besides its structure: the spans of its
nodes, the ids of its blocks, and the types that a check writes. Two trees agree up to some marks
when they become equal once these are overwritten.
-/

namespace MiniC

/-- A change of marks. Fields that are not given keep their marks. -/
structure Relabel where
  span : Span → Span := fun span => span
  id : Int32 → Int32 := fun id => id
  type : Option DataType → Option DataType := fun type => type

/-- The span that stands for no place. -/
def Span.null : Span := ⟨.null, .null⟩

namespace Relabel

/-- Overwrites where things stand and which scope they open. -/
def unplaced : Relabel where
  span _ := .null
  id _ := 0

@[simp] theorem unplaced_span (span : Span) : unplaced.span span = .null := rfl

@[simp] theorem unplaced_id (id : Int32) : unplaced.id id = 0 := rfl

@[simp] theorem unplaced_type (type : Option DataType) : unplaced.type type = type := rfl

/-- Moves everything to another place. -/
def move (place : Position → Position) : Relabel where
  span span := ⟨place span.start, place span.stop⟩

@[simp] theorem move_span_start (place : Position → Position) (span : Span) :
    ((move place).span span).start = place span.start := rfl

@[simp] theorem move_id (place : Position → Position) (id : Int32) : (move place).id id = id := rfl

/-- Overwrites the types that a check writes. -/
def untyped : Relabel where
  type _ := none

@[simp] theorem untyped_span (span : Span) : untyped.span span = span := rfl

@[simp] theorem untyped_id (id : Int32) : untyped.id id = id := rfl

@[simp] theorem untyped_type (type : Option DataType) : untyped.type type = none := rfl

end Relabel

/-- The same complaint about another place. -/
def Diagnostic.move (place : Position → Position) (e : Diagnostic) : Diagnostic :=
  ⟨e.cause, place e.position⟩

/-- An expression with other marks; its structure stays. -/
def Expr.relabel (f : Relabel) : Expr → Expr
  | .integer value span => .integer value (f.span span)
  | .float value span => .float value (f.span span)
  | .string value span => .string value (f.span span)
  | .symbol name type span => .symbol name (f.type type) (f.span span)
  | .binary left op right type span =>
    .binary (left.relabel f) op (right.relabel f) (f.type type) (f.span span)
  | .unary op operand type span => .unary op (operand.relabel f) (f.type type) (f.span span)

/-- The type of a declaration is part of its structure, so it stays. -/
def VarDecl.relabel (f : Relabel) (d : VarDecl) : VarDecl :=
  ⟨d.name, d.type, d.init.map (·.relabel f), f.span d.span⟩

def Assignment.relabel (f : Relabel) (a : Assignment) : Assignment :=
  ⟨a.name, a.value.relabel f, f.type a.type, f.span a.span⟩

def Return.relabel (f : Relabel) (r : Return) : Return :=
  ⟨r.value.map (·.relabel f), f.type r.type, f.span r.span⟩

mutual

/-- A statement with other marks. -/
def Stmt.relabel (f : Relabel) : Stmt → Stmt
  | .varDecl decl => .varDecl (decl.relabel f)
  | .assign assignment => .assign (assignment.relabel f)
  | .ifElse condition thenBody elseBody span =>
    .ifElse (condition.relabel f) (thenBody.relabel f) (relabelElse f elseBody) (f.span span)
  | .whileLoop condition body span =>
    .whileLoop (condition.relabel f) (body.relabel f) (f.span span)
  | .forLoop init condition update body span =>
    .forLoop (init.relabel f) (condition.relabel f) (update.relabel f) (body.relabel f)
      (f.span span)
  | .ret r => .ret (r.relabel f)
  | .block b => .block (b.relabel f)
termination_by structural stmt => stmt

def relabelElse (f : Relabel) : Option Block → Option Block
  | none => none
  | some block => some (block.relabel f)
termination_by structural block => block

def Block.relabel (f : Relabel) : Block → Block
  | ⟨body, id, span⟩ => ⟨relabelAll f body, f.id id, f.span span⟩
termination_by structural block => block

def relabelAll (f : Relabel) : List Stmt → List Stmt
  | [] => []
  | stmt :: stmts => stmt.relabel f :: relabelAll f stmts
termination_by structural stmts => stmts

end

/-- A program with other marks. -/
def Program.relabel (f : Relabel) (p : Program) : Program :=
  ⟨relabelAll f p.body, f.span p.span⟩

@[simp] theorem Expr.relabel_span (f : Relabel) (e : Expr) :
    (e.relabel f).span = f.span e.span := by
  cases e <;> rfl

@[simp] theorem Block.relabel_id (f : Relabel) (b : Block) : (b.relabel f).id = f.id b.id := by
  obtain ⟨body, id, span⟩ := b
  rfl

/-! A change that keeps all marks changes nothing. -/

theorem Expr.relabel_keep (e : Expr) : e.relabel {} = e := by
  induction e with
  | integer | float | string | symbol => rfl
  | binary left op right type span ihl ihr => rw [relabel, ihl, ihr]
  | unary op operand type span ih => rw [relabel, ih]

theorem Expr.map_relabel_keep (e : Option Expr) : e.map (Expr.relabel {}) = e := by
  cases e with
  | none => rfl
  | some e => rw [Option.map_some, e.relabel_keep]

theorem VarDecl.relabel_keep (d : VarDecl) : d.relabel {} = d := by
  rw [relabel, Expr.map_relabel_keep]

theorem Assignment.relabel_keep (a : Assignment) : a.relabel {} = a := by
  rw [relabel, a.value.relabel_keep]

mutual

theorem Stmt.relabel_keep (stmt : Stmt) : stmt.relabel {} = stmt := by
  cases stmt with
  | varDecl d => rw [Stmt.relabel, d.relabel_keep]
  | assign a => rw [Stmt.relabel, a.relabel_keep]
  | ifElse condition thenBody elseBody span =>
    rw [Stmt.relabel, condition.relabel_keep, thenBody.relabel_keep, relabelElse_keep]
  | whileLoop condition body span =>
    rw [Stmt.relabel, condition.relabel_keep, body.relabel_keep]
  | forLoop init condition update body span =>
    rw [Stmt.relabel, init.relabel_keep, condition.relabel_keep, update.relabel_keep,
      body.relabel_keep]
  | ret r => rw [Stmt.relabel, Return.relabel, Expr.map_relabel_keep]
  | block b => rw [Stmt.relabel, b.relabel_keep]
termination_by structural stmt

theorem relabelElse_keep (block : Option Block) : relabelElse {} block = block := by
  cases block with
  | none => rfl
  | some b => rw [relabelElse, b.relabel_keep]
termination_by structural block

theorem Block.relabel_keep (block : Block) : block.relabel {} = block := by
  obtain ⟨body, id, span⟩ := block
  rw [Block.relabel, relabelAll_keep]
termination_by structural block

theorem relabelAll_keep (stmts : List Stmt) : relabelAll {} stmts = stmts := by
  cases stmts with
  | nil => rfl
  | cons stmt stmts => rw [relabelAll, stmt.relabel_keep, relabelAll_keep stmts]
termination_by structural stmts

end

end MiniC
