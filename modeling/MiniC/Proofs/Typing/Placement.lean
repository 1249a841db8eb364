import MiniC.Proofs.Tree.Relabel
import MiniC.Typing.Node

/-!
Checks and places. Where the nodes of a tree stand decides nothing in a check: a tree that is moved
elsewhere gets the same types and leaves the same scopes, or fails with the same error at the place
where its node has been moved.
-/

namespace MiniC

theorem mapError_ok {ε ε' α : Type} (f : ε → ε') (a : α) :
    (Except.ok a : Except ε α).mapError f = .ok a := rfl

section

variable (place : Position → Position)

theorem Scopes.fetch_move (scopes : Scopes) (name : String) (position : Position) :
    scopes.fetch name (place position) =
      (scopes.fetch name position).mapError (Diagnostic.move place) := by
  unfold Scopes.fetch
  cases scopes.lookup name <;> rfl

theorem Scope.declare_move (scope : Scope) (name : String) (type : DataType)
    (position : Position) :
    scope.declare name type (place position) =
      (scope.declare name type position).mapError (Diagnostic.move place) := by
  unfold Scope.declare
  split <;> rfl

theorem Scopes.declare_move (scopes : Scopes) (name : String) (type : DataType)
    (position : Position) :
    scopes.declare name type (place position) =
      (scopes.declare name type position).mapError (Diagnostic.move place) := by
  unfold Scopes.declare Scopes.declareGlobal
  cases scopes.nested with
  | nil =>
    simp only [Scope.declare_move]
    cases scopes.outermost.declare name type position <;> rfl
  | cons scope outer =>
    simp only [Scope.declare_move]
    cases scope.declare name type position <;> rfl

theorem DataType.combine_move (left right : DataType) (operator : String) (position : Position) :
    left.combine right operator (place position) =
      (left.combine right operator position).mapError (Diagnostic.move place) := by
  unfold DataType.combine
  cases left.join? right <;> rfl

theorem DataType.checkAccepts_move (target value : DataType) (position : Position) :
    target.checkAccepts value (place position) =
      (target.checkAccepts value position).mapError (Diagnostic.move place) := by
  unfold DataType.checkAccepts
  split <;> rfl

theorem Expr.check_move (scopes : Scopes) (e : Expr) :
    (e.relabel (.move place)).check scopes =
      ((e.check scopes).1.relabel (.move place),
        (e.check scopes).2.mapError (Diagnostic.move place)) := by
  induction e with
  | integer | float | string => rfl
  | symbol name type span =>
    rw [relabel, check, check, Relabel.move_span_start]
    simp only [Scopes.scoping_fetch, Scopes.fetch_move]
    cases scopes.fetch name span.start <;> rfl
  | binary left op right type span ihl ihr =>
    rw [relabel, check, check, ihl, ihr, Relabel.move_span_start]
    rcases left.check scopes with ⟨left', e | leftType⟩
    · rfl
    rcases right.check scopes with ⟨right', e | rightType⟩
    · rfl
    simp only [mapError_ok, DataType.combine_move]
    cases leftType.combine rightType op.lexeme span.start <;> rfl
  | unary op operand type span ih =>
    rw [relabel, check, check, ih]
    rcases operand.check scopes with ⟨operand', e | operandType⟩
    · rfl
    simp only [mapError_ok]
    cases op.apply? operandType <;> rfl

theorem checkOptional_move (scopes : Scopes) (e : Option Expr) :
    checkOptional scopes (e.map (Expr.relabel (.move place))) =
      ((checkOptional scopes e).1.map (Expr.relabel (.move place)),
        (checkOptional scopes e).2.mapError (Diagnostic.move place)) := by
  cases e with
  | none => rfl
  | some e =>
    rw [Option.map_some, checkOptional, Expr.check_move, checkOptional]
    rfl

theorem Assignment.check_move (scopes : Scopes) (a : Assignment) :
    (a.relabel (.move place)).check scopes =
      ((a.check scopes).1.relabel (.move place),
        (a.check scopes).2.mapError (Diagnostic.move place)) := by
  obtain ⟨name, value, type, span⟩ := a
  simp only [relabel, check, Relabel.move_span_start, Scopes.scoping_fetch, Scopes.fetch_move,
    Expr.check_move]
  cases scopes.fetch name span.start with
  | error e => rfl
  | ok target =>
    rcases value.check scopes with ⟨value', e | valueType⟩
    · rfl
    simp only [mapError_ok, Expr.relabel_span, Relabel.move_span_start,
      DataType.checkAccepts_move]
    cases target.checkAccepts valueType value'.span.start <;> rfl

/-- A checked tree that is moved elsewhere, with the error if there is one. -/
def Checked.move {σ α : Type} (relabel : Relabel → α → α) (checked : Checked σ α) :
    Checked σ α :=
  ⟨relabel (.move place) checked.tree, checked.scopes,
    checked.result.mapError (Diagnostic.move place)⟩

theorem VarDecl.check_move (scopes : Scopes) (d : VarDecl) :
    (d.relabel (.move place)).check scopes = (d.check scopes).move place VarDecl.relabel := by
  obtain ⟨name, type, init, span⟩ := d
  cases init with
  | none =>
    simp only [relabel, check, Option.map_none, Relabel.move_span_start, Scopes.scoping_declare,
      Scopes.declare_move]
    cases scopes.declare name type span.start <;> rfl
  | some init =>
    simp only [relabel, check, Option.map_some, Relabel.move_span_start, Scopes.scoping_declare,
      Scopes.declare_move, Expr.check_move]
    rcases init.check scopes with ⟨init', e | initType⟩
    · rfl
    simp only [mapError_ok, Expr.relabel_span, Relabel.move_span_start,
      DataType.checkAccepts_move]
    cases type.checkAccepts initType init'.span.start with
    | error e => rfl
    | ok _ => cases scopes.declare name type span.start <;> rfl

theorem Return.check_move (scopes : Scopes) (r : Return) :
    (r.relabel (.move place)).check scopes =
      ((r.check scopes).1.relabel (.move place),
        (r.check scopes).2.mapError (Diagnostic.move place)) := by
  obtain ⟨value, type, span⟩ := r
  simp only [relabel, check, checkOptional_move]
  rcases checkOptional scopes value with ⟨value', e | valueType⟩ <;> rfl

mutual

theorem Stmt.check_move (stmt : Stmt) (scopes : Scopes) :
    (stmt.relabel (.move place)).check scopes = (stmt.check scopes).move place Stmt.relabel := by
  cases stmt with
  | varDecl d => rw [Stmt.relabel, Stmt.check, Stmt.check, VarDecl.check_move]; rfl
  | assign a => rw [Stmt.relabel, Stmt.check, Stmt.check, Assignment.check_move]; rfl
  | ifElse condition thenBody elseBody span =>
    rw [Stmt.relabel, Stmt.check, Stmt.check, Expr.check_move]
    rcases condition.check scopes with ⟨condition', e | _⟩
    · rfl
    simp only [mapError_ok, thenBody.check_move]
    rcases thenBody.check scopes with ⟨thenBody', scopes₁, e | _⟩
    · rfl
    simp only [Checked.move, mapError_ok, checkElse_move elseBody]
    rfl
  | whileLoop condition body span =>
    rw [Stmt.relabel, Stmt.check, Stmt.check, Expr.check_move]
    rcases condition.check scopes with ⟨condition', e | _⟩
    · rfl
    simp only [mapError_ok, body.check_move]
    rfl
  | forLoop init condition update body span =>
    rw [Stmt.relabel, Stmt.check, Stmt.check, init.check_move]
    rcases init.check (Scoping.pushHeader scopes) with ⟨init', scopes₁, e | _⟩
    · rfl
    simp only [Checked.move, mapError_ok, Expr.check_move]
    rcases condition.check scopes₁ with ⟨condition', e | _⟩
    · rfl
    simp only [mapError_ok, Assignment.check_move]
    rcases update.check scopes₁ with ⟨update', e | _⟩
    · rfl
    simp only [body.check_move]
    rfl
  | ret r => rw [Stmt.relabel, Stmt.check, Stmt.check, Return.check_move]; rfl
  | block b => rw [Stmt.relabel, Stmt.check, Stmt.check, b.check_move]; rfl
termination_by structural stmt

theorem checkElse_move (block : Option Block) (scopes : Scopes) :
    checkElse scopes (relabelElse (.move place) block) =
      (checkElse scopes block).move place relabelElse := by
  cases block with
  | none => rfl
  | some b =>
    rw [relabelElse, checkElse, checkElse, b.check_move]
    rfl
termination_by structural block

theorem Block.check_move (block : Block) (scopes : Scopes) :
    (block.relabel (.move place)).check scopes =
      (block.check scopes).move place Block.relabel := by
  obtain ⟨body, id, span⟩ := block
  rw [Block.relabel, Block.check, Block.check, Relabel.move_id, checkAll_move body]
  rfl
termination_by structural block

theorem checkAll_move (stmts : List Stmt) (scopes : Scopes) :
    checkAll scopes (relabelAll (.move place) stmts) =
      (checkAll scopes stmts).move place relabelAll := by
  cases stmts with
  | nil => rfl
  | cons stmt stmts =>
    rw [relabelAll, checkAll, checkAll, stmt.check_move]
    rcases stmt.check scopes with ⟨stmt', scopes₁, e | _⟩
    · rfl
    simp only [Checked.move, mapError_ok, checkAll_move stmts]
    rfl
termination_by structural stmts

end

end

end MiniC
