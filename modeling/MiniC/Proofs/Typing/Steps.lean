import MiniC.Typing.Node

/-!
The steps of a check. A check changes the scopes in few ways: it opens and closes them, and declares
variables in the innermost one. Over scopes that keep a record of these steps the check comes to the
same, so the record tells every state of the scopes that the check goes through, whether it succeeds
or stops at an error.
-/

namespace MiniC

namespace Scopes

/-- A change that a check makes to the scopes. -/
inductive Step where
  /-- A block opens its scope. -/
  | block (id : Int32)
  /-- The header of a `for` opens its scope. -/
  | header
  | declare (decl : VarDecl)
  | close

/-- The scopes after a step. -/
def after (scopes : Scopes) : Step → Scopes
  | .block id => scopes.push id
  | .header => scopes.pushHeader
  | .declare decl =>
    match scopes.declare decl.name decl.type decl.span.start with
    | .ok scopes => scopes
    | .error _ => scopes
  | .close => scopes.pop

/-- The scopes after some steps. -/
def replay (scopes : Scopes) (steps : List Step) : Scopes :=
  steps.foldl after scopes

variable (scopes : Scopes)

@[simp] theorem replay_nil : scopes.replay [] = scopes := rfl

@[simp] theorem replay_cons (step : Step) (steps : List Step) :
    scopes.replay (step :: steps) = (scopes.after step).replay steps := rfl

@[simp] theorem replay_append (steps steps' : List Step) :
    scopes.replay (steps ++ steps') = (scopes.replay steps).replay steps' :=
  List.foldl_append

@[simp] theorem replay_concat (steps : List Step) (step : Step) :
    scopes.replay (steps ++ [step]) = (scopes.replay steps).after step := by
  simp

/-- Scopes with a record of the steps that have led to them. -/
structure Recorded (start : Scopes) where
  scopes : Scopes
  steps : List Step
  replay_steps : start.replay steps = scopes

/-- The record before the first step. -/
def recorded (start : Scopes) : Recorded start := ⟨start, [], rfl⟩

namespace Recorded

variable {start : Scopes}

/-- Only a declaration that succeeds is a step. -/
def declare (r : Recorded start) (d : VarDecl) : Except Diagnostic (Recorded start) :=
  match h : r.scopes.declare d.name d.type d.span.start with
  | .error e => .error e
  | .ok scopes => .ok {
      scopes := scopes
      steps := r.steps ++ [.declare d]
      replay_steps := by rw [replay_concat, r.replay_steps, after, h] }

instance : Scoping (Recorded start) where
  fetch r := r.scopes.fetch
  declare := declare
  push r id := {
    scopes := r.scopes.push id
    steps := r.steps ++ [.block id]
    replay_steps := by rw [replay_concat, r.replay_steps, after] }
  pushHeader r := {
    scopes := r.scopes.pushHeader
    steps := r.steps ++ [.header]
    replay_steps := by rw [replay_concat, r.replay_steps, after] }
  pop r := {
    scopes := r.scopes.pop
    steps := r.steps ++ [.close]
    replay_steps := by rw [replay_concat, r.replay_steps, after] }

/-- What a declaration comes to does not depend on the record. -/
theorem declare_scopes (r : Recorded start) (d : VarDecl) :
    r.scopes.declare d.name d.type d.span.start = (r.declare d).map Recorded.scopes := by
  unfold declare
  split <;> next h => exact h

end Recorded

end Scopes

/-! A check comes to the same over any two states that answer alike. -/

/-- A map from one state to another that all operations respect. -/
structure Scoping.Hom {σ τ : Type} [Scoping σ] [Scoping τ] (f : σ → τ) : Prop where
  fetch : ∀ s name position, fetch (f s) name position = fetch s name position
  declare : ∀ s d, declare (f s) d = (declare s d).map f
  push : ∀ s id, push (f s) id = f (push s id)
  pushHeader : ∀ s, pushHeader (f s) = f (pushHeader s)
  pop : ∀ s, pop (f s) = f (pop s)

/-- The scopes behind a record. -/
theorem Scopes.Recorded.hom (start : Scopes) : Scoping.Hom (@Recorded.scopes start) where
  fetch _ _ _ := rfl
  declare := declare_scopes
  push _ _ := rfl
  pushHeader _ := rfl
  pop _ := rfl

/-- What a check leaves behind, with the scopes seen through a map. -/
def Checked.map {σ τ α : Type} (f : σ → τ) (checked : Checked σ α) : Checked τ α :=
  ⟨checked.tree, f checked.scopes, checked.result⟩

section

variable {σ τ : Type} [Scoping σ] [Scoping τ] {f : σ → τ}

theorem Expr.check_hom (hf : Scoping.Hom f) (s : σ) (e : Expr) : e.check (f s) = e.check s := by
  induction e with
  | integer | float | string => rfl
  | symbol name type span => rw [check, check, hf.fetch]
  | binary left op right type span ihl ihr => rw [check, check, ihl, ihr]
  | unary op operand type span ih => rw [check, check, ih]

theorem checkOptional_hom (hf : Scoping.Hom f) (s : σ) (e : Option Expr) :
    checkOptional (f s) e = checkOptional s e := by
  cases e with
  | none => rfl
  | some e => rw [checkOptional, checkOptional, e.check_hom hf]

theorem Assignment.check_hom (hf : Scoping.Hom f) (s : σ) (a : Assignment) :
    a.check (f s) = a.check s := by
  rw [check, check, hf.fetch, a.value.check_hom hf]

theorem Return.check_hom (hf : Scoping.Hom f) (s : σ) (r : Return) : r.check (f s) = r.check s := by
  rw [check, check, checkOptional_hom hf]

theorem VarDecl.check_hom (hf : Scoping.Hom f) (s : σ) (d : VarDecl) :
    d.check (f s) = (d.check s).map f := by
  obtain ⟨name, type, init, span⟩ := d
  cases init with
  | none =>
    simp only [check, hf.declare]
    cases Scoping.declare s (⟨name, type, none, span⟩ : VarDecl) <;> rfl
  | some init =>
    simp only [check, hf.declare, init.check_hom hf]
    rcases init.check s with ⟨init', e | initType⟩
    · rfl
    dsimp only
    cases type.checkAccepts initType init'.span.start with
    | error e => rfl
    | ok _ => cases Scoping.declare s (⟨name, type, some init', span⟩ : VarDecl) <;> rfl

mutual

theorem Stmt.check_hom (hf : Scoping.Hom f) (stmt : Stmt) (s : σ) :
    stmt.check (f s) = (stmt.check s).map f := by
  cases stmt with
  | varDecl d => rw [Stmt.check, Stmt.check, d.check_hom hf]; rfl
  | assign a => rw [Stmt.check, Stmt.check, a.check_hom hf]; rfl
  | ifElse condition thenBody elseBody span =>
    rw [Stmt.check, Stmt.check, condition.check_hom hf, thenBody.check_hom hf]
    rcases condition.check s with ⟨condition', e | _⟩
    · rfl
    dsimp only
    rcases thenBody.check s with ⟨thenBody', s₁, e | _⟩
    · rfl
    simp only [Checked.map, checkElse_hom hf elseBody]
  | whileLoop condition body span =>
    rw [Stmt.check, Stmt.check, condition.check_hom hf, body.check_hom hf]
    rcases condition.check s with ⟨condition', e | _⟩ <;> rfl
  | forLoop init condition update body span =>
    rw [Stmt.check, Stmt.check, hf.pushHeader, init.check_hom hf]
    rcases init.check (Scoping.pushHeader s) with ⟨init', s₁, e | _⟩
    · simp only [Checked.map, hf.pop]
    simp only [Checked.map, condition.check_hom hf, update.check_hom hf, body.check_hom hf]
    rcases condition.check s₁ with ⟨condition', e | _⟩
    · simp only [hf.pop]
    rcases update.check s₁ with ⟨update', e | _⟩ <;> simp only [hf.pop]
  | ret r => rw [Stmt.check, Stmt.check, r.check_hom hf]; rfl
  | block b => rw [Stmt.check, Stmt.check, b.check_hom hf]; rfl
termination_by structural stmt

theorem checkElse_hom (hf : Scoping.Hom f) (block : Option Block) (s : σ) :
    checkElse (f s) block = (checkElse s block).map f := by
  cases block with
  | none => rfl
  | some b => rw [checkElse, checkElse, b.check_hom hf]; rfl
termination_by structural block

theorem Block.check_hom (hf : Scoping.Hom f) (block : Block) (s : σ) :
    block.check (f s) = (block.check s).map f := by
  obtain ⟨body, id, span⟩ := block
  simp only [Block.check, hf.push, checkAll_hom hf body, Checked.map, hf.pop]
termination_by structural block

theorem checkAll_hom (hf : Scoping.Hom f) (stmts : List Stmt) (s : σ) :
    checkAll (f s) stmts = (checkAll s stmts).map f := by
  cases stmts with
  | nil => rfl
  | cons stmt stmts =>
    rw [checkAll, checkAll, stmt.check_hom hf]
    rcases stmt.check s with ⟨stmt', s₁, e | _⟩
    · rfl
    simp only [Checked.map, checkAll_hom hf stmts]
termination_by structural stmts

end

end

/-- The steps of the check of a program, as the check itself records them. -/
def Program.steps (p : Program) : List Scopes.Step :=
  (checkAll (Scopes.recorded .fresh) p.body).scopes.steps

end MiniC
