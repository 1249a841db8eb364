import MiniC.Tree.Node
import MiniC.Typing.Check

/-!
Type checking of statements, of programs, and of any node by itself. A block and the header of a
`for` have a scope of their own, which is closed whether the check succeeds or not.
-/

namespace MiniC

section

variable {σ : Type} [Scoping σ]

mutual

/-- Annotates a statement. Conditions may have any type. -/
def Stmt.check (scopes : σ) : Stmt → Checked σ Stmt
  | .varDecl decl =>
    match decl.check scopes with
    | ⟨decl, scopes, result⟩ => ⟨.varDecl decl, scopes, result⟩
  | .assign assignment =>
    match assignment.check scopes with
    | (assignment, result) => ⟨.assign assignment, scopes, result⟩
  | .ifElse condition thenBody elseBody span =>
    match condition.check scopes with
    | (condition, .error e) => ⟨.ifElse condition thenBody elseBody span, scopes, .error e⟩
    | (condition, .ok _) =>
      match thenBody.check scopes with
      | ⟨thenBody, scopes, .error e⟩ =>
        ⟨.ifElse condition thenBody elseBody span, scopes, .error e⟩
      | ⟨thenBody, scopes, .ok ()⟩ =>
        match checkElse scopes elseBody with
        | ⟨elseBody, scopes, result⟩ => ⟨.ifElse condition thenBody elseBody span, scopes, result⟩
  | .whileLoop condition body span =>
    match condition.check scopes with
    | (condition, .error e) => ⟨.whileLoop condition body span, scopes, .error e⟩
    | (condition, .ok _) =>
      match body.check scopes with
      | ⟨body, scopes, result⟩ => ⟨.whileLoop condition body span, scopes, result⟩
  | .forLoop init condition update body span =>
    match init.check (Scoping.pushHeader scopes) with
    | ⟨init, scopes, .error e⟩ =>
      ⟨.forLoop init condition update body span, Scoping.pop scopes, .error e⟩
    | ⟨init, scopes, .ok ()⟩ =>
      match condition.check scopes with
      | (condition, .error e) =>
        ⟨.forLoop init condition update body span, Scoping.pop scopes, .error e⟩
      | (condition, .ok _) =>
        match update.check scopes with
        | (update, .error e) =>
          ⟨.forLoop init condition update body span, Scoping.pop scopes, .error e⟩
        | (update, .ok ()) =>
          match body.check scopes with
          | ⟨body, scopes, result⟩ =>
            ⟨.forLoop init condition update body span, Scoping.pop scopes, result⟩
  | .ret r =>
    match r.check scopes with
    | (r, result) => ⟨.ret r, scopes, result⟩
  | .block b =>
    match b.check scopes with
    | ⟨b, scopes, result⟩ => ⟨.block b, scopes, result⟩
termination_by structural stmt => stmt

/-- Annotates the block of an `else`, if there is one. -/
def checkElse (scopes : σ) : Option Block → Checked σ (Option Block)
  | none => ⟨none, scopes, .ok ()⟩
  | some block =>
    match block.check scopes with
    | ⟨block, scopes, result⟩ => ⟨some block, scopes, result⟩
termination_by structural block => block

/-- Annotates a block in a scope of its own. -/
def Block.check (scopes : σ) : Block → Checked σ Block
  | ⟨body, id, span⟩ =>
    match checkAll (Scoping.push scopes id) body with
    | ⟨body, scopes, result⟩ => ⟨⟨body, id, span⟩, Scoping.pop scopes, result⟩
termination_by structural block => block

/-- Annotates statements in order, up to the first error. -/
def checkAll (scopes : σ) : List Stmt → Checked σ (List Stmt)
  | [] => ⟨[], scopes, .ok ()⟩
  | stmt :: stmts =>
    match stmt.check scopes with
    | ⟨stmt, scopes, .error e⟩ => ⟨stmt :: stmts, scopes, .error e⟩
    | ⟨stmt, scopes, .ok ()⟩ =>
      match checkAll scopes stmts with
      | ⟨stmts, scopes, result⟩ => ⟨stmt :: stmts, scopes, result⟩
termination_by structural stmts => stmts

end

end

/-- Annotates a whole program, starting from an empty global scope. -/
def Program.check (program : Program) : Program × Except Diagnostic Unit :=
  match checkAll Scopes.fresh program.body with
  | ⟨body, _, result⟩ => ({ program with body := body }, result)

/-- Annotates a node in the given scopes. -/
def Node.check (scopes : Scopes) : Node → Checked Scopes Node
  | .program p =>
    match checkAll scopes p.body with
    | ⟨body, scopes, result⟩ => ⟨.program { p with body := body }, scopes, result⟩
  | .stmt s =>
    match s.check scopes with
    | ⟨s, scopes, result⟩ => ⟨.stmt s, scopes, result⟩
  | .block b =>
    match b.check scopes with
    | ⟨b, scopes, result⟩ => ⟨.block b, scopes, result⟩
  | .assignment a =>
    match a.check scopes with
    | (a, result) => ⟨.assignment a, scopes, result⟩
  | .expr e =>
    match e.check scopes with
    | (e, .ok _) => ⟨.expr e, scopes, .ok ()⟩
    | (e, .error diagnostic) => ⟨.expr e, scopes, .error diagnostic⟩

end MiniC
