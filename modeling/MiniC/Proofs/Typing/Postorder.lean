import MiniC.Proofs.Typing.System
import MiniC.Tree.Node

/-!
The nodes of a tree in the order in which a check finds their types, each with the context in which
it is judged. This is post-order: what is below a node comes before the node, in source order.
-/

namespace MiniC

open Typing

mutual

/-- A list has the nodes of a tree in post-order: those below each child in source order, and the
root last. -/
inductive Postorder : Node → List Node → Prop where
  | root {node below} : PostorderAll node.children below → Postorder node (below ++ [node])

/-- A list has the nodes of trees that stand side by side. -/
inductive PostorderAll : List Node → List Node → Prop where
  | nil : PostorderAll [] []
  | cons {node nodes rest nodes'} : Postorder node nodes → PostorderAll rest nodes' →
      PostorderAll (node :: rest) (nodes ++ nodes')

end

/-- A node with the context in which it is judged. -/
structure Site where
  context : Context
  node : Node

/-- The sites of an expression. -/
def Expr.sites (context : Context) : Expr → List Site
  | .binary left op right type span =>
    left.sites context ++ right.sites context ++
      [⟨context, .expr (.binary left op right type span)⟩]
  | .unary op operand type span =>
    operand.sites context ++ [⟨context, .expr (.unary op operand type span)⟩]
  | expr => [⟨context, .expr expr⟩]

/-- The sites below an expression that may be missing. -/
def sitesOptional (context : Context) (expr : Option Expr) : List Site :=
  expr.toList.flatMap (·.sites context)

theorem sitesOptional_some (context : Context) (expr : Expr) :
    sitesOptional context (some expr) = expr.sites context :=
  List.append_nil _

/-- The sites below an assignment. -/
def Assignment.sitesParts (context : Context) (assignment : Assignment) : List Site :=
  assignment.value.sites context

/-- The context with the variable of a declaration in the innermost frame. -/
def VarDecl.contextAfter (decl : VarDecl) : Context → Context
  | [] => []
  | frame :: outer => ((decl.name, decl.type) :: frame) :: outer

/-- The context of what follows a statement. -/
def Stmt.contextAfter (context : Context) : Stmt → Context
  | .varDecl decl => decl.contextAfter context
  | _ => context

mutual

def Stmt.sites (context : Context) : Stmt → List Site
  | .varDecl decl => sitesOptional context decl.init ++ [⟨context, .stmt (.varDecl decl)⟩]
  | .assign assignment =>
    assignment.sitesParts context ++ [⟨context, .stmt (.assign assignment)⟩]
  | .ifElse condition thenBody elseBody span =>
    condition.sites context ++ thenBody.sites context ++ sitesElse context elseBody ++
      [⟨context, .stmt (.ifElse condition thenBody elseBody span)⟩]
  | .whileLoop condition body span =>
    condition.sites context ++ body.sites context ++
      [⟨context, .stmt (.whileLoop condition body span)⟩]
  | .forLoop init condition update body span =>
    -- the variable of the header is there for all that comes after it
    let header := init.contextAfter ([] :: context)
    init.sites ([] :: context) ++ condition.sites header ++
      (update.sitesParts header ++ [⟨header, .assignment update⟩]) ++ body.sites header ++
      [⟨context, .stmt (.forLoop init condition update body span)⟩]
  | .ret r => sitesOptional context r.value ++ [⟨context, .stmt (.ret r)⟩]
  | .block ⟨body, id, span⟩ =>
    sitesAll ([] :: context) body ++ [⟨context, .stmt (.block ⟨body, id, span⟩)⟩]
termination_by structural stmt => stmt

/-- The sites of the block of an `else`, if there is one. -/
def sitesElse (context : Context) : Option Block → List Site
  | none => []
  | some block => block.sites context
termination_by structural block => block

def Block.sites (context : Context) : Block → List Site
  | ⟨body, id, span⟩ => sitesAll ([] :: context) body ++ [⟨context, .block ⟨body, id, span⟩⟩]
termination_by structural block => block

/-- The sites of statements, where each is judged after those before it. -/
def sitesAll (context : Context) : List Stmt → List Site
  | [] => []
  | stmt :: stmts => stmt.sites context ++ sitesAll (stmt.contextAfter context) stmts
termination_by structural stmts => stmts

end

/-- The sites of a program, which is judged from an empty global scope. -/
def Program.sites (p : Program) : List Site :=
  sitesAll [[]] p.body ++ [⟨[[]], .program p⟩]

/-- A statement leads to the context that its declaration makes. -/
theorem Typing.Statement.contextAfter_eq {mark : Mark} {context context' : Context} {stmt : Stmt}
    (h : Statement mark context stmt context') : context' = stmt.contextAfter context := by
  cases h with
  | varDecl h => cases h <;> rfl
  | _ => rfl

/-! The sites of a tree are its nodes in post-order. -/

theorem Postorder.leaf {node : Node} (h : node.children = []) : Postorder node [node] := by
  have hbelow : PostorderAll node.children [] := h ▸ .nil
  exact .root hbelow

theorem PostorderAll.single {node : Node} {nodes : List Node} (h : Postorder node nodes) :
    PostorderAll [node] nodes := by
  have h := PostorderAll.cons h .nil
  rwa [List.append_nil] at h

/-- A site that comes after those below it. -/
theorem Site.postorder (site : Site) {below : List Site}
    (h : PostorderAll site.node.children (below.map node)) :
    Postorder site.node ((below ++ [site]).map node) := by
  rw [List.map_append]
  exact .root h

theorem Expr.postorder (e : Expr) (context : Context) :
    Postorder (.expr e) ((e.sites context).map Site.node) := by
  induction e with
  | integer | float | string | symbol => exact .leaf rfl
  | binary left op right type span ihl ihr =>
    apply Site.postorder ⟨context, .expr (.binary left op right type span)⟩
    rw [List.map_append]
    exact .cons ihl (.single ihr)
  | unary op operand type span ih =>
    exact Site.postorder ⟨context, .expr (.unary op operand type span)⟩ (.single ih)

theorem postorderAll_optional (e : Option Expr) (context : Context) :
    PostorderAll (e.toList.map .expr) ((sitesOptional context e).map Site.node) := by
  cases e with
  | none => exact .nil
  | some e =>
    rw [sitesOptional_some]
    exact .single (e.postorder context)

mutual

theorem Stmt.postorder (stmt : Stmt) (context : Context) :
    Postorder (.stmt stmt) ((stmt.sites context).map Site.node) := by
  cases stmt with
  | varDecl d =>
    exact Site.postorder ⟨context, .stmt (.varDecl d)⟩ (postorderAll_optional d.init context)
  | assign a =>
    exact Site.postorder ⟨context, .stmt (.assign a)⟩ (.single (a.value.postorder context))
  | ifElse condition thenBody elseBody span =>
    have hcondition := condition.postorder context
    have hthen := thenBody.postorder context
    have helse := postorderAll_else elseBody context
    apply Site.postorder ⟨context, .stmt (.ifElse condition thenBody elseBody span)⟩
    rw [List.map_append, List.map_append, List.append_assoc]
    exact .cons hcondition (.cons hthen helse)
  | whileLoop condition body span =>
    apply Site.postorder ⟨context, .stmt (.whileLoop condition body span)⟩
    rw [List.map_append]
    exact .cons (condition.postorder context) (.single (body.postorder context))
  | forLoop init condition update body span =>
    let header := init.contextAfter ([] :: context)
    have hinit := init.postorder ([] :: context)
    have hcondition := condition.postorder header
    have hupdate := Site.postorder ⟨header, .assignment update⟩
      (.single (update.value.postorder header))
    have hbody := body.postorder header
    apply Site.postorder ⟨context, .stmt (.forLoop init condition update body span)⟩
    rw [List.map_append, List.map_append, List.map_append, List.append_assoc, List.append_assoc]
    exact .cons hinit (.cons hcondition (.cons hupdate (.single hbody)))
  | ret r => exact Site.postorder ⟨context, .stmt (.ret r)⟩ (postorderAll_optional r.value context)
  | block b =>
    obtain ⟨body, id, span⟩ := b
    exact Site.postorder ⟨context, .stmt (.block ⟨body, id, span⟩)⟩
      (postorderAll_sitesAll body ([] :: context))
termination_by structural stmt

theorem postorderAll_else (block : Option Block) (context : Context) :
    PostorderAll (block.toList.map .block) ((sitesElse context block).map Site.node) := by
  cases block with
  | none => exact .nil
  | some b => exact .single (b.postorder context)
termination_by structural block

theorem Block.postorder (block : Block) (context : Context) :
    Postorder (.block block) ((block.sites context).map Site.node) := by
  obtain ⟨body, id, span⟩ := block
  exact Site.postorder ⟨context, .block ⟨body, id, span⟩⟩
    (postorderAll_sitesAll body ([] :: context))
termination_by structural block

theorem postorderAll_sitesAll (stmts : List Stmt) (context : Context) :
    PostorderAll (stmts.map .stmt) ((sitesAll context stmts).map Site.node) := by
  cases stmts with
  | nil => exact .nil
  | cons stmt stmts =>
    rw [sitesAll, List.map_append]
    exact .cons (stmt.postorder context) (postorderAll_sitesAll stmts _)
termination_by structural stmts

end

theorem Program.postorder (p : Program) : Postorder (.program p) (p.sites.map Site.node) :=
  Site.postorder ⟨[[]], .program p⟩ (postorderAll_sitesAll p.body [[]])

end MiniC
