import MiniC.Proofs.Source.Row
import MiniC.Proofs.Tree.Walk
import MiniC.Token.Basic

/-!
Walks and parts. A walk visits a node and then, one level deeper, what it visits from each of its
parts; so what holds of each node and its parts holds along the walk.
-/

namespace MiniC

/-- The nodes of a tree from a node at `depth` down. -/
def Node.walkFrom (depth : Nat) : Node → List (Nat × Node)
  | .program p => (depth, .program p) :: walkAll (depth + 1) p.body
  | .stmt s => s.walk depth
  | .block b => b.walk depth
  | .assignment a => (depth, .assignment a) :: a.walkParts depth
  | .expr e => e.walk depth

namespace Node

theorem walk_eq_walkFrom (node : Node) : node.walk = node.walkFrom 0 := by
  cases node <;> rfl

theorem flatMap_walkFrom_stmt (stmts : List Stmt) (depth : Nat) :
    (stmts.map Node.stmt).flatMap (walkFrom depth) = walkAll depth stmts := by
  induction stmts with
  | nil => rfl
  | cons stmt stmts ih => rw [List.map_cons, List.flatMap_cons, ih, walkAll, walkFrom]

theorem flatMap_walkFrom_expr (e : Option Expr) (depth : Nat) :
    (e.toList.map Node.expr).flatMap (walkFrom depth) = e.toList.flatMap (·.walk depth) := by
  cases e <;> rfl

theorem flatMap_walkFrom_else (b : Option Block) (depth : Nat) :
    (b.toList.map Node.block).flatMap (walkFrom depth) = walkElse depth b := by
  cases b with
  | none => rfl
  | some b => exact List.append_nil _

/-- A walk is the node and the walks of its parts. -/
theorem walkFrom_eq (node : Node) (depth : Nat) :
    node.walkFrom depth = (depth, node) :: node.children.flatMap (walkFrom (depth + 1)) := by
  cases node with
  | program p => rw [walkFrom, children, flatMap_walkFrom_stmt]
  | block b =>
    obtain ⟨body, id, span⟩ := b
    rw [walkFrom, children, flatMap_walkFrom_stmt, Block.walk]
  | assignment a => simp [walkFrom, children, Assignment.walkParts]
  | expr e => cases e <;> simp [walkFrom, children, Expr.walk]
  | stmt stmt =>
    cases stmt with
    | varDecl d => rw [walkFrom, children, flatMap_walkFrom_expr, Stmt.walk]
    | assign a => simp [walkFrom, children, Stmt.walk, Assignment.walkParts]
    | ifElse condition thenBody elseBody span =>
      rw [children, List.flatMap_cons, List.flatMap_cons, flatMap_walkFrom_else]
      simp [walkFrom, Stmt.walk]
    | whileLoop => simp [walkFrom, children, Stmt.walk]
    | forLoop => simp [walkFrom, children, Stmt.walk, Assignment.walkParts]
    | ret r => rw [walkFrom, children, flatMap_walkFrom_expr, Stmt.walk]
    | block b =>
      obtain ⟨body, id, span⟩ := b
      rw [walkFrom, children, flatMap_walkFrom_stmt, Stmt.walk]

/-- A node starts where a token does, and stops where one does. -/
structure Marked (tokens : List Token) (node : Node) : Prop where
  start : ∃ token ∈ tokens, node.span.start = token.span.start
  stop : ∃ token ∈ tokens, node.span.stop = token.span.stop

/-- From a node down, the parts of each node lie in it in a row, between places of tokens. -/
inductive Nested (tokens : List Token) : Node → Prop where
  | intro {node : Node} :
      Row node.span.start.offset.toNat (node.children.map span) node.span.stop.offset.toNat →
      (∀ child ∈ node.children, child.Marked tokens) →
      (∀ child ∈ node.children, Nested tokens child) → Nested tokens node

/-- A node that is found below another one. -/
structure Below (tokens : List Token) (node outer : Node) : Prop where
  nested : node.Nested tokens
  marked : node.Marked tokens
  start : outer.span.start.offset.toNat ≤ node.span.start.offset.toNat
  nonempty : node.span.start.offset.toNat < node.span.stop.offset.toNat
  stop : node.span.stop.offset.toNat ≤ outer.span.stop.offset.toNat

variable {tokens : List Token} {node inner outer child : Node}

theorem Below.trans (h : inner.Below tokens outer) (h' : node.Below tokens inner) :
    node.Below tokens outer where
  nested := h'.nested
  marked := h'.marked
  start := Nat.le_trans h.start h'.start
  nonempty := h'.nonempty
  stop := Nat.le_trans h'.stop h.stop

namespace Nested

theorem row (h : node.Nested tokens) :
    Row node.span.start.offset.toNat (node.children.map span) node.span.stop.offset.toNat := by
  cases h with
  | intro hrow _ _ => exact hrow

theorem part (h : node.Nested tokens) (hc : child ∈ node.children) : child.Below tokens node := by
  cases h with
  | intro hrow hmarked hnested =>
    obtain ⟨hstart, hlt, hstop⟩ := hrow.mem (List.mem_map_of_mem hc)
    exact ⟨hnested child hc, hmarked child hc, hstart, hlt, hstop⟩

/-- A walk visits the root, and then what is below it. -/
theorem visits (h : node.Nested tokens) (depth : Nat) :
    ∀ visited ∈ (node.walkFrom depth).tail, visited.2.Below tokens node := by
  induction h generalizing depth with
  | @intro node hrow hmarked hnested ih =>
    intro visited hvisited
    rw [walkFrom_eq, List.tail_cons] at hvisited
    obtain ⟨child, hmem, hvisited⟩ := List.mem_flatMap.1 hvisited
    have hchild := (Nested.intro hrow hmarked hnested).part hmem
    have htail := ih child hmem (depth + 1)
    rw [walkFrom_eq] at hvisited htail
    rcases List.mem_cons.1 hvisited with rfl | hvisited
    · exact hchild
    · exact hchild.trans (htail visited hvisited)

theorem walk (h : node.Nested tokens) (depth : Nat) :
    ∀ visited ∈ node.walkFrom depth, visited.2.Nested tokens := by
  have hbelow := h.visits depth
  rw [walkFrom_eq] at hbelow ⊢
  exact List.forall_mem_cons.2 ⟨h, fun visited hvisited => (hbelow visited hvisited).nested⟩

/-- A walk visits nothing that starts before the root, and from a root that is not empty nothing
that starts behind it. -/
theorem starts (h : node.Nested tokens)
    (hne : node.span.start.offset.toNat < node.span.stop.offset.toNat) (depth : Nat) :
    ∀ visited ∈ node.walkFrom depth,
      node.span.start.offset.toNat ≤ visited.2.span.start.offset.toNat ∧
        visited.2.span.start.offset.toNat < node.span.stop.offset.toNat := by
  have hbelow := h.visits depth
  rw [walkFrom_eq] at hbelow ⊢
  refine List.forall_mem_cons.2 ⟨⟨Nat.le_refl _, hne⟩, fun visited hvisited => ?_⟩
  have hb := hbelow visited hvisited
  exact ⟨hb.start, Nat.lt_of_lt_of_le hb.nonempty hb.stop⟩

/-- A walk visits nodes in the order in which they start. -/
theorem pairwise (h : node.Nested tokens) (depth : Nat) :
    (node.walkFrom depth).Pairwise fun visited next =>
      visited.2.span.start.offset.toNat ≤ next.2.span.start.offset.toNat := by
  induction h generalizing depth with
  | @intro node hrow hmarked hnested ih =>
    have hnode := Nested.intro hrow hmarked hnested
    have hbelow := hnode.visits depth
    rw [walkFrom_eq] at hbelow ⊢
    refine .cons (fun next hnext => (hbelow next hnext).start) (List.pairwise_flatMap.2 ⟨?_, ?_⟩)
    · exact fun child hchild => ih child hchild _
    -- what is visited from one part starts before its end, so before all that comes next
    · refine (List.pairwise_map.1 hrow.pairwise).imp_of_mem fun {child next} hc hn hle => ?_
      intro visited hvisited visited' hvisited'
      have hchild := hnode.part hc
      have hnext := hnode.part hn
      have hlt := (hchild.nested.starts hchild.nonempty _ visited hvisited).2
      have hge := (hnext.nested.starts hnext.nonempty _ visited' hvisited').1
      omega

end Nested

end Node

end MiniC
