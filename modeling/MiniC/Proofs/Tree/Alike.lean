import MiniC.Proofs.Number.Text
import MiniC.Proofs.Text.Quoted
import MiniC.Proofs.Tree.Walk

/-!
Trees that are equal up to the places of their nodes.
-/

namespace MiniC

/-- Floats are equal if their texts are. -/
inductive Expr.Alike : Expr → Expr → Prop where
  | integer {value span span'} : Alike (.integer value span) (.integer value span')
  | float {value value' span span'} : value.text = value'.text →
      Alike (.float value span) (.float value' span')
  | string {value span span'} : Alike (.string value span) (.string value span')
  | symbol {name type span span'} : Alike (.symbol name type span) (.symbol name type span')
  | binary {left left' op right right' type span span'} : Alike left left' → Alike right right' →
      Alike (.binary left op right type span) (.binary left' op right' type span')
  | unary {op operand operand' type span span'} : Alike operand operand' →
      Alike (.unary op operand type span) (.unary op operand' type span')

/-- Declarations that are equal up to places. -/
structure VarDecl.Alike (d d' : VarDecl) : Prop where
  name : d.name = d'.name
  type : d.type = d'.type
  init : Option.Rel Expr.Alike d.init d'.init

/-- Assignments that are equal up to places. -/
structure Assignment.Alike (a a' : Assignment) : Prop where
  name : a.name = a'.name
  value : a.value.Alike a'.value
  type : a.type = a'.type

/-- Returns that are equal up to places. -/
structure Return.Alike (r r' : Return) : Prop where
  value : Option.Rel Expr.Alike r.value r'.value
  type : r.type = r'.type

mutual

/-- Statements that are equal up to places. -/
inductive Stmt.Alike : Stmt → Stmt → Prop where
  | varDecl {d d'} : d.Alike d' → Stmt.Alike (.varDecl d) (.varDecl d')
  | assign {a a'} : a.Alike a' → Stmt.Alike (.assign a) (.assign a')
  | ifElse {condition condition' thenBody thenBody' elseBody elseBody' span span'} :
      condition.Alike condition' → Block.Alike thenBody thenBody' →
      AlikeElse elseBody elseBody' →
      Stmt.Alike (.ifElse condition thenBody elseBody span)
        (.ifElse condition' thenBody' elseBody' span')
  | whileLoop {condition condition' body body' span span'} : condition.Alike condition' →
      Block.Alike body body' →
      Stmt.Alike (.whileLoop condition body span) (.whileLoop condition' body' span')
  | forLoop {init init' condition condition' update update' body body' span span'} :
      Stmt.Alike init init' → condition.Alike condition' → update.Alike update' →
      Block.Alike body body' →
      Stmt.Alike (.forLoop init condition update body span)
        (.forLoop init' condition' update' body' span')
  | ret {r r'} : r.Alike r' → Stmt.Alike (.ret r) (.ret r')
  | block {b b'} : Block.Alike b b' → Stmt.Alike (.block b) (.block b')

inductive AlikeElse : Option Block → Option Block → Prop where
  | none : AlikeElse none none
  | some {b b'} : Block.Alike b b' → AlikeElse (some b) (some b')

/-- The id of a block is part of it. -/
inductive Block.Alike : Block → Block → Prop where
  | mk {body body' id span span'} : AlikeAll body body' →
      Block.Alike ⟨body, id, span⟩ ⟨body', id, span'⟩

inductive AlikeAll : List Stmt → List Stmt → Prop where
  | nil : AlikeAll [] []
  | cons {stmt stmt' stmts stmts'} : Stmt.Alike stmt stmt' → AlikeAll stmts stmts' →
      AlikeAll (stmt :: stmts) (stmt' :: stmts')

end

/-- Equal up to where the nodes stand: all structure, names, operators, literals, types and ids of
blocks are the same. -/
def Program.Alike (p q : Program) : Prop :=
  AlikeAll p.body q.body

/-- What an outline shows of a node. -/
structure Node.Face where
  tag : Tag
  label? : Option String
  type? : Option DataType
  deriving DecidableEq

/-- What an outline shows of a node. -/
def Node.face (node : Node) : Face :=
  ⟨node.tag, node.label?, node.dataType?⟩

/-- What a node has itself, apart from its place: what an outline shows of it, and the id of a
block. -/
def Node.look (node : Node) : Face × Option Int32 :=
  (node.face, node.blockId?)

/-- The nodes of a walk as they look, each with its depth. -/
def looks (walk : List (Nat × Node)) : List (Nat × Node.Face × Option Int32) :=
  walk.map fun visited => (visited.1, visited.2.look)

@[simp] theorem looks_nil : looks [] = [] := rfl

@[simp] theorem looks_cons (depth : Nat) (node : Node) (walk : List (Nat × Node)) :
    looks ((depth, node) :: walk) = (depth, node.look) :: looks walk := rfl

@[simp] theorem looks_append (walk walk' : List (Nat × Node)) :
    looks (walk ++ walk') = looks walk ++ looks walk' :=
  List.map_append

/-! Operators are told by their lexemes. -/

theorem BinaryOp.lexeme_inj {op op' : BinaryOp} (h : op.lexeme = op'.lexeme) : op = op' := by
  have hfind : ∀ op ∈ all, ofLexeme? op.lexeme = some op := by decide
  have hall (op : BinaryOp) : op ∈ all := by cases op <;> decide
  exact Option.some.inj ((hfind op (hall op)).symm.trans (h ▸ hfind op' (hall op')))

theorem UnaryOp.lexeme_inj {op op' : UnaryOp} (h : op.lexeme = op'.lexeme) : op = op' := by
  cases op <;> cases op' <;> first | rfl | exact absurd h (by decide)

section

variable {depth : Nat} {node node' : Node} {walk below below' : List (Nat × Node)}
  {rest rest' : List (Nat × Node.Face × Option Int32)}

/-- Walks that look the same start with nodes that do. -/
theorem look_eq (hwalk : walk = (depth, node) :: below) {walk' : List (Nat × Node)}
    (hwalk' : walk' = (depth, node') :: below') (h : looks walk ++ rest = looks walk' ++ rest') :
    node.look = node'.look := by
  rw [hwalk, hwalk'] at h
  exact congrArg Prod.snd (List.cons.inj h).1

/-! Expressions. How many operands follow a node is told by its tag. -/

theorem Expr.look_eq {e e' : Expr}
    (h : looks (e.walk depth) ++ rest = looks (e'.walk depth) ++ rest') :
    e.tag = e'.tag ∧ e.label = e'.label ∧ e.dataType? = e'.dataType? := by
  have hlook := MiniC.look_eq (e.walk_eq depth) (e'.walk_eq depth) h
  injection hlook with hface
  injection hface with htag hlabel htype
  exact ⟨htag, Option.some.inj hlabel, htype⟩

/-- Expressions are told by their walks, whatever follows them. -/
theorem Expr.alike_of_looks {e e' : Expr}
    (h : looks (e.walk depth) ++ rest = looks (e'.walk depth) ++ rest') :
    e.Alike e' ∧ rest = rest' := by
  induction e generalizing e' depth rest rest' with
  | integer value span =>
    obtain ⟨htag, hlabel, htype⟩ := look_eq h
    cases e' with
    | integer value' span' =>
      -- the label is the value written out, which can be read back
      have hread := Number.readInt?_repr value.toInt
      rw [show value.toInt.repr = value'.toInt.repr from hlabel, Number.readInt?_repr] at hread
      obtain rfl : value = value' := Int64.toInt_inj.1 (Option.some.inj hread).symm
      exact ⟨.integer, (List.cons.inj h).2⟩
    | float | string => cases htype
    | symbol | binary | unary => cases htag
  | float value span =>
    obtain ⟨htag, hlabel, htype⟩ := look_eq h
    cases e' with
    | float value' span' => exact ⟨.float hlabel, (List.cons.inj h).2⟩
    | integer | string => cases htype
    | symbol | binary | unary => cases htag
  | string value span =>
    obtain ⟨htag, hlabel, htype⟩ := look_eq h
    cases e' with
    | string value' span' =>
      obtain rfl := Text.quoted_inj hlabel
      exact ⟨.string, (List.cons.inj h).2⟩
    | integer | float => cases htype
    | symbol | binary | unary => cases htag
  | symbol name type span =>
    obtain ⟨htag, hlabel, htype⟩ := look_eq h
    cases e' with
    | symbol name' type' span' =>
      obtain rfl : name = name' := hlabel
      obtain rfl : type = type' := htype
      exact ⟨.symbol, (List.cons.inj h).2⟩
    | integer | float | string | binary | unary => cases htag
  | binary left op right type span ihl ihr =>
    obtain ⟨htag, hlabel, htype⟩ := look_eq h
    cases e' with
    | binary left' op' right' type' span' =>
      obtain rfl := BinaryOp.lexeme_inj hlabel
      obtain rfl : type = type' := htype
      simp only [walk, looks_cons, looks_append, List.cons_append, List.append_assoc] at h
      obtain ⟨hleft, hparts⟩ := ihl (List.cons.inj h).2
      obtain ⟨hright, hrest⟩ := ihr hparts
      exact ⟨.binary hleft hright, hrest⟩
    | integer | float | string | symbol | unary => cases htag
  | unary op operand type span ih =>
    obtain ⟨htag, hlabel, htype⟩ := look_eq h
    cases e' with
    | unary op' operand' type' span' =>
      obtain rfl := UnaryOp.lexeme_inj hlabel
      obtain rfl : type = type' := htype
      obtain ⟨hoperand, hrest⟩ := ih (List.cons.inj h).2
      exact ⟨.unary hoperand, hrest⟩
    | integer | float | string | symbol | binary => cases htag

/-! Statements. What comes after the parts of a node stands further out than these. -/

/-- Nothing that stands at this depth or deeper comes first. -/
def Outside (depth : Nat) (rest : List (Nat × Node.Face × Option Int32)) : Prop :=
  ∀ first ∈ rest.head?, first.1 < depth

theorem Outside.weaken {depth' : Nat} (h : Outside depth rest) (hle : depth ≤ depth') :
    Outside depth' rest :=
  fun first hfirst => Nat.lt_of_lt_of_le (h first hfirst) hle

theorem outside_walk (hwalk : walk = (depth, node) :: below) :
    Outside (depth + 1) (looks walk ++ rest) := by
  simp [hwalk, Outside]

/-- What stands outside is not taken for a node. -/
theorem Outside.ne_walk (ho : Outside depth rest) (hwalk : walk = (depth, node) :: below) :
    rest ≠ looks walk ++ rest' := by
  rintro rfl
  rw [hwalk] at ho
  exact absurd (ho _ rfl) (Nat.lt_irrefl depth)

theorem alike_optional {e e' : Option Expr}
    (h : looks (e.toList.flatMap (·.walk depth)) ++ rest =
      looks (e'.toList.flatMap (·.walk depth)) ++ rest')
    (ho : Outside depth rest) (ho' : Outside depth rest') :
    Option.Rel Expr.Alike e e' ∧ rest = rest' := by
  cases e with
  | none =>
    cases e' with
    | none => exact ⟨.none, h⟩
    | some e' => exact absurd (by simpa using h) (ho.ne_walk (e'.walk_eq depth))
  | some e =>
    cases e' with
    | none => exact absurd (by simpa using h.symm) (ho'.ne_walk (e.walk_eq depth))
    | some e' =>
      obtain ⟨halike, hrest⟩ := Expr.alike_of_looks (by simpa using h)
      exact ⟨.some halike, hrest⟩

theorem Assignment.alike_of_looks {a a' : Assignment}
    (h : looks ((depth, .assignment a) :: a.walkParts depth) ++ rest =
      looks ((depth, .assignment a') :: a'.walkParts depth) ++ rest') :
    a.Alike a' ∧ rest = rest' := by
  obtain ⟨hhead, hparts⟩ := List.cons.inj h
  injection hhead with _ hlook
  injection hlook with hface
  injection hface with _ hname htype
  obtain ⟨hvalue, hrest⟩ := Expr.alike_of_looks hparts
  exact ⟨⟨Option.some.inj hname, hvalue, htype⟩, hrest⟩

theorem outside_walkElse (b : Option Block) (h : Outside depth rest) :
    Outside (depth + 1) (looks (walkElse depth b) ++ rest) := by
  cases b with
  | none => exact h.weaken (Nat.le_succ depth)
  | some b => exact outside_walk (b.walk_eq depth)

theorem outside_walkAll (stmts : List Stmt) (h : Outside depth rest) :
    Outside (depth + 1) (looks (walkAll depth stmts) ++ rest) := by
  cases stmts with
  | nil => exact h.weaken (Nat.le_succ depth)
  | cons stmt stmts => exact outside_walk (walkAll_eq stmt stmts depth)

end

mutual

theorem Stmt.alike_of_looks (stmt : Stmt) {stmt' : Stmt} {depth : Nat}
    {rest rest' : List (Nat × Node.Face × Option Int32)}
    (h : looks (stmt.walk depth) ++ rest = looks (stmt'.walk depth) ++ rest')
    (ho : Outside (depth + 1) rest) (ho' : Outside (depth + 1) rest') :
    stmt.Alike stmt' ∧ rest = rest' := by
  have hlook := look_eq (stmt.walk_eq depth) (stmt'.walk_eq depth) h
  injection hlook with hface hid
  injection hface with htag hlabel htype
  cases stmt with
  | varDecl d =>
    cases stmt' with
    | varDecl d' =>
      obtain ⟨hinit, hrest⟩ := alike_optional (List.cons.inj h).2 ho ho'
      exact ⟨.varDecl ⟨Option.some.inj hlabel, Option.some.inj htype, hinit⟩, hrest⟩
    | _ => cases htag
  | assign a =>
    cases stmt' with
    | assign a' =>
      obtain ⟨ha, hrest⟩ := Assignment.alike_of_looks h
      exact ⟨.assign ha, hrest⟩
    | _ => cases htag
  | ifElse condition thenBody elseBody span =>
    cases stmt' with
    | ifElse condition' thenBody' elseBody' span' =>
      simp only [Stmt.walk, looks_cons, looks_append, List.cons_append, List.append_assoc] at h
      obtain ⟨hcondition, hparts⟩ := Expr.alike_of_looks (List.cons.inj h).2
      obtain ⟨hthen, hparts⟩ := thenBody.alike_of_looks hparts (outside_walkElse elseBody ho)
        (outside_walkElse elseBody' ho')
      obtain ⟨helse, hrest⟩ := alikeElse_of_looks elseBody hparts ho ho'
      exact ⟨.ifElse hcondition hthen helse, hrest⟩
    | _ => cases htag
  | whileLoop condition body span =>
    cases stmt' with
    | whileLoop condition' body' span' =>
      simp only [Stmt.walk, looks_cons, looks_append, List.cons_append, List.append_assoc] at h
      obtain ⟨hcondition, hparts⟩ := Expr.alike_of_looks (List.cons.inj h).2
      obtain ⟨hbody, hrest⟩ := body.alike_of_looks hparts (ho.weaken (Nat.le_succ _))
        (ho'.weaken (Nat.le_succ _))
      exact ⟨.whileLoop hcondition hbody, hrest⟩
    | _ => cases htag
  | forLoop init condition update body span =>
    cases stmt' with
    | forLoop init' condition' update' body' span' =>
      simp only [Stmt.walk, looks_cons, looks_append, List.cons_append, List.append_assoc] at h
      obtain ⟨hinit, hparts⟩ := init.alike_of_looks (List.cons.inj h).2
        (outside_walk (condition.walk_eq _)) (outside_walk (condition'.walk_eq _))
      obtain ⟨hcondition, hparts⟩ := Expr.alike_of_looks hparts
      obtain ⟨hupdate, hparts⟩ := Assignment.alike_of_looks hparts
      obtain ⟨hbody, hrest⟩ := body.alike_of_looks hparts (ho.weaken (Nat.le_succ _))
        (ho'.weaken (Nat.le_succ _))
      exact ⟨.forLoop hinit hcondition hupdate hbody, hrest⟩
    | _ => cases htag
  | ret r =>
    cases stmt' with
    | ret r' =>
      obtain ⟨hvalue, hrest⟩ := alike_optional (List.cons.inj h).2 ho ho'
      exact ⟨.ret ⟨hvalue, htype⟩, hrest⟩
    | _ => cases htag
  | block b =>
    cases stmt' with
    | block b' =>
      -- apart from its head, the walk is that of the block
      obtain ⟨body, id, span⟩ := b
      obtain ⟨body', id', span'⟩ := b'
      obtain rfl : id = id' := Option.some.inj hid
      obtain ⟨hbody, hrest⟩ := alikeAll_of_looks body (List.cons.inj h).2 ho ho'
      exact ⟨.block (.mk hbody), hrest⟩
    | _ => cases htag
termination_by structural stmt

theorem alikeElse_of_looks (b : Option Block) {b' : Option Block} {depth : Nat}
    {rest rest' : List (Nat × Node.Face × Option Int32)}
    (h : looks (walkElse depth b) ++ rest = looks (walkElse depth b') ++ rest')
    (ho : Outside depth rest) (ho' : Outside depth rest') : AlikeElse b b' ∧ rest = rest' := by
  cases b with
  | none =>
    cases b' with
    | none => exact ⟨.none, h⟩
    | some b' => exact absurd h (ho.ne_walk (b'.walk_eq depth))
  | some b =>
    cases b' with
    | none => exact absurd h.symm (ho'.ne_walk (b.walk_eq depth))
    | some b' =>
      obtain ⟨hb, hrest⟩ := b.alike_of_looks h (ho.weaken (Nat.le_succ _))
        (ho'.weaken (Nat.le_succ _))
      exact ⟨.some hb, hrest⟩
termination_by structural b

theorem Block.alike_of_looks (b : Block) {b' : Block} {depth : Nat}
    {rest rest' : List (Nat × Node.Face × Option Int32)}
    (h : looks (b.walk depth) ++ rest = looks (b'.walk depth) ++ rest')
    (ho : Outside (depth + 1) rest) (ho' : Outside (depth + 1) rest') :
    b.Alike b' ∧ rest = rest' := by
  obtain ⟨body, id, span⟩ := b
  obtain ⟨body', id', span'⟩ := b'
  obtain ⟨hhead, hparts⟩ := List.cons.inj h
  injection hhead with _ hlook
  injection hlook with _ hid
  obtain rfl : id = id' := Option.some.inj hid
  obtain ⟨hbody, hrest⟩ := alikeAll_of_looks body hparts ho ho'
  exact ⟨.mk hbody, hrest⟩
termination_by structural b

theorem alikeAll_of_looks (stmts : List Stmt) {stmts' : List Stmt} {depth : Nat}
    {rest rest' : List (Nat × Node.Face × Option Int32)}
    (h : looks (walkAll depth stmts) ++ rest = looks (walkAll depth stmts') ++ rest')
    (ho : Outside depth rest) (ho' : Outside depth rest') :
    AlikeAll stmts stmts' ∧ rest = rest' := by
  cases stmts with
  | nil =>
    cases stmts' with
    | nil => exact ⟨.nil, h⟩
    | cons stmt' stmts' => exact absurd h (ho.ne_walk (walkAll_eq stmt' stmts' depth))
  | cons stmt stmts =>
    cases stmts' with
    | nil => exact absurd h.symm (ho'.ne_walk (walkAll_eq stmt stmts depth))
    | cons stmt' stmts' =>
      simp only [walkAll, looks_append, List.append_assoc] at h
      obtain ⟨hstmt, hparts⟩ := stmt.alike_of_looks h (outside_walkAll stmts ho)
        (outside_walkAll stmts' ho')
      obtain ⟨hstmts, hrest⟩ := alikeAll_of_looks stmts hparts ho ho'
      exact ⟨.cons hstmt hstmts, hrest⟩
termination_by structural stmts

end

end MiniC
