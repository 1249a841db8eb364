import MiniC.Tree.Basic

/-!
The type system. Judgements speak of a stack of frames, innermost first, and of trees whose nodes
may carry a type. What a node must carry is a parameter: `anything`, when a program is judged as it
stands, or `exactly` the type that the judgement gives the node.
-/

namespace MiniC

namespace Typing

/-- The variables declared directly in one scope, latest first. -/
abbrev Frame := List (String × DataType)

/-- The frames of the scopes that are open. -/
abbrev Context := List Frame

/-- A name has the type of its innermost declaration. -/
inductive Resolves (name : String) (type : DataType) : Context → Prop where
  | here {frame outer} : frame.lookup name = some type → Resolves name type (frame :: outer)
  | outer {frame outer} : frame.lookup name = none → Resolves name type outer →
      Resolves name type (frame :: outer)

/-- The type of a binary operation on operands of these types. -/
inductive Joins : DataType → DataType → DataType → Prop where
  | same {type} : type ≠ .void → Joins type type type
  | left : Joins .int .float .float
  | right : Joins .float .int .float

/-- A variable of the first type can hold a value of the second. -/
inductive Fits : DataType → DataType → Prop where
  | same {type} : type ≠ .void → Fits type type
  | widen : Fits .float .int

/-- The types of numbers. -/
inductive Numeric : DataType → Prop where
  | int : Numeric .int
  | float : Numeric .float

/-- The type of a unary operation on an operand of the first type. -/
inductive Applies : UnaryOp → DataType → DataType → Prop where
  | negate {type} : Numeric type → Applies .negate type type
  | not {type} : Numeric type → Applies .not type .int

/-- What a node may carry, given its type. -/
abbrev Mark := Option DataType → DataType → Prop

/-- A node may carry any type or none. -/
def anything : Mark := fun _ _ => True

/-- A node must carry its type. -/
def exactly : Mark := fun mark type => mark = some type

section

variable (mark : Mark)

/-- An expression has a type in a context, and each node with a place for its type carries what it
may carry there. A variable has the type that it is declared with. -/
inductive HasType (context : Context) : Expr → DataType → Prop where
  | integer {value span} : HasType context (.integer value span) .int
  | float {value span} : HasType context (.float value span) .float
  | string {value span} : HasType context (.string value span) .string
  | symbol {name m span type} : Resolves name type context → mark m type →
      HasType context (.symbol name m span) type
  | binary {left op right m span leftType rightType type} : HasType context left leftType →
      HasType context right rightType → Joins leftType rightType type → mark m type →
      HasType context (.binary left op right m span) type
  | unary {op operand m span operandType type} : HasType context operand operandType →
      Applies op operandType type → mark m type → HasType context (.unary op operand m span) type

/-- A declaration extends the innermost frame, which must not have the name. The initial value is
judged before the name exists. -/
inductive Declares : Context → VarDecl → Context → Prop where
  | plain {frame outer name type span} : frame.lookup name = none →
      Declares (frame :: outer) ⟨name, type, none, span⟩ (((name, type) :: frame) :: outer)
  | init {frame outer name type init initType span} :
      HasType mark (frame :: outer) init initType → Fits type initType →
      frame.lookup name = none →
      Declares (frame :: outer) ⟨name, type, some init, span⟩ (((name, type) :: frame) :: outer)

/-- An assignment has the type of its variable. -/
inductive Assigns (context : Context) : Assignment → Prop where
  | mk {name value m span type valueType} : Resolves name type context →
      HasType mark context value valueType → Fits type valueType → mark m type →
      Assigns context ⟨name, value, m, span⟩

/-- A return has the type of its value, or `void`. -/
inductive Returns (context : Context) : Return → Prop where
  | void {m span} : mark m .void → Returns context ⟨none, m, span⟩
  | value {value m span type} : HasType mark context value type → mark m type →
      Returns context ⟨some value, m, span⟩

mutual

/-- A statement leads from one context to the next. The scopes that it opens end with it. -/
inductive Statement : Context → Stmt → Context → Prop where
  | varDecl {context decl context'} : Declares mark context decl context' →
      Statement context (.varDecl decl) context'
  | assign {context assignment} : Assigns mark context assignment →
      Statement context (.assign assignment) context
  | ifElse {context condition type thenBody elseBody span} : HasType mark context condition type →
      Block context thenBody → Else context elseBody →
      Statement context (.ifElse condition thenBody elseBody span) context
  | whileLoop {context condition type body span} : HasType mark context condition type →
      Block context body → Statement context (.whileLoop condition body span) context
  | forLoop {context init header condition type update body span} :
      Statement ([] :: context) init header → HasType mark header condition type →
      Assigns mark header update → Block header body →
      Statement context (.forLoop init condition update body span) context
  | ret {context value} : Returns mark context value → Statement context (.ret value) context
  | block {context block} : Block context block → Statement context (.block block) context

/-- The block of an `else`, if there is one. -/
inductive Else : Context → Option MiniC.Block → Prop where
  | none {context} : Else context none
  | some {context block} : Block context block → Else context (some block)

/-- A block is judged in a frame of its own. -/
inductive Block : Context → MiniC.Block → Prop where
  | mk {context body context' id span} : Statements ([] :: context) body context' →
      Block context ⟨body, id, span⟩

/-- Statements one after the other. -/
inductive Statements : Context → List Stmt → Context → Prop where
  | nil {context} : Statements context [] context
  | cons {context stmt context' stmts context''} : Statement context stmt context' →
      Statements context' stmts context'' → Statements context (stmt :: stmts) context''

end

/-- A program is judged from an empty global scope. -/
def Typed (p : MiniC.Program) : Prop :=
  ∃ context, Statements mark [[]] p.body context

end

/-! What is judged has one type, and statements leave the outer frames alone. -/

section

variable {mark mark' : Mark} {context context' : Context} {name : String}

theorem Resolves.unique {type type' : DataType} (h : Resolves name type context)
    (h' : Resolves name type' context) : type = type' := by
  induction h with
  | here hl =>
    cases h' with
    | here hl' => exact Option.some.inj (hl.symm.trans hl')
    | outer hn _ => cases hl.symm.trans hn
  | outer hn _ ih =>
    cases h' with
    | here hl' => cases hn.symm.trans hl'
    | outer _ h' => exact ih h'

theorem Joins.unique {left right type type' : DataType} (h : Joins left right type)
    (h' : Joins left right type') : type = type' := by
  cases h <;> cases h' <;> rfl

theorem Applies.unique {op : UnaryOp} {operand type type' : DataType}
    (h : Applies op operand type) (h' : Applies op operand type') : type = type' := by
  cases h <;> cases h' <;> rfl

/-- An expression has at most one type, whatever its nodes carry. -/
theorem HasType.unique {e : Expr} {type type' : DataType} (h : HasType mark context e type)
    (h' : HasType mark' context e type') : type = type' := by
  induction h generalizing type' with
  | integer | float | string =>
    cases h'
    rfl
  | symbol hr _ =>
    cases h' with
    | symbol hr' _ => exact hr.unique hr'
  | binary _ _ hj _ ihl ihr =>
    cases h' with
    | binary hl' hr' hj' _ =>
      cases ihl hl'
      cases ihr hr'
      exact hj.unique hj'
  | unary _ ha _ ih =>
    cases h' with
    | unary ho' ha' _ =>
      cases ih ho'
      exact ha.unique ha'

/-- A declaration only touches the innermost frame. -/
theorem Statement.tail_eq {stmt : Stmt} (h : Statement mark context stmt context') :
    context'.tail = context.tail := by
  cases h with
  | varDecl h => cases h <;> rfl
  | _ => rfl

theorem Statements.tail_eq {context context' : Context} {stmts : List Stmt} :
    Statements mark context stmts context' → context'.tail = context.tail
  | .nil => rfl
  | .cons h hs => hs.tail_eq.trans h.tail_eq

end

end Typing

end MiniC
