import MiniC.Tree.Basic
import MiniC.Typing.Scopes

/-!
Type checking of expressions, assignments, declarations and returns. A check writes the types it
finds into the tree and stops at the first error; what it returns is always the tree as far as it
was annotated, so that a failed check can be shown.

A check runs over any state that has the operations on scopes, and reaches that state through them
only. So the same check also runs over scopes that keep a record of what happens to them.
-/

namespace MiniC

/-- The operations on scopes that a check makes. -/
class Scoping (σ : Type) where
  /-- The type of a name that a position uses. -/
  fetch : σ → String → Position → Except Diagnostic DataType
  /-- Declares the variable of a declaration in the innermost scope. -/
  declare : σ → VarDecl → Except Diagnostic σ
  /-- Opens the scope of a block. -/
  push : σ → Int32 → σ
  /-- Opens the scope of a `for` header. -/
  pushHeader : σ → σ
  /-- Closes the innermost scope. -/
  pop : σ → σ

instance : Scoping Scopes where
  fetch := Scopes.fetch
  declare scopes d := scopes.declare d.name d.type d.span.start
  push := Scopes.push
  pushHeader := Scopes.pushHeader
  pop := Scopes.pop

namespace Scopes

variable (scopes : Scopes)

@[simp] theorem scoping_fetch (name : String) (position : Position) :
    Scoping.fetch scopes name position = scopes.fetch name position := rfl

@[simp] theorem scoping_declare (d : VarDecl) :
    Scoping.declare scopes d = scopes.declare d.name d.type d.span.start := rfl

@[simp] theorem scoping_push (id : Int32) : Scoping.push scopes id = scopes.push id := rfl

@[simp] theorem scoping_pushHeader : Scoping.pushHeader scopes = scopes.pushHeader := rfl

@[simp] theorem scoping_pop : Scoping.pop scopes = scopes.pop := rfl

end Scopes

/-- The type of an operand under a unary operator: numbers only, and `!` gives an `int`. -/
def UnaryOp.apply? (op : UnaryOp) (operand : DataType) : Option DataType :=
  if operand.isNumeric then
    match op with
    | .negate => some operand
    | .not => some .int
  else none

section

variable {σ : Type} [Scoping σ]

/-- Annotates an expression and finds its type. -/
def Expr.check (scopes : σ) : Expr → Expr × Except Diagnostic DataType
  | .integer value span => (.integer value span, .ok .int)
  | .float value span => (.float value span, .ok .float)
  | .string value span => (.string value span, .ok .string)
  | .symbol name type span =>
    match Scoping.fetch scopes name span.start with
    | .error e => (.symbol name type span, .error e)
    | .ok found => (.symbol name (some found) span, .ok found)
  | .binary left op right type span =>
    match left.check scopes with
    | (left, .error e) => (.binary left op right type span, .error e)
    | (left, .ok leftType) =>
      match right.check scopes with
      | (right, .error e) => (.binary left op right type span, .error e)
      | (right, .ok rightType) =>
        match leftType.combine rightType op.lexeme span.start with
        | .error e => (.binary left op right type span, .error e)
        | .ok found => (.binary left op right (some found) span, .ok found)
  | .unary op operand type span =>
    match operand.check scopes with
    | (operand, .error e) => (.unary op operand type span, .error e)
    | (operand, .ok operandType) =>
      match op.apply? operandType with
      | none =>
        (.unary op operand type span,
          .error ⟨.invalidOperand op.lexeme operandType.name, span.start⟩)
      | some found => (.unary op operand (some found) span, .ok found)

/-- Annotates an optional expression; without one the type is `void`. -/
def checkOptional (scopes : σ) : Option Expr → Option Expr × Except Diagnostic DataType
  | none => (none, .ok .void)
  | some expr =>
    match expr.check scopes with
    | (expr, result) => (some expr, result)

/-- Annotates an assignment: the variable must be declared, and is looked up before the value, which
must fit it. -/
def Assignment.check (scopes : σ) (a : Assignment) : Assignment × Except Diagnostic Unit :=
  match Scoping.fetch scopes a.name a.span.start with
  | .error e => (a, .error e)
  | .ok target =>
    match a.value.check scopes with
    | (value, .error e) => ({ a with value := value }, .error e)
    | (value, .ok valueType) =>
      match target.checkAccepts valueType value.span.start with
      | .error e => ({ a with value := value }, .error e)
      | .ok () => ({ a with value := value, type := some target }, .ok ())

/-- What a check leaves behind: the tree, the scopes, and the first error if there was one. -/
structure Checked (σ α : Type) where
  tree : α
  scopes : σ
  result : Except Diagnostic Unit

/-- Annotates a declaration and declares its variable. The name does not exist yet in its own
initial value. -/
def VarDecl.check (scopes : σ) (d : VarDecl) : Checked σ VarDecl :=
  let declare (init : Option Expr) : Checked σ VarDecl :=
    let d := { d with init := init }
    match Scoping.declare scopes d with
    | .error e => ⟨d, scopes, .error e⟩
    | .ok scopes => ⟨d, scopes, .ok ()⟩
  match d.init with
  | none => declare none
  | some init =>
    match init.check scopes with
    | (init, .error e) => ⟨{ d with init := some init }, scopes, .error e⟩
    | (init, .ok initType) =>
      match d.type.checkAccepts initType init.span.start with
      | .error e => ⟨{ d with init := some init }, scopes, .error e⟩
      | .ok () => declare (some init)

/-- Annotates a return. -/
def Return.check (scopes : σ) (r : Return) : Return × Except Diagnostic Unit :=
  match checkOptional scopes r.value with
  | (value, .error e) => ({ r with value := value }, .error e)
  | (value, .ok type) => ({ r with value := value, type := some type }, .ok ())

end

end MiniC
