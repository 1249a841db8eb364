import MiniC.Diagnostic

/-!
The four types of values, and how they combine and fit.
-/

namespace MiniC

/-- The types of values. A variable may be `void`, but then it holds nothing. -/
inductive DataType where
  | int
  | float
  | string
  | void
  deriving DecidableEq, Repr

namespace DataType

/-- The keyword of a type. -/
def name : DataType → String
  | .int => "int"
  | .float => "float"
  | .string => "string"
  | .void => "void"

def ofKeyword? (keyword : String) : Option DataType :=
  if keyword = "int" then some .int
  else if keyword = "float" then some .float
  else if keyword = "string" then some .string
  else if keyword = "void" then some .void
  else none

def isNumeric : DataType → Bool
  | .int | .float => true
  | .string | .void => false

/-- The type of a binary operation: equal types give that type, `int` and `float` give `float`, and
`void` joins with nothing. -/
def join? : DataType → DataType → Option DataType
  | .int, .int => some .int
  | .float, .float | .int, .float | .float, .int => some .float
  | .string, .string => some .string
  | _, _ => none

/-- Whether a variable of type `target` can hold a `value`: `int` widens to `float`, and `void`
holds nothing and fits nowhere. -/
def accepts : (target value : DataType) → Bool
  | .int, .int | .float, .float | .float, .int | .string, .string => true
  | _, _ => false

/-- The type of `left operator right`, found at `position`. -/
def combine (left right : DataType) (operator : String) (position : Position) :
    Except Diagnostic DataType :=
  match left.join? right with
  | some type => .ok type
  | none => .error ⟨.invalidOperands operator left.name right.name, position⟩

/-- Demands that `target` accepts the value found at `position`. -/
def checkAccepts (target value : DataType) (position : Position) : Except Diagnostic Unit :=
  if target.accepts value then .ok ()
  else .error ⟨.typeMismatch target.name value.name, position⟩

end DataType

end MiniC
