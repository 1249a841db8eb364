import MiniC.Typing.DataType

/-!
Scopes of variables: the global one, and a stack of nested ones.
-/

namespace MiniC

/-- The variables declared directly in one scope, latest first. -/
structure Scope where
  id : Int32
  entries : List (String × DataType)
  deriving DecidableEq, Repr

namespace Scope

def empty (id : Int32) : Scope := ⟨id, []⟩

def lookup (scope : Scope) (name : String) : Option DataType :=
  scope.entries.lookup name

/-- Declares a variable, unless this scope has one of that name. -/
def declare (scope : Scope) (name : String) (type : DataType) (position : Position) :
    Except Diagnostic Scope :=
  if (scope.lookup name).isSome then .error ⟨.alreadyDeclared name, position⟩
  else .ok { scope with entries := (name, type) :: scope.entries }

end Scope

/-- The scopes that are open, the nested ones innermost first. Headers of `for` loops take their ids
from `nextHeader` downward, so they never meet the ids of blocks. -/
structure Scopes where
  outermost : Scope
  nested : List Scope
  nextHeader : Int32
  deriving DecidableEq, Repr

namespace Scopes

/-- Only the global scope, without variables. -/
def fresh : Scopes := ⟨.empty 0, [], -1⟩

def push (scopes : Scopes) (id : Int32) : Scopes :=
  { scopes with nested := .empty id :: scopes.nested }

/-- Closes the innermost nested scope; the global scope stays open. -/
def pop (scopes : Scopes) : Scopes :=
  { scopes with nested := scopes.nested.tail }

/-- Opens the scope of a `for` header under an id of its own. -/
def pushHeader (scopes : Scopes) : Scopes :=
  { scopes with
    nested := .empty scopes.nextHeader :: scopes.nested
    nextHeader := scopes.nextHeader - 1 }

def innermost (scopes : Scopes) : Scope :=
  scopes.nested.headD scopes.outermost

/-- Declares a variable in the global scope. -/
def declareGlobal (scopes : Scopes) (name : String) (type : DataType) (position : Position) :
    Except Diagnostic Scopes := do
  let scope ← scopes.outermost.declare name type position
  return { scopes with outermost := scope }

/-- Declares a variable in the innermost scope. -/
def declare (scopes : Scopes) (name : String) (type : DataType) (position : Position) :
    Except Diagnostic Scopes :=
  match scopes.nested with
  | [] => scopes.declareGlobal name type position
  | scope :: outer => do
    let scope ← scope.declare name type position
    return { scopes with nested := scope :: outer }

/-- The type of a name, from the innermost scope that has it. -/
def lookup (scopes : Scopes) (name : String) : Option DataType :=
  (scopes.nested ++ [scopes.outermost]).findSome? (·.lookup name)

/-- The type of a name that `position` uses. -/
def fetch (scopes : Scopes) (name : String) (position : Position) : Except Diagnostic DataType :=
  match scopes.lookup name with
  | some type => .ok type
  | none => .error ⟨.notDeclared name, position⟩

end Scopes

end MiniC
