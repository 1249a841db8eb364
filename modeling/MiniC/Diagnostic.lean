import MiniC.Source.Position
import MiniC.Text.Quoted

/-!
What can be wrong with a program, where, and how it is told. A cause carries the lexemes and type
names it speaks of as text; its wording is decided here and nowhere else.
-/

namespace MiniC

open Text (quoted)

/-- The part of the language that a program breaks. -/
inductive ErrorKind where
  | lexical
  | grammatical
  | typing
  | scoping
  deriving DecidableEq, Repr

/-- What is wrong. -/
inductive Cause where
  /-- No lexeme begins with this character, which `offset` characters precede. -/
  | unrecognised (token : String) (offset : UInt32)
  /-- No statement begins with this token. -/
  | unexpected (token : String)
  /-- The token does not fit, and the message says what would. -/
  | unexpectedDetailed (token message : String)
  /-- The tokens end where something is still expected. -/
  | endOfInput (expected : String)
  /-- A number token that cannot be read. -/
  | badNumber (token : String)
  /-- More than `limit` blocks, parentheses and operator folds are open. -/
  | tooDeep (limit : Nat)
  /-- A value does not fit where it is stored. -/
  | typeMismatch (expected received : String)
  /-- A binary operator does not join these types. -/
  | invalidOperands (operator left right : String)
  /-- A unary operator does not take this type. -/
  | invalidOperand (operator operand : String)
  /-- The innermost scope holds the name already. -/
  | alreadyDeclared (name : String)
  /-- No open scope holds the name. -/
  | notDeclared (name : String)
  deriving DecidableEq, Repr

/-- A cause and the place it was found at. -/
structure Diagnostic where
  cause : Cause
  position : Position
  deriving DecidableEq, Repr

def ErrorKind.name : ErrorKind → String
  | .lexical => "LexicalError"
  | .grammatical => "SyntaxError"
  | .typing => "TypeError"
  | .scoping => "ScopeError"

namespace Cause

def kind : Cause → ErrorKind
  | .unrecognised .. => .lexical
  | .unexpected .. | .unexpectedDetailed .. | .endOfInput .. | .badNumber .. | .tooDeep .. =>
    .grammatical
  | .typeMismatch .. | .invalidOperands .. | .invalidOperand .. => .typing
  | .alreadyDeclared .. | .notDeclared .. => .scoping

def name : Cause → String
  | .unrecognised .. => "UnrecognisedToken"
  | .unexpected .. => "UnexpectedToken"
  | .unexpectedDetailed .. => "UnexpectedTokenDetailed"
  | .endOfInput .. => "UnexpectedEndOfInput"
  | .badNumber .. => "NumberParseError"
  | .tooDeep .. => "NestingTooDeep"
  | .typeMismatch .. => "TypeMatchError"
  | .invalidOperands .. => "InvalidOperandTypes"
  | .invalidOperand .. => "InvalidUnaryOperand"
  | .alreadyDeclared .. => "VariableAlreadyDeclared"
  | .notDeclared .. => "VariableNotDeclared"

/-- The cause in words, with lexemes and names quoted. -/
def detail : Cause → String
  | .unrecognised token offset =>
    "unexpected character " ++ quoted token ++ " at position " ++ toString offset.toNat
  | .unexpected token => "unexpected token: " ++ quoted token
  | .unexpectedDetailed token message =>
    "unexpected token (" ++ message ++ "): " ++ quoted token
  | .endOfInput expected => "unexpected end of input, expected " ++ expected
  | .badNumber token => "error parsing number: " ++ quoted token
  | .tooDeep limit => "nesting deeper than " ++ toString limit ++ " levels"
  | .typeMismatch expected received =>
    "types do not match: expected " ++ expected ++ ", received " ++ received
  | .invalidOperands operator left right =>
    "operator " ++ quoted operator ++ " cannot combine " ++ left ++ " and " ++ right
  | .invalidOperand operator operand =>
    "operator " ++ quoted operator ++ " cannot be applied to " ++ operand
  | .alreadyDeclared name => "variable " ++ quoted name ++ " already declared"
  | .notDeclared name => "variable " ++ quoted name ++ " not declared"

/-- What the author may want to look at. -/
def tip? : Cause → Option String
  | .unrecognised .. => none
  | .unexpected token =>
    some ("Unexpected token: `" ++ token ++ "`, did you miss a semicolon?")
  | .unexpectedDetailed token message =>
    some ("Unexpected token: `" ++ token ++ "`, " ++ message)
  | .endOfInput expected => some ("Input ended while expecting " ++ expected)
  | .badNumber token =>
    some ("Invalid number: `" ++ token ++ "`, is it above the integer limit?")
  | .tooDeep limit =>
    some ("Blocks, parentheses and operator chains may nest at most " ++ toString limit ++
      " levels")
  | .typeMismatch expected received =>
    some ("Expected type `" ++ expected ++ "`, received `" ++ received ++ "`")
  | .invalidOperands operator left right =>
    some ("Operator `" ++ operator ++ "` cannot combine `" ++ left ++ "` and `" ++ right ++ "`")
  | .invalidOperand operator operand =>
    some ("Operator `" ++ operator ++ "` cannot be applied to `" ++ operand ++ "`")
  | .alreadyDeclared name => some ("Variable `" ++ name ++ "` already declared")
  | .notDeclared name => some ("Variable `" ++ name ++ "` not declared")

end Cause

namespace Diagnostic

/-- `kind: detail (file:offset)`. -/
def message (diagnostic : Diagnostic) : String :=
  diagnostic.cause.kind.name ++ ": " ++ diagnostic.cause.detail ++
    " (" ++ diagnostic.position.text ++ ")"

/-- `kind: name (tip)`, without the parentheses when there is no tip. -/
def header (diagnostic : Diagnostic) : String :=
  let title := diagnostic.cause.kind.name ++ ": " ++ diagnostic.cause.name
  match diagnostic.cause.tip? with
  | none => title
  | some tip => title ++ " (" ++ tip ++ ")"

end Diagnostic

end MiniC
