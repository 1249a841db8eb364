import MiniC.Source.Position
import MiniC.Typing.DataType

/-!
Tokens: a kind, the lexeme as it is spelled, and where it stands. Keywords and operators are told
apart by their lexemes.
-/

namespace MiniC

namespace Token

/-- The lexical class of a token. -/
inductive Kind where
  | keyword
  | identifier
  | integer
  | float
  | string
  | operator
  deriving DecidableEq, Repr

def Kind.name : Kind → String
  | .keyword => "KEYWORD"
  | .identifier => "IDENTIFIER"
  | .integer => "INTEGER"
  | .float => "FLOAT"
  | .string => "STRING"
  | .operator => "OPERATOR"

/-- The words that are no identifiers. -/
def reserved : List String :=
  ["else", "float", "for", "if", "int", "return", "string", "void", "while"]

end Token

/-- A lexeme of some kind and its place in the source. -/
structure Token where
  kind : Token.Kind
  lexeme : String
  span : Span
  deriving DecidableEq, Repr

namespace Token

/-- `KIND(lexeme)`. -/
def text (token : Token) : String :=
  token.kind.name ++ "(" ++ token.lexeme ++ ")"

/-- Whether this is the token of the given kind with the given spelling. -/
def is (token : Token) (kind : Kind) (lexeme : String) : Bool :=
  token.kind == kind && token.lexeme == lexeme

def isOperator (token : Token) (lexeme : String) : Bool :=
  token.is .operator lexeme

def isKeyword (token : Token) (lexeme : String) : Bool :=
  token.is .keyword lexeme

/-- The type that a type keyword names; no other token names one. -/
def dataType? (token : Token) : Option DataType :=
  if token.kind = .keyword then DataType.ofKeyword? token.lexeme else none

/-- Whether the token opens a variable declaration. -/
def isTypeKeyword (token : Token) : Bool :=
  token.dataType?.isSome

end Token

end MiniC
