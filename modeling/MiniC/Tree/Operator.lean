/-!
Operators and the levels of precedence of the binary ones.
-/

namespace MiniC

/-- Levels of precedence, loosest first. -/
inductive Level where
  | logicalOr
  | logicalAnd
  | equality
  | relational
  | additive
  | multiplicative
  deriving DecidableEq, Repr

/-- A level and all tighter ones, loosest first. -/
def Level.andTighter : Level → List Level
  | .logicalOr => [.logicalOr, .logicalAnd, .equality, .relational, .additive, .multiplicative]
  | .logicalAnd => [.logicalAnd, .equality, .relational, .additive, .multiplicative]
  | .equality => [.equality, .relational, .additive, .multiplicative]
  | .relational => [.relational, .additive, .multiplicative]
  | .additive => [.additive, .multiplicative]
  | .multiplicative => [.multiplicative]

/-- The levels tighter than this one, loosest first. -/
def Level.tighter (level : Level) : List Level :=
  level.andTighter.tail

/-- The binary operators. -/
inductive BinaryOp where
  | or
  | and
  | equal
  | notEqual
  | less
  | greater
  | lessEqual
  | greaterEqual
  | plus
  | minus
  | times
  | divide
  deriving DecidableEq, Repr

namespace BinaryOp

def lexeme : BinaryOp → String
  | .or => "||"
  | .and => "&&"
  | .equal => "=="
  | .notEqual => "!="
  | .less => "<"
  | .greater => ">"
  | .lessEqual => "<="
  | .greaterEqual => ">="
  | .plus => "+"
  | .minus => "-"
  | .times => "*"
  | .divide => "/"

def level : BinaryOp → Level
  | .or => .logicalOr
  | .and => .logicalAnd
  | .equal | .notEqual => .equality
  | .less | .greater | .lessEqual | .greaterEqual => .relational
  | .plus | .minus => .additive
  | .times | .divide => .multiplicative

def all : List BinaryOp :=
  [.or, .and, .equal, .notEqual, .less, .greater, .lessEqual, .greaterEqual, .plus, .minus,
    .times, .divide]

/-- The operator with the given spelling. -/
def ofLexeme? (text : String) : Option BinaryOp :=
  all.find? fun op => op.lexeme == text

end BinaryOp

/-- The unary operators. -/
inductive UnaryOp where
  | negate
  | not
  deriving DecidableEq, Repr

def UnaryOp.lexeme : UnaryOp → String
  | .negate => "-"
  | .not => "!"

end MiniC
