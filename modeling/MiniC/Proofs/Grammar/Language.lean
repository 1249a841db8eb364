import MiniC.Grammar.Expression
import MiniC.Proofs.Tree.Relabel

/-!
The language as a grammar. A derivation relates a list of terminals to the tree it stands for and
to its demand, the number of levels of nesting that it needs. Terminals are tokens without their
places, so trees are derived with null spans and with id 0 for every block.

Rules, with `x*` for any number of `x` and `x?` for at most one:

    program    := statement*
    statement  := simple | if | while | for | return | block
    simple     := declaration | update ';'
    declaration := type identifier ('=' expression)? ';'
    update     := identifier '=' expression
    if         := 'if' '(' expression ')' block ('else' block)?
    while      := 'while' '(' expression ')' block
    for        := 'for' '(' simple expression ';' update ')' block
    return     := 'return' expression? ';'
    block      := '\x7b' statement* '\x7d'
    level      := operand (operator operand)*      for each of the six levels
    unary      := ('-' | '!')? primary
    primary    := INTEGER | FLOAT | STRING | IDENTIFIER | '(' expression ')'
-/

namespace MiniC

/-- What the grammar sees of a token. -/
abbrev Terminal := Token.Kind × String

/-- A token without its place. -/
def Token.terminal (token : Token) : Terminal := (token.kind, token.lexeme)

namespace Language

open Number Grammar

/-- An operator as a terminal. -/
abbrev operator (lexeme : String) : Terminal := (.operator, lexeme)

/-- A keyword as a terminal. -/
abbrev keyword (lexeme : String) : Terminal := (.keyword, lexeme)

/-- The nonterminals of expressions. -/
inductive Layer where
  | level (level : Level)
  | unary
  | primary

/-- What the operators of a level join: expressions of the next tighter layer. -/
def operand : Level → Layer
  | .logicalOr => .level .logicalAnd
  | .logicalAnd => .level .equality
  | .equality => .level .relational
  | .relational => .level .additive
  | .additive => .level .multiplicative
  | .multiplicative => .unary

/-- An operator of a chain with the operand on its right. -/
structure Link where
  op : BinaryOp
  text : List Terminal
  tree : Expr
  demand : Nat

namespace Link

/-- The terminals of a link: the operator and its right operand. -/
def written (link : Link) : List Terminal :=
  operator link.op.lexeme :: link.text

/-- The tree of a chain extended by one link. -/
def join (left : Expr) (link : Link) : Expr :=
  .binary left link.op link.tree none .null

end Link

/-- The demand of a chain whose operands, counted from `index`, have these demands: operand `i` is
parsed below `i` folds. -/
def chainDemand (index : Nat) : List Nat → Nat
  | [] => 0
  | demand :: demands => max (index + demand) (chainDemand (index + 1) demands)

/-- An expression of a layer: its terminals, its tree with every chain folded to the left, and its
demand. -/
inductive Expression : Layer → List Terminal → Expr → Nat → Prop where
  | integer {lexeme value} : readInt64? lexeme = some value →
      Expression .primary [(.integer, lexeme)] (.integer value .null) 0
  | float {lexeme value} : Binary64.read? lexeme = some value →
      Expression .primary [(.float, lexeme)] (.float value .null) 0
  | string {lexeme} :
      Expression .primary [(.string, lexeme)] (.string (stripQuotes lexeme) .null) 0
  | name {lexeme} :
      Expression .primary [(.identifier, lexeme)] (.symbol lexeme none .null) 0
  | group {text tree demand} : Expression (.level .logicalOr) text tree demand →
      Expression .primary (operator "(" :: text ++ [operator ")"]) tree (1 + demand)
  | plain {text tree demand} : Expression .primary text tree demand →
      Expression .unary text tree demand
  | signed {text tree demand} (op : UnaryOp) : Expression .primary text tree demand →
      Expression .unary (operator op.lexeme :: text) (.unary op tree none .null) demand
  | chain {level text tree demand} {links : List Link} :
      Expression (operand level) text tree demand →
      (∀ link ∈ links, link.op.level = level) →
      (∀ link ∈ links, Expression (operand level) link.text link.tree link.demand) →
      Expression (.level level) (text ++ links.flatMap Link.written) (links.foldl Link.join tree)
        (chainDemand 0 (demand :: links.map Link.demand))

/-- Any expression. -/
abbrev AnyExpression := Expression (.level .logicalOr)

/-- A declaration with its semicolon: a type, a name and perhaps a value, whose demand it has. -/
inductive Declaration : List Terminal → VarDecl → Nat → Prop where
  | plain (type : DataType) (name : String) :
      Declaration [keyword type.name, (.identifier, name), operator ";"]
        ⟨name, type, none, .null⟩ 0
  | init {text value demand} (type : DataType) (name : String) :
      AnyExpression text value demand →
      Declaration
        (keyword type.name :: (.identifier, name) :: operator "=" :: text ++ [operator ";"])
        ⟨name, type, some value, .null⟩ demand

/-- An assignment without a semicolon, as it ends the header of a `for`. -/
inductive Update : List Terminal → Assignment → Nat → Prop where
  | mk {text value demand} (name : String) : AnyExpression text value demand →
      Update ((.identifier, name) :: operator "=" :: text) ⟨name, value, none, .null⟩ demand

/-- The statements that may open the header of a `for`. -/
inductive Simple : List Terminal → Stmt → Nat → Prop where
  | declaration {text d demand} : Declaration text d demand → Simple text (.varDecl d) demand
  | assignment {text a demand} : Update text a demand →
      Simple (text ++ [operator ";"]) (.assign a) demand

/-- A statement among others. -/
structure Item where
  text : List Terminal
  tree : Stmt
  demand : Nat

/-- The demand of items side by side. -/
def maxDemand : List Item → Nat
  | [] => 0
  | item :: items => max item.demand (maxDemand items)

mutual

/-- A statement: its terminals, its tree without places and ids, and the greatest demand of its
parts. -/
inductive Statement : List Terminal → Stmt → Nat → Prop where
  | simple {text stmt demand} : Simple text stmt demand → Statement text stmt demand
  | ifThen {text condition demand thenText thenBody thenDemand} :
      AnyExpression text condition demand → Block thenText thenBody thenDemand →
      Statement (keyword "if" :: operator "(" :: text ++ operator ")" :: thenText)
        (.ifElse condition thenBody none .null) (max demand thenDemand)
  | ifElse {text condition demand thenText thenBody thenDemand elseText elseBody elseDemand} :
      AnyExpression text condition demand → Block thenText thenBody thenDemand →
      Block elseText elseBody elseDemand →
      Statement
        (keyword "if" :: operator "(" :: text ++ operator ")" :: thenText ++
          keyword "else" :: elseText)
        (.ifElse condition thenBody (some elseBody) .null)
        (max demand (max thenDemand elseDemand))
  | whileLoop {text condition demand bodyText body bodyDemand} :
      AnyExpression text condition demand → Block bodyText body bodyDemand →
      Statement (keyword "while" :: operator "(" :: text ++ operator ")" :: bodyText)
        (.whileLoop condition body .null) (max demand bodyDemand)
  | forLoop {initText init initDemand text condition demand updateText update updateDemand
        bodyText body bodyDemand} :
      Simple initText init initDemand → AnyExpression text condition demand →
      Update updateText update updateDemand → Block bodyText body bodyDemand →
      Statement
        (keyword "for" :: operator "(" :: initText ++ text ++ operator ";" :: updateText ++
          operator ")" :: bodyText)
        (.forLoop init condition update body .null)
        (max initDemand (max demand (max updateDemand bodyDemand)))
  | retVoid : Statement [keyword "return", operator ";"] (.ret ⟨none, none, .null⟩) 0
  | ret {text value demand} : AnyExpression text value demand →
      Statement (keyword "return" :: text ++ [operator ";"]) (.ret ⟨some value, none, .null⟩)
        demand
  | block {text body demand} : Block text body demand → Statement text (.block body) demand

/-- Statements in braces, which demand one level more than they do. -/
inductive Block : List Terminal → MiniC.Block → Nat → Prop where
  | mk {items : List Item} : (∀ item ∈ items, Statement item.text item.tree item.demand) →
      Block (operator "\x7b" :: items.flatMap Item.text ++ [operator "\x7d"])
        ⟨items.map Item.tree, 0, .null⟩ (1 + maxDemand items)

end

/-- Statements to the end. No level is opened around them. -/
inductive Program : List Terminal → List Stmt → Nat → Prop where
  | mk {items : List Item} : (∀ item ∈ items, Statement item.text item.tree item.demand) →
      Program (items.flatMap Item.text) (items.map Item.tree) (maxDemand items)

end Language

end MiniC
