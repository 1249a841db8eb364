import MiniC.Grammar.Session

/-!
The rules by the levels of nesting that are left. They do not count the levels that are open but are
given the number of those left, and recurse on it. The folds of a chain are charged to the operands
on their right only, so the i-th operand of a chain is parsed with i levels fewer.
-/

namespace MiniC

/-- Runs a rule one level deeper. A failure leaves the level open. -/
def Parse.nested {α : Type} (rule : Parse α) : Parse α := fun cursor =>
  match rule cursor with
  | .ok value cursor => .ok value cursor
  | .error diagnostic cursor => .error diagnostic { cursor with depth := cursor.depth + 1 }

namespace Grammar

mutual

/-- An expression in parentheses, one level deeper. -/
def group : (levels : Nat) → Parse Expr
  | 0 => Parse.tooDeep
  | levels + 1 => Parse.nested do
    parenthesised (layered (group levels) (fold levels) Level.logicalOr.andTighter)
termination_by structural levels => levels

/-- Extends `left` by as many operators of one level as follow it. -/
def fold : (levels : Nat) → Level → (left : Expr) → Parse Expr
  | 0, level, left => do
    match (← get).binaryOp? level with
    | none => return left
    | some _ => Parse.tooDeep
  | levels + 1, level, left => do
    match (← get).binaryOp? level with
    | none => return left
    | some op => Parse.nested do
      let _ ← Parse.advance
      let right ← layered (group levels) (fold levels) level.tighter
      fold levels level (.binary left op right none ⟨left.span.start, right.span.stop⟩)
termination_by structural levels => levels

end

/-- An expression without operators looser than `level`. -/
def atLevel (levels : Nat) (level : Level) : Parse Expr :=
  layered (group levels) (fold levels) level.andTighter

/-- Any expression. -/
def expression (levels : Nat) : Parse Expr :=
  atLevel levels .logicalOr

/-- Statements in braces, one level deeper. -/
def block (table : Table) : (levels : Nat) → Parse Block
  | 0 => Parse.tooDeep
  | levels + 1 => Parse.nested do
    braces (statementWith table (expression levels) (block table levels))

/-- Any statement. -/
def statement (table : Table) (levels : Nat) : Parse Stmt :=
  statementWith table (expression levels) (block table levels)

end Grammar

/-- Runs a rule with so many levels left. -/
def Rule.run (table : Table) (levels : Nat) (rule : Rule) : Parse Parsed :=
  rule.runWith table (Grammar.atLevel levels) (Grammar.group levels) (Grammar.block table levels)

end MiniC
