import MiniC.Proofs.Grammar.Levels

/-!
Properties that rules inherit. Every rule is composed of a few steps: it takes a token, looks at
where it is, sequences other rules, opens a level of nesting, opens a block, or loops over the
statements of one. A property of these steps that composing them keeps is one of all rules.

The rules that do not open levels themselves are given those for the expressions and blocks in them.
What is composed of these in the same way on two sides is related as they are.
-/

namespace MiniC

open Grammar

namespace Parse

/-- A rule that first looks where it is sees no token ahead but the first one, and does not see how
many levels are open. -/
def Looks {α : Type} (f : Cursor → Parse α) : Prop :=
  ∀ c rest depth, rest.head? = c.ahead.head? → f { c with ahead := rest, depth := depth } = f c

/-- A relation between rules that composing keeps: it relates each step to itself, and relates what
is composed of related rules. A property of rules is such a relation that does not mention the
second one. -/
structure Composed (R : {α : Type} → Parse α → Parse α → Prop) : Prop where
  pure {α : Type} (a : α) : R (Pure.pure a) (Pure.pure a)
  fail {α : Type} (d : Diagnostic) : R (Parse.fail d : Parse α) (Parse.fail d)
  advance : R Parse.advance Parse.advance
  look {α : Type} {f g : Cursor → Parse α} : Looks f → (∀ c, R (f c) (g c)) →
    R (get >>= f) (get >>= g)
  bind {α β : Type} {x y : Parse α} {f g : α → Parse β} : R x y → (∀ a, R (f a) (g a)) →
    R (x >>= f) (y >>= g)
  /-- An id is taken nowhere but after the brace of its block. -/
  opening {α : Type} {f g : Token → Int32 → Parse α} :
    R (Parse.expectOperator "\x7b") (Parse.expectOperator "\x7b") →
    (∀ brace id, R (f brace id) (g brace id)) →
    R (Parse.expectOperator "\x7b" >>= fun brace => Parse.takeId >>= f brace)
      (Parse.expectOperator "\x7b" >>= fun brace => Parse.takeId >>= g brace)
  /-- The amount of fuel is no part of what a loop does. -/
  loop {table : Table} {levels : Nat} {statement' : Parse Stmt} :
    (∀ fuel, R (untilBrace (statement table levels) fuel) (untilBrace statement' fuel)) →
    R (get >>= fun c => untilBrace (statement table levels) c.ahead.length)
      (get >>= fun c => untilBrace statement' c.ahead.length)

/-- A property of rules with so many levels of nesting left that all rules have: composing keeps it,
and so does opening a level. -/
structure Inherited (P : (levels : Nat) → {α : Type} → Parse α → Prop) : Prop where
  composed (levels : Nat) : Composed fun x _ => P levels x
  nested {levels : Nat} {α : Type} {x : Parse α} : P levels x → P (levels + 1) (Parse.nested x)

/-! What is looked at by the rules. -/

section

variable {c : Cursor} {rest : List Token} {depth : Nat} (h : rest.head? = c.ahead.head?)

include h

theorem atOperator_ahead (lexeme : String) :
    { c with ahead := rest, depth := depth }.atOperator lexeme = c.atOperator lexeme := by
  simp only [Cursor.atOperator, h]

theorem atKeyword_ahead (lexeme : String) :
    { c with ahead := rest, depth := depth }.atKeyword lexeme = c.atKeyword lexeme := by
  simp only [Cursor.atKeyword, h]

theorem binaryOp?_ahead (level : Level) :
    { c with ahead := rest, depth := depth }.binaryOp? level = c.binaryOp? level := by
  simp only [Cursor.binaryOp?, h]

omit depth in
/-- What is done with the first token, if there is one, does not depend on the others. -/
theorem match_ahead {β : Type} (ended : β) (found : Token → β) :
    (match rest with
      | [] => ended
      | token :: _ => found token) =
    match c.ahead with
      | [] => ended
      | token :: _ => found token := by
  cases hc : c.ahead with
  | nil =>
    rw [hc, List.head?_nil, List.head?_eq_none_iff] at h
    rw [h]
  | cons token tokens =>
    rw [hc, List.head?_cons, List.head?_eq_some_iff] at h
    obtain ⟨tokens', rfl⟩ := h
    rfl

theorem position_ahead : { c with ahead := rest, depth := depth }.position = c.position :=
  match_ahead h c.previousEnd fun token => token.span.start

theorem unexpected_ahead (expected : String) :
    { c with ahead := rest, depth := depth }.unexpected expected = c.unexpected expected :=
  match_ahead h (c.endOfInput expected) fun token =>
    ⟨.unexpectedDetailed token.lexeme ("expected " ++ expected), token.span.start⟩

end

namespace Composed

variable {R : {α : Type} → Parse α → Parse α → Prop} (hR : Composed R) {α β : Type}

include hR

/-- A rule whose result is put into a larger one. -/
theorem map {x y : Parse α} (hx : R x y) (g : α → β) :
    R (x >>= fun a => Pure.pure (g a)) (y >>= fun a => Pure.pure (g a)) :=
  hR.bind hx fun a => hR.pure (g a)

/-- A result that ends at the place reached. -/
theorem finish (g : Span → α) (start : Position) :
    R (get >>= fun c : Cursor => Pure.pure (g (c.spanFrom start)))
      (get >>= fun c : Cursor => Pure.pure (g (c.spanFrom start))) :=
  hR.look (fun _ _ _ _ => rfl) fun _ => hR.pure _

theorem unexpected (expected : String) :
    R (Parse.unexpected expected : Parse α) (Parse.unexpected expected) :=
  hR.look (fun _ _ _ h => congrArg Parse.fail (unexpected_ahead h expected)) fun _ => hR.fail _

theorem tooDeep : R (Parse.tooDeep : Parse α) Parse.tooDeep :=
  hR.look (fun _ _ _ h => by simp only [position_ahead h]) fun _ => hR.fail _

theorem peek (expected : String) : R (Parse.peek expected) (Parse.peek expected) := by
  refine hR.look (fun c rest depth h => match_ahead h _ _) fun c => ?_
  split
  · exact hR.fail _
  · exact hR.pure _

theorem expectKind (kind : Token.Kind) (expected : String) :
    R (Parse.expectKind kind expected) (Parse.expectKind kind expected) := by
  refine hR.bind (hR.peek expected) fun token => ?_
  split
  · exact hR.advance
  · exact hR.unexpected expected

theorem expectOperator (lexeme : String) :
    R (Parse.expectOperator lexeme) (Parse.expectOperator lexeme) := by
  refine hR.look (fun c rest depth h => by simp only [atOperator_ahead h]) fun c => ?_
  split
  · exact hR.advance
  · exact hR.unexpected _

theorem expectKeyword (lexeme : String) :
    R (Parse.expectKeyword lexeme) (Parse.expectKeyword lexeme) := by
  refine hR.look (fun c rest depth h => by simp only [atKeyword_ahead h]) fun c => ?_
  split
  · exact hR.advance
  · exact hR.unexpected _

/-! Rules for expressions. -/

theorem atom : R Grammar.atom Grammar.atom := by
  refine hR.bind hR.advance fun token => ?_
  split
  · exact hR.pure _
  · exact hR.fail _

section

variable {group group' : Parse Expr} (hg : R group group')

include hg

theorem primary : R (Grammar.primary group) (Grammar.primary group') := by
  refine hR.bind (hR.peek _) fun token => ?_
  cases token.kind with
  | integer | float | string | identifier => exact hR.atom
  | keyword => exact hR.unexpected _
  | operator =>
    dsimp only
    split
    · exact hg
    · exact hR.unexpected _

theorem unary : R (Grammar.unary group) (Grammar.unary group') := by
  refine hR.look (fun c rest depth h => by simp only [h]) fun c => ?_
  split
  · exact hR.primary hg
  · exact hR.bind hR.advance fun token => hR.map (hR.primary hg) _

theorem layered {fold fold' : Level → Expr → Parse Expr}
    (hf : ∀ level left, R (fold level left) (fold' level left)) (list : List Level) :
    R (Grammar.layered group fold list) (Grammar.layered group' fold' list) := by
  induction list with
  | nil => exact hR.unary hg
  | cons level tighter ih => exact hR.bind ih fun left => hf level left

end

/-! Rules for statements. -/

theorem typeKeyword : R Grammar.typeKeyword Grammar.typeKeyword := by
  refine hR.bind (hR.peek _) fun token => ?_
  split
  · exact hR.unexpected _
  · exact hR.map hR.advance _

section

variable {expression expression' : Parse Expr} (he : R expression expression')

include he

theorem parenthesised :
    R (Grammar.parenthesised expression) (Grammar.parenthesised expression') := by
  refine hR.bind (hR.expectOperator _) fun _ => ?_
  refine hR.bind he fun e => ?_
  exact hR.map (hR.expectOperator _) fun _ => e

theorem initialValue : R (Grammar.initialValue expression) (Grammar.initialValue expression') := by
  refine hR.look (fun c rest depth h => by simp only [atOperator_ahead h]) fun c => ?_
  split
  · exact hR.bind hR.advance fun _ => hR.map he some
  · exact hR.pure none

theorem varDecl : R (Grammar.varDecl expression) (Grammar.varDecl expression') := by
  refine hR.bind hR.typeKeyword fun found => ?_
  refine hR.bind (hR.expectKind _ _) fun name => ?_
  refine hR.bind (hR.initialValue he) fun init => ?_
  refine hR.bind (hR.expectOperator _) fun _ => ?_
  exact hR.finish (VarDecl.mk name.lexeme found.1 init) found.2

theorem assignment (terminated : Bool) :
    R (Grammar.assignment expression terminated) (Grammar.assignment expression' terminated) := by
  refine hR.bind (hR.expectKind _ _) fun name => ?_
  refine hR.bind (hR.expectOperator _) fun _ => ?_
  refine hR.bind he fun value => ?_
  have hend := hR.finish (Assignment.mk name.lexeme value none) name.span.start
  cases terminated with
  | true => exact hR.bind (hR.expectOperator _) fun _ => hend
  | false => exact hend

theorem forInit : R (Grammar.forInit expression) (Grammar.forInit expression') := by
  refine hR.bind (hR.peek _) fun token => ?_
  split
  · exact hR.map (hR.varDecl he) Stmt.varDecl
  split
  · exact hR.map (hR.assignment he true) Stmt.assign
  · exact hR.unexpected _

theorem returnValue : R (Grammar.returnValue expression) (Grammar.returnValue expression') := by
  refine hR.look (fun c rest depth h => by simp only [atOperator_ahead h]) fun c => ?_
  split
  · exact hR.pure none
  · exact hR.map he some

theorem ret : R (Grammar.ret expression) (Grammar.ret expression') := by
  refine hR.bind (hR.expectKeyword _) fun token => ?_
  refine hR.bind (hR.returnValue he) fun value => ?_
  refine hR.bind (hR.expectOperator _) fun _ => ?_
  exact hR.finish (Return.mk value none) token.span.start

section

variable {block block' : Parse Block} (hb : R block block')

include hb

omit he in
theorem elseBody : R (Grammar.elseBody block) (Grammar.elseBody block') := by
  refine hR.look (fun c rest depth h => by simp only [atKeyword_ahead h]) fun c => ?_
  split
  · exact hR.bind hR.advance fun _ => hR.map hb some
  · exact hR.pure none

theorem ifElse : R (Grammar.ifElse expression block) (Grammar.ifElse expression' block') := by
  refine hR.bind (hR.expectKeyword _) fun token => ?_
  refine hR.bind (hR.parenthesised he) fun test => ?_
  refine hR.bind hb fun thenBlock => ?_
  refine hR.bind (hR.elseBody hb) fun elseBlock => ?_
  exact hR.finish (Stmt.ifElse test thenBlock elseBlock) token.span.start

theorem whileLoop :
    R (Grammar.whileLoop expression block) (Grammar.whileLoop expression' block') := by
  refine hR.bind (hR.expectKeyword _) fun token => ?_
  refine hR.bind (hR.parenthesised he) fun test => ?_
  refine hR.bind hb fun body => ?_
  exact hR.finish (Stmt.whileLoop test body) token.span.start

theorem forLoop : R (Grammar.forLoop expression block) (Grammar.forLoop expression' block') := by
  refine hR.bind (hR.expectKeyword _) fun token => ?_
  refine hR.bind (hR.expectOperator _) fun _ => ?_
  refine hR.bind (hR.forInit he) fun init => ?_
  refine hR.bind he fun test => ?_
  refine hR.bind (hR.expectOperator _) fun _ => ?_
  refine hR.bind (hR.assignment he false) fun update => ?_
  refine hR.bind (hR.expectOperator _) fun _ => ?_
  refine hR.bind hb fun body => ?_
  exact hR.finish (Stmt.forLoop init test update body) token.span.start

theorem handle (handler : Handler) :
    R (Grammar.handle expression block handler) (Grammar.handle expression' block' handler) := by
  cases handler with
  | varDecl => exact hR.map (hR.varDecl he) Stmt.varDecl
  | ifElse => exact hR.ifElse he hb
  | whileLoop => exact hR.whileLoop he hb
  | forLoop => exact hR.forLoop he hb
  | ret => exact hR.map (hR.ret he) Stmt.ret
  | block => exact hR.map hb Stmt.block

theorem statementWith (table : Table) :
    R (Grammar.statementWith table expression block)
      (Grammar.statementWith table expression' block') := by
  refine hR.bind (hR.peek _) fun token => ?_
  cases table.handler? token with
  | some handler => exact hR.handle he hb handler
  | none =>
    dsimp only
    split
    · exact hR.map (hR.assignment he true) Stmt.assign
    · exact hR.fail _

end

end

theorem untilBrace {statement statement' : Parse Stmt} (hs : R statement statement')
    (fuel : Nat) :
    R (Grammar.untilBrace statement fuel) (Grammar.untilBrace statement' fuel) := by
  induction fuel with
  | zero =>
    refine hR.look (fun c rest depth h => by simp only [atOperator_ahead h]; rfl) fun c => ?_
    split
    · exact hR.pure []
    · exact hR.fail _
  | succ fuel ih =>
    refine hR.look (fun c rest depth h => by simp only [atOperator_ahead h]) fun c => ?_
    split
    · exact hR.pure []
    · exact hR.bind hs fun stmt => hR.map ih (stmt :: ·)

theorem braces {table : Table} {levels : Nat} {statement' : Parse Stmt}
    (hs : R (statement table levels) statement') :
    R (Grammar.braces (statement table levels)) (Grammar.braces statement') := by
  refine hR.opening (hR.expectOperator _) fun brace id => ?_
  have hloop := hR.loop (hR.untilBrace hs)
  rw [← bind_assoc, ← bind_assoc]
  refine hR.bind hloop fun body => ?_
  refine hR.bind (hR.expectOperator _) fun _ => ?_
  exact hR.finish (Block.mk body id) brace.span.start

/-- Any rule by itself. -/
theorem runWith {table : Table} {atLevel atLevel' : Level → Parse Expr} {group group' : Parse Expr}
    {block block' : Parse Block} (hl : ∀ level, R (atLevel level) (atLevel' level))
    (hg : R group group') (hb : R block block') (rule : Rule) :
    R (rule.runWith table atLevel group block) (rule.runWith table atLevel' group' block') := by
  have he := hl .logicalOr
  have hhandle : ∀ handler, R (Rule.runWith.handle atLevel block handler)
      (Rule.runWith.handle atLevel' block' handler) :=
    fun handler => hR.map (hR.handle he hb handler) _
  cases rule with
  | statement => exact hR.map (hR.statementWith he hb table) _
  | varDecl => exact hhandle .varDecl
  | assignment => exact hR.map (hR.assignment he true) _
  | update => exact hR.map (hR.assignment he false) _
  | ifElse => exact hhandle .ifElse
  | whileLoop => exact hhandle .whileLoop
  | forLoop => exact hhandle .forLoop
  | ret => exact hhandle .ret
  | blockStatement => exact hhandle .block
  | block => exact hR.map hb _
  | atLevel level => exact hR.map (hl level) _
  | unary => exact hR.map (hR.unary hg) _
  | primary => exact hR.map (hR.primary hg) _
  | group => exact hR.map hg _
  | typeKeyword => exact hR.map hR.typeKeyword _

end Composed

/-- A property of rules as a relation between a rule and itself. -/
def Diagonal (P : {α : Type} → Parse α → Prop) {α : Type} (x y : Parse α) : Prop :=
  y = x ∧ P x

theorem Diagonal.of {P : {α : Type} → Parse α → Prop} {α : Type} {x : Parse α} (h : P x) :
    Diagonal P x x :=
  ⟨rfl, h⟩

/-- A property that composing keeps is one that it keeps of a rule and itself. -/
theorem Composed.diagonal {P : {α : Type} → Parse α → Prop} (hP : Composed fun x _ => P x) :
    Composed (Diagonal P) where
  pure a := .of (hP.pure a)
  fail d := .of (hP.fail d)
  advance := .of hP.advance
  look {α f g} hf h := by
    obtain rfl : g = f := funext fun c => (h c).1
    exact .of (hP.look (g := g) hf fun c => (h c).2)
  bind {α β x y f g} hx hf := by
    obtain rfl := hx.1
    obtain rfl : g = f := funext fun a => (hf a).1
    exact .of (hP.bind (y := y) (g := g) hx.2 fun a => (hf a).2)
  opening {α f g} hb hf := by
    obtain rfl : g = f := funext fun brace => funext fun id => (hf brace id).1
    exact .of (hP.opening (g := g) hb.2 fun brace id => (hf brace id).2)
  loop {table levels statement'} h := by
    have hs : Grammar.untilBrace statement' = Grammar.untilBrace (statement table levels) :=
      funext fun fuel => (h fuel).1
    exact ⟨by rw [hs], @Composed.loop _ hP _ _ statement' fun fuel => (h fuel).2⟩

namespace Inherited

variable {P : (levels : Nat) → {α : Type} → Parse α → Prop} (hP : Inherited P)

include hP

theorem opened {levels : Nat} {α : Type} {x : Parse α} (h : Diagonal (P levels) x x) :
    Diagonal (P (levels + 1)) (Parse.nested x) (Parse.nested x) :=
  .of (hP.nested h.2)

theorem group_fold (levels : Nat) :
    Diagonal (P levels) (group levels) (group levels) ∧
      ∀ level left, Diagonal (P levels) (fold levels level left) (fold levels level left) := by
  induction levels with
  | zero =>
    have hR := (hP.composed 0).diagonal
    refine ⟨hR.tooDeep, fun level left => ?_⟩
    refine hR.look (fun c rest depth h => by simp only [binaryOp?_ahead h]) fun c => ?_
    split
    · exact hR.pure _
    · exact hR.tooDeep
  | succ levels ih =>
    have hR := (hP.composed levels).diagonal
    obtain ⟨hg, hf⟩ := ih
    constructor
    · exact hP.opened (hR.parenthesised (hR.layered hg hf _))
    · intro level left
      have hS := (hP.composed (levels + 1)).diagonal
      refine hS.look (fun c rest depth h => by simp only [binaryOp?_ahead h]) fun c => ?_
      split
      · exact hS.pure _
      · refine hP.opened (hR.bind hR.advance fun _ => ?_)
        exact hR.bind (hR.layered hg hf _) fun right => hf level _

theorem atLevel (levels : Nat) (level : Level) :
    Diagonal (P levels) (Grammar.atLevel levels level) (Grammar.atLevel levels level) :=
  (hP.composed levels).diagonal.layered (hP.group_fold levels).1 (hP.group_fold levels).2 _

theorem block (table : Table) (levels : Nat) :
    Diagonal (P levels) (Grammar.block table levels) (Grammar.block table levels) := by
  induction levels with
  | zero => exact (hP.composed 0).diagonal.tooDeep
  | succ levels ih =>
    have hR := (hP.composed levels).diagonal
    exact hP.opened (hR.braces (hR.statementWith (hP.atLevel levels .logicalOr) ih table))

/-- Every rule inherits the property, whatever the table is. -/
theorem run (table : Table) (levels : Nat) (rule : Rule) : P levels (rule.run table levels) := by
  have hR := (hP.composed levels).diagonal
  have hrun : Diagonal (P levels) (rule.run table levels) (rule.run table levels) :=
    hR.runWith (hP.atLevel levels) (hP.group_fold levels).1 (hP.block table levels) rule
  exact hrun.2

end Inherited

end Parse

end MiniC
