import MiniC.Proofs.Typing.Annotation

/-!
Checks of trees that carry types already. A check uses no type but those that it has just found, so
whatever types stand in a tree before, the check comes to the same. One that is made again goes the
way of the first, to its end or to the same error, and finds every type that it writes in its place.
-/

namespace MiniC

/-! What stands in a tree does not matter. -/

/-- Two checks come to the same: to the same tree and result, or to the same error. The tree as far
as an error let it be annotated is left out of account. -/
inductive SameEnd {α β : Type} : α × Except Diagnostic β → α × Except Diagnostic β → Prop where
  | ok (tree : α) (found : β) : SameEnd (tree, .ok found) (tree, .ok found)
  | error (tree tree' : α) (e : Diagnostic) : SameEnd (tree, .error e) (tree', .error e)

namespace SameEnd

variable {α β : Type} {r r' r'' : α × Except Diagnostic β}

theorem symm (h : SameEnd r r') : SameEnd r' r := by
  cases h with
  | ok tree found => exact .ok tree found
  | error tree tree' e => exact .error tree' tree e

theorem trans (h : SameEnd r r') (h' : SameEnd r' r'') : SameEnd r r'' := by
  cases h with
  | ok tree found => exact h'
  | error tree tree' e =>
    cases h' with
    | error _ tree'' _ => exact .error tree tree'' e

theorem result_eq (h : SameEnd r r') : r.2 = r'.2 := by
  cases h <;> rfl

theorem tree_eq {found : β} (h : SameEnd r r') (hr : r.2 = .ok found) : r.1 = r'.1 := by
  cases h with
  | ok => rfl
  | error => cases hr

end SameEnd

/-- Two checks that change the scopes come to the same and leave the same scopes. -/
inductive Checked.SameEnd {σ α : Type} : Checked σ α → Checked σ α → Prop where
  | ok (tree : α) (scopes : σ) : SameEnd ⟨tree, scopes, .ok ()⟩ ⟨tree, scopes, .ok ()⟩
  | error (tree tree' : α) (scopes : σ) (e : Diagnostic) :
      SameEnd ⟨tree, scopes, .error e⟩ ⟨tree', scopes, .error e⟩

section

variable {σ : Type}

/-- A part that is put into a larger tree. -/
theorem Checked.SameEnd.wrap {α β : Type} {r r' : Checked σ α} (h : r.SameEnd r') (f : α → β) :
    Checked.SameEnd ⟨f r.tree, r.scopes, r.result⟩ ⟨f r'.tree, r'.scopes, r'.result⟩ := by
  cases h with
  | ok => exact .ok ..
  | error => exact .error ..

/-- The innermost scope is closed at the end. -/
theorem Checked.SameEnd.pop [Scoping σ] {α : Type} {r r' : Checked σ α} (h : r.SameEnd r') :
    Checked.SameEnd ⟨r.tree, Scoping.pop r.scopes, r.result⟩
      ⟨r'.tree, Scoping.pop r'.scopes, r'.result⟩ := by
  cases h with
  | ok => exact .ok ..
  | error => exact .error ..

/-- A part whose check does not change the scopes. -/
theorem SameEnd.wrap {α β : Type} {r r' : α × Except Diagnostic Unit} (h : SameEnd r r')
    (f : α → β) (scopes : σ) :
    Checked.SameEnd ⟨f r.1, scopes, r.2⟩ ⟨f r'.1, scopes, r'.2⟩ := by
  cases h with
  | ok => exact .ok ..
  | error => exact .error ..

variable [Scoping σ]

theorem Expr.check_erased (scopes : σ) (e : Expr) :
    SameEnd ((e.relabel .untyped).check scopes) (e.check scopes) := by
  induction e with
  | integer | float | string => exact .ok ..
  | symbol name type span =>
    simp only [relabel, check, Relabel.untyped_span]
    cases Scoping.fetch scopes name span.start with
    | error e => exact .error ..
    | ok found => exact .ok ..
  | binary left op right type span ihl ihr =>
    simp only [relabel, check, Relabel.untyped_span]
    generalize (left.relabel .untyped).check scopes = l', left.check scopes = l at ihl
    cases ihl with
    | error => exact .error ..
    | ok left leftType =>
      dsimp only
      generalize (right.relabel .untyped).check scopes = r', right.check scopes = r at ihr
      cases ihr with
      | error => exact .error ..
      | ok right rightType =>
        dsimp only
        cases leftType.combine rightType op.lexeme span.start with
        | error e => exact .error ..
        | ok found => exact .ok ..
  | unary op operand type span ih =>
    simp only [relabel, check, Relabel.untyped_span]
    generalize (operand.relabel .untyped).check scopes = r', operand.check scopes = r at ih
    cases ih with
    | error => exact .error ..
    | ok operand operandType =>
      dsimp only
      cases op.apply? operandType with
      | none => exact .error ..
      | some found => exact .ok ..

theorem checkOptional_erased (scopes : σ) (e : Option Expr) :
    SameEnd (checkOptional scopes (e.map (Expr.relabel .untyped))) (checkOptional scopes e) := by
  cases e with
  | none => exact .ok ..
  | some e =>
    have he := e.check_erased scopes
    simp only [Option.map_some, checkOptional]
    generalize (e.relabel .untyped).check scopes = r', e.check scopes = r at he
    cases he with
    | ok => exact .ok ..
    | error => exact .error ..

theorem Assignment.check_erased (scopes : σ) (a : Assignment) :
    SameEnd ((a.relabel .untyped).check scopes) (a.check scopes) := by
  obtain ⟨name, value, type, span⟩ := a
  simp only [relabel, check, Relabel.untyped_span]
  cases Scoping.fetch scopes name span.start with
  | error e => exact .error ..
  | ok target =>
    have hvalue := value.check_erased scopes
    dsimp only
    generalize (value.relabel .untyped).check scopes = r', value.check scopes = r at hvalue
    cases hvalue with
    | error => exact .error ..
    | ok value valueType =>
      dsimp only
      cases target.checkAccepts valueType value.span.start with
      | error e => exact .error ..
      | ok _ => exact .ok ..

theorem VarDecl.check_erased (scopes : σ) (d : VarDecl) :
    ((d.relabel .untyped).check scopes).SameEnd (d.check scopes) := by
  obtain ⟨name, type, init, span⟩ := d
  cases init with
  | none =>
    simp only [relabel, Option.map_none, check, Relabel.untyped_span]
    cases Scoping.declare scopes (⟨name, type, none, span⟩ : VarDecl) with
    | error e => exact .error ..
    | ok scopes' => exact .ok ..
  | some init =>
    have hinit := init.check_erased scopes
    simp only [relabel, Option.map_some, check, Relabel.untyped_span]
    generalize (init.relabel .untyped).check scopes = r', init.check scopes = r at hinit
    cases hinit with
    | error => exact .error ..
    | ok init initType =>
      dsimp only
      cases type.checkAccepts initType init.span.start with
      | error e => exact .error ..
      | ok _ =>
        dsimp only
        cases Scoping.declare scopes (⟨name, type, some init, span⟩ : VarDecl) with
        | error e => exact .error ..
        | ok scopes' => exact .ok ..

theorem Return.check_erased (scopes : σ) (r : Return) :
    SameEnd ((r.relabel .untyped).check scopes) (r.check scopes) := by
  obtain ⟨value, type, span⟩ := r
  have hvalue := checkOptional_erased scopes value
  simp only [relabel, check, Relabel.untyped_span]
  generalize checkOptional scopes (value.map (Expr.relabel .untyped)) = r',
    checkOptional scopes value = r at hvalue
  cases hvalue with
  | ok => exact .ok ..
  | error => exact .error ..

mutual

theorem Stmt.check_erased (stmt : Stmt) (scopes : σ) :
    ((stmt.relabel .untyped).check scopes).SameEnd (stmt.check scopes) := by
  cases stmt with
  | varDecl d => exact (d.check_erased scopes).wrap Stmt.varDecl
  | assign a => exact (a.check_erased scopes).wrap Stmt.assign scopes
  | ifElse condition thenBody elseBody span =>
    have hcondition := condition.check_erased scopes
    simp only [Stmt.relabel, Stmt.check, Relabel.untyped_span]
    generalize (condition.relabel .untyped).check scopes = c', condition.check scopes = c
      at hcondition
    cases hcondition with
    | error => exact .error ..
    | ok condition _ =>
      have hthen := thenBody.check_erased scopes
      dsimp only
      generalize (thenBody.relabel .untyped).check scopes = t', thenBody.check scopes = t at hthen
      cases hthen with
      | error => exact .error ..
      | ok thenBody scopes₁ =>
        exact (checkElse_erased elseBody scopes₁).wrap (Stmt.ifElse condition thenBody · span)
  | whileLoop condition body span =>
    have hcondition := condition.check_erased scopes
    simp only [Stmt.relabel, Stmt.check, Relabel.untyped_span]
    generalize (condition.relabel .untyped).check scopes = c', condition.check scopes = c
      at hcondition
    cases hcondition with
    | error => exact .error ..
    | ok condition _ => exact (body.check_erased scopes).wrap (Stmt.whileLoop condition · span)
  | forLoop init condition update body span =>
    have hinit := init.check_erased (Scoping.pushHeader scopes)
    simp only [Stmt.relabel, Stmt.check, Relabel.untyped_span]
    generalize (init.relabel .untyped).check (Scoping.pushHeader scopes) = i',
      init.check (Scoping.pushHeader scopes) = i at hinit
    cases hinit with
    | error => exact .error ..
    | ok init scopes₁ =>
      have hcondition := condition.check_erased scopes₁
      dsimp only
      generalize (condition.relabel .untyped).check scopes₁ = c', condition.check scopes₁ = c
        at hcondition
      cases hcondition with
      | error => exact .error ..
      | ok condition _ =>
        have hupdate := update.check_erased scopes₁
        dsimp only
        generalize (update.relabel .untyped).check scopes₁ = u', update.check scopes₁ = u
          at hupdate
        cases hupdate with
        | error => exact .error ..
        | ok update _ =>
          exact (body.check_erased scopes₁).pop.wrap (Stmt.forLoop init condition update · span)
  | ret r => exact (r.check_erased scopes).wrap Stmt.ret scopes
  | block b => exact (b.check_erased scopes).wrap Stmt.block
termination_by structural stmt

theorem checkElse_erased (block : Option Block) (scopes : σ) :
    (checkElse scopes (relabelElse .untyped block)).SameEnd (checkElse scopes block) := by
  cases block with
  | none => exact .ok ..
  | some b => exact (b.check_erased scopes).wrap some
termination_by structural block

theorem Block.check_erased (block : Block) (scopes : σ) :
    ((block.relabel .untyped).check scopes).SameEnd (block.check scopes) := by
  obtain ⟨body, id, span⟩ := block
  exact (checkAll_erased body (Scoping.push scopes id)).pop.wrap (Block.mk · id span)
termination_by structural block

theorem checkAll_erased (stmts : List Stmt) (scopes : σ) :
    (checkAll scopes (relabelAll .untyped stmts)).SameEnd (checkAll scopes stmts) := by
  cases stmts with
  | nil => exact .ok ..
  | cons stmt stmts =>
    have hstmt := stmt.check_erased scopes
    simp only [relabelAll, checkAll]
    generalize (stmt.relabel .untyped).check scopes = s', stmt.check scopes = s at hstmt
    cases hstmt with
    | error => exact .error ..
    | ok stmt scopes₁ => exact (checkAll_erased stmts scopes₁).wrap (stmt :: ·)
termination_by structural stmts

end

end

theorem Program.check_erased (p : Program) :
    SameEnd (p.relabel .untyped).check p.check := by
  have hbody := checkAll_erased p.body Scopes.fresh
  simp only [relabel, check, Relabel.untyped_span]
  generalize checkAll Scopes.fresh (relabelAll .untyped p.body) = r',
    checkAll Scopes.fresh p.body = r at hbody
  cases hbody with
  | ok => exact .ok ..
  | error => exact .error ..

/-! A check made again. -/

section

variable {σ : Type} [Scoping σ]

section

variable {scopes scopes' : σ} {result : Except Diagnostic Unit}

theorem Expr.check_again {e e' : Expr} {result : Except Diagnostic DataType}
    (h : e.check scopes = (e', result)) : e'.check scopes = (e', result) := by
  induction e generalizing e' result with
  | integer | float | string =>
    cases h
    rfl
  | symbol name type span =>
    rw [check] at h
    split at h <;> next hf =>
      cases h
      rw [check, hf]
  | binary left op right type span ihl ihr =>
    rw [check] at h
    split at h
    · next hl =>
      cases h
      simp only [check, ihl hl]
    next hl =>
    split at h
    · next hr =>
      cases h
      simp only [check, ihl hl, ihr hr]
    next hr =>
    split at h <;> next hc =>
      cases h
      simp only [check, ihl hl, ihr hr, hc]
  | unary op operand type span ih =>
    rw [check] at h
    split at h
    · next ho =>
      cases h
      simp only [check, ih ho]
    next ho =>
    split at h <;> next ha =>
      cases h
      simp only [check, ih ho, ha]

theorem checkOptional_again {e e' : Option Expr} {result : Except Diagnostic DataType}
    (h : checkOptional scopes e = (e', result)) : checkOptional scopes e' = (e', result) := by
  cases e with
  | none =>
    cases h
    rfl
  | some e =>
    rcases he : e.check scopes with ⟨e₁, found⟩
    simp only [checkOptional, he] at h
    cases h
    simp only [checkOptional, Expr.check_again he]

theorem Assignment.check_again {a a' : Assignment} (h : a.check scopes = (a', result)) :
    a'.check scopes = (a', result) := by
  rw [check] at h
  split at h
  · next hf =>
    cases h
    rw [check, hf]
  next hf =>
  split at h
  · next hv =>
    cases h
    simp only [check, hf, Expr.check_again hv]
  next hv =>
  split at h <;> next hc =>
    cases h
    simp only [check, hf, Expr.check_again hv, hc]

theorem VarDecl.check_again {d d' : VarDecl} (h : d.check scopes = ⟨d', scopes', result⟩) :
    d'.check scopes = ⟨d', scopes', result⟩ := by
  obtain ⟨name, type, init, span⟩ := d
  cases init with
  | none =>
    simp only [check] at h
    split at h <;> next hd =>
      cases h
      simp only [check, hd]
  | some init =>
    simp only [check] at h
    split at h
    · next hi =>
      cases h
      simp only [check, Expr.check_again hi]
    next hi =>
    split at h
    · next hc =>
      cases h
      simp only [check, Expr.check_again hi, hc]
    next hc =>
    split at h <;> next hd =>
      cases h
      simp only [check, Expr.check_again hi, hc, hd]

theorem Return.check_again {r r' : Return} (h : r.check scopes = (r', result)) :
    r'.check scopes = (r', result) := by
  rw [check] at h
  split at h <;> next hv =>
    cases h
    simp only [check, checkOptional_again hv]

end

mutual

theorem Stmt.check_again {stmt stmt' : Stmt} {scopes scopes' : σ}
    {result : Except Diagnostic Unit} (h : stmt.check scopes = ⟨stmt', scopes', result⟩) :
    stmt'.check scopes = ⟨stmt', scopes', result⟩ := by
  cases stmt with
  | varDecl d =>
    rcases hd : d.check scopes with ⟨d', scopes₁, result⟩
    simp only [Stmt.check, hd] at h
    cases h
    simp only [Stmt.check, VarDecl.check_again hd]
  | assign a =>
    rcases ha : a.check scopes with ⟨a', result⟩
    simp only [Stmt.check, ha] at h
    cases h
    simp only [Stmt.check, Assignment.check_again ha]
  | ifElse condition thenBody elseBody span =>
    rcases hc : condition.check scopes with ⟨condition', e | _⟩
    · simp only [Stmt.check, hc] at h
      cases h
      simp only [Stmt.check, Expr.check_again hc]
    rcases ht : thenBody.check scopes with ⟨thenBody', scopes₁, e | _⟩
    · simp only [Stmt.check, hc, ht] at h
      cases h
      simp only [Stmt.check, Expr.check_again hc, Block.check_again ht]
    rcases he : checkElse scopes₁ elseBody with ⟨elseBody', scopes₂, result⟩
    simp only [Stmt.check, hc, ht, he] at h
    cases h
    simp only [Stmt.check, Expr.check_again hc, Block.check_again ht, checkElse_again he]
  | whileLoop condition body span =>
    rcases hc : condition.check scopes with ⟨condition', e | _⟩
    · simp only [Stmt.check, hc] at h
      cases h
      simp only [Stmt.check, Expr.check_again hc]
    rcases hb : body.check scopes with ⟨body', scopes₁, result⟩
    simp only [Stmt.check, hc, hb] at h
    cases h
    simp only [Stmt.check, Expr.check_again hc, Block.check_again hb]
  | forLoop init condition update body span =>
    rcases hi : init.check (Scoping.pushHeader scopes) with ⟨init', scopes₁, e | _⟩
    · simp only [Stmt.check, hi] at h
      cases h
      simp only [Stmt.check, Stmt.check_again hi]
    rcases hc : condition.check scopes₁ with ⟨condition', e | _⟩
    · simp only [Stmt.check, hi, hc] at h
      cases h
      simp only [Stmt.check, Stmt.check_again hi, Expr.check_again hc]
    rcases hu : update.check scopes₁ with ⟨update', e | _⟩
    · simp only [Stmt.check, hi, hc, hu] at h
      cases h
      simp only [Stmt.check, Stmt.check_again hi, Expr.check_again hc, Assignment.check_again hu]
    rcases hb : body.check scopes₁ with ⟨body', scopes₂, result⟩
    simp only [Stmt.check, hi, hc, hu, hb] at h
    cases h
    simp only [Stmt.check, Stmt.check_again hi, Expr.check_again hc, Assignment.check_again hu,
      Block.check_again hb]
  | ret r =>
    rcases hr : r.check scopes with ⟨r', result⟩
    simp only [Stmt.check, hr] at h
    cases h
    simp only [Stmt.check, Return.check_again hr]
  | block b =>
    rcases hb : b.check scopes with ⟨b', scopes₁, result⟩
    simp only [Stmt.check, hb] at h
    cases h
    simp only [Stmt.check, Block.check_again hb]
termination_by structural stmt

theorem checkElse_again {block block' : Option Block} {scopes scopes' : σ}
    {result : Except Diagnostic Unit} (h : checkElse scopes block = ⟨block', scopes', result⟩) :
    checkElse scopes block' = ⟨block', scopes', result⟩ := by
  cases block with
  | none =>
    cases h
    rfl
  | some b =>
    rcases hb : b.check scopes with ⟨b', scopes₁, result⟩
    simp only [checkElse, hb] at h
    cases h
    simp only [checkElse, Block.check_again hb]
termination_by structural block

theorem Block.check_again {block block' : Block} {scopes scopes' : σ}
    {result : Except Diagnostic Unit} (h : block.check scopes = ⟨block', scopes', result⟩) :
    block'.check scopes = ⟨block', scopes', result⟩ := by
  obtain ⟨body, id, span⟩ := block
  rcases hb : checkAll (Scoping.push scopes id) body with ⟨body', scopes₁, result⟩
  simp only [Block.check, hb] at h
  cases h
  simp only [Block.check, checkAll_again hb]
termination_by structural block

theorem checkAll_again {stmts stmts' : List Stmt} {scopes scopes' : σ}
    {result : Except Diagnostic Unit} (h : checkAll scopes stmts = ⟨stmts', scopes', result⟩) :
    checkAll scopes stmts' = ⟨stmts', scopes', result⟩ := by
  cases stmts with
  | nil =>
    cases h
    rfl
  | cons stmt stmts =>
    rcases hs : stmt.check scopes with ⟨stmt', scopes₁, e | _⟩
    · simp only [checkAll, hs] at h
      cases h
      simp only [checkAll, Stmt.check_again hs]
    rcases hr : checkAll scopes₁ stmts with ⟨stmts', scopes₂, result⟩
    simp only [checkAll, hs, hr] at h
    cases h
    simp only [checkAll, Stmt.check_again hs, checkAll_again hr]
termination_by structural stmts

end

end

namespace Program

theorem check_again (p : Program) : p.check.1.check = p.check := by
  rcases hb : checkAll Scopes.fresh p.body with ⟨body, scopes, result⟩
  simp only [check, hb, checkAll_again hb]

/-- Types that stand in a tree do not matter to a check. Programs that are the same but for them
come to the same, be it the same tree with the types that it has, or the same error at the same
place. So a check that is made again, on the tree that an earlier one has left, comes to what that
one came to and changes nothing, whether it has succeeded or not. -/
theorem check_ignores_types :
    (∀ p q : Program, p.relabel .untyped = q.relabel .untyped →
      p.check.2 = q.check.2 ∧ (p.check.2 = .ok () → p.check.1 = q.check.1)) ∧
    (∀ p : Program, p.check.1.check = p.check) := by
  refine ⟨?_, check_again⟩
  intro p q h
  have hp := p.check_erased
  rw [h] at hp
  have hsame : SameEnd p.check q.check := hp.symm.trans q.check_erased
  exact ⟨hsame.result_eq, hsame.tree_eq⟩

/-- `int x = -1; return x;` with types that are all wrong, and with none. -/
theorem check_ignores_types_stale :
    let sign (type : Option DataType) : Expr := .unary .negate (.integer 1 .null) type .null
    let p (type : Option DataType) : Program :=
      ⟨[.varDecl ⟨"x", .int, some (sign type), .null⟩,
        .ret ⟨some (.symbol "x" type .null), type, .null⟩], .null⟩
    (p (some .string)).relabel .untyped = (p none).relabel .untyped ∧
    (p none).check.2 = .ok () ∧
    (p (some .string)).check.2 = (p none).check.2 ∧
    (p (some .string)).check.1 = (p none).check.1 := by
  intro sign p
  have hsame : (p (some .string)).relabel .untyped = (p none).relabel .untyped := rfl
  have hok : (p none).check.2 = .ok () := rfl
  obtain ⟨hresult, htree⟩ := check_ignores_types.1 _ _ hsame
  exact ⟨hsame, hok, hresult, htree (hresult.trans hok)⟩

end Program

end MiniC
