import MiniC.Proofs.Tree.Relabel
import MiniC.Proofs.Typing.Context

/-!
The check against the type system. A check of a tree succeeds exactly when the tree is well typed,
and then it has written into every node the type that the judgement gives the node, and nothing
else.
-/

namespace MiniC

open Typing

/-! A check that succeeds shows that its tree is well typed. -/

section

variable {scopes scopes' : Scopes}

/-- What a successful check has found: the tree is well typed as it was, and with the types that
have been written into it, which are all that has changed. -/
def Finds {α : Type} (relabel : Relabel → α → α) (before after : α) (judged : Mark → α → Prop) :
    Prop :=
  judged anything before ∧ judged exactly after ∧ relabel .untyped after = relabel .untyped before

theorem Expr.check_finds {e e' : Expr} {type : DataType} (h : e.check scopes = (e', .ok type)) :
    Finds Expr.relabel e e' fun mark e => HasType mark scopes.context e type := by
  induction e generalizing e' type with
  | integer value span =>
    cases h
    exact ⟨.integer, .integer, rfl⟩
  | float value span =>
    cases h
    exact ⟨.float, .float, rfl⟩
  | string value span =>
    cases h
    exact ⟨.string, .string, rfl⟩
  | symbol name m span =>
    rw [check] at h
    split at h
    · cases h
    · next hf =>
      cases h
      have hr := Scopes.fetch_eq_ok_iff.1 hf
      exact ⟨.symbol hr trivial, .symbol hr rfl, rfl⟩
  | binary left op right m span ihl ihr =>
    rw [check] at h
    split at h
    · cases h
    next hl =>
    split at h
    · cases h
    next hr =>
    split at h
    · cases h
    next hc =>
    cases h
    obtain ⟨hl, hl', hle⟩ := ihl hl
    obtain ⟨hr, hr', hre⟩ := ihr hr
    have hj := DataType.combine_eq_ok_iff.1 hc
    refine ⟨.binary hl hr hj trivial, .binary hl' hr' hj rfl, ?_⟩
    simp only [relabel, hle, hre]
    rfl
  | unary op operand m span ih =>
    rw [check] at h
    split at h
    · cases h
    next ho =>
    split at h
    · cases h
    next ha =>
    cases h
    obtain ⟨ho, ho', hoe⟩ := ih ho
    have ha := UnaryOp.apply?_eq_some_iff.1 ha
    refine ⟨.unary ho ha trivial, .unary ho' ha rfl, ?_⟩
    simp only [relabel, hoe]
    rfl

theorem Assignment.check_finds {a a' : Assignment} (h : a.check scopes = (a', .ok ())) :
    Finds Assignment.relabel a a' fun mark a => Assigns mark scopes.context a := by
  rw [check] at h
  split at h
  · cases h
  next hf =>
  split at h
  · cases h
  next hv =>
  split at h
  · cases h
  next hc =>
  cases h
  have hr := Scopes.fetch_eq_ok_iff.1 hf
  obtain ⟨hv, hv', hve⟩ := Expr.check_finds hv
  have hfit := DataType.checkAccepts_eq_ok_iff.1 hc
  refine ⟨.mk hr hv hfit trivial, .mk hr hv' hfit rfl, ?_⟩
  simp only [relabel, hve]
  rfl

theorem VarDecl.check_finds {d d' : VarDecl} (h : d.check scopes = ⟨d', scopes', .ok ()⟩) :
    Finds VarDecl.relabel d d' fun mark d =>
      Declares mark scopes.context d scopes'.context := by
  obtain ⟨name, type, init, span⟩ := d
  cases init with
  | none =>
    simp only [check] at h
    split at h
    · cases h
    next hd =>
    cases h
    obtain ⟨frame, rest, hctx, hn, hctx'⟩ := Scopes.context_declare hd
    rw [hctx, hctx']
    exact ⟨.plain hn, .plain hn, rfl⟩
  | some init =>
    simp only [check] at h
    split at h
    · cases h
    next hi =>
    split at h
    · cases h
    next hc =>
    split at h
    · cases h
    next hd =>
    cases h
    obtain ⟨frame, rest, hctx, hn, hctx'⟩ := Scopes.context_declare hd
    obtain ⟨hi, hi', hie⟩ := Expr.check_finds hi
    have hfit := DataType.checkAccepts_eq_ok_iff.1 hc
    -- the initial value is judged before the name exists
    rw [hctx] at hi hi'
    rw [hctx, hctx']
    refine ⟨.init hi hfit hn, .init hi' hfit hn, ?_⟩
    simp only [relabel, Option.map_some, hie]

theorem Return.check_finds {r r' : Return} (h : r.check scopes = (r', .ok ())) :
    Finds Return.relabel r r' fun mark r => Returns mark scopes.context r := by
  obtain ⟨value, m, span⟩ := r
  cases value with
  | none =>
    cases h
    exact ⟨.void trivial, .void rfl, rfl⟩
  | some value =>
    rcases hv : value.check scopes with ⟨value', e | type⟩
    · simp [check, checkOptional, hv] at h
    simp only [check, checkOptional, hv] at h
    cases h
    obtain ⟨hv, hv', hve⟩ := Expr.check_finds hv
    refine ⟨.value hv trivial, .value hv' rfl, ?_⟩
    simp only [relabel, Option.map_some, hve]
    rfl

mutual

theorem Stmt.check_finds {stmt stmt' : Stmt} {scopes scopes' : Scopes}
    (h : stmt.check scopes = ⟨stmt', scopes', .ok ()⟩) :
    Finds Stmt.relabel stmt stmt' fun mark stmt =>
      Statement mark scopes.context stmt scopes'.context := by
  cases stmt with
  | varDecl d =>
    rcases hd : d.check scopes with ⟨d', scopes₁, e | _⟩
    · simp [Stmt.check, hd] at h
    simp only [Stmt.check, hd] at h
    cases h
    obtain ⟨hd, hd', hde⟩ := VarDecl.check_finds hd
    exact ⟨.varDecl hd, .varDecl hd', by simp only [Stmt.relabel, hde]⟩
  | assign a =>
    rcases ha : a.check scopes with ⟨a', e | _⟩
    · simp [Stmt.check, ha] at h
    simp only [Stmt.check, ha] at h
    cases h
    obtain ⟨ha, ha', hae⟩ := Assignment.check_finds ha
    exact ⟨.assign ha, .assign ha', by simp only [Stmt.relabel, hae]⟩
  | ifElse condition thenBody elseBody span =>
    rcases hc : condition.check scopes with ⟨condition', e | type⟩
    · simp [Stmt.check, hc] at h
    rcases ht : thenBody.check scopes with ⟨thenBody', scopes₁, e | _⟩
    · simp [Stmt.check, hc, ht] at h
    rcases he : checkElse scopes₁ elseBody with ⟨elseBody', scopes₂, e | _⟩
    · simp [Stmt.check, hc, ht, he] at h
    simp only [Stmt.check, hc, ht, he] at h
    cases h
    obtain ⟨hc, hc', hce⟩ := Expr.check_finds hc
    obtain ⟨hs₁, ht, ht', hte⟩ := Block.check_finds ht
    obtain ⟨hs₂, he, he', hee⟩ := checkElse_finds he
    -- the first branch has left the context as it was
    rw [hs₁] at hs₂ he he'
    rw [hs₂]
    exact ⟨.ifElse hc ht he, .ifElse hc' ht' he', by simp only [Stmt.relabel, hce, hte, hee]⟩
  | whileLoop condition body span =>
    rcases hc : condition.check scopes with ⟨condition', e | type⟩
    · simp [Stmt.check, hc] at h
    rcases hb : body.check scopes with ⟨body', scopes₁, e | _⟩
    · simp [Stmt.check, hc, hb] at h
    simp only [Stmt.check, hc, hb] at h
    cases h
    obtain ⟨hc, hc', hce⟩ := Expr.check_finds hc
    obtain ⟨hs, hb, hb', hbe⟩ := Block.check_finds hb
    rw [hs]
    exact ⟨.whileLoop hc hb, .whileLoop hc' hb', by simp only [Stmt.relabel, hce, hbe]⟩
  | forLoop init condition update body span =>
    rcases hi : init.check scopes.pushHeader with ⟨init', scopes₁, e | _⟩
    · simp [Stmt.check, hi] at h
    rcases hc : condition.check scopes₁ with ⟨condition', e | type⟩
    · simp [Stmt.check, hi, hc] at h
    rcases hu : update.check scopes₁ with ⟨update', e | _⟩
    · simp [Stmt.check, hi, hc, hu] at h
    rcases hb : body.check scopes₁ with ⟨body', scopes₂, e | _⟩
    · simp [Stmt.check, hi, hc, hu, hb] at h
    simp only [Stmt.check, Scopes.scoping_pushHeader, Scopes.scoping_pop, hi, hc, hu, hb] at h
    cases h
    obtain ⟨hi, hi', hie⟩ := Stmt.check_finds hi
    obtain ⟨hc, hc', hce⟩ := Expr.check_finds hc
    obtain ⟨hu, hu', hue⟩ := Assignment.check_finds hu
    obtain ⟨hs, hb, hb', hbe⟩ := Block.check_finds hb
    -- whatever the header has declared goes with its scope
    rw [Scopes.context_pop (hs ▸ hi.tail_eq)]
    exact ⟨.forLoop hi hc hu hb, .forLoop hi' hc' hu' hb',
      by simp only [Stmt.relabel, hie, hce, hue, hbe]⟩
  | ret r =>
    rcases hr : r.check scopes with ⟨r', e | _⟩
    · simp [Stmt.check, hr] at h
    simp only [Stmt.check, hr] at h
    cases h
    obtain ⟨hr, hr', hre⟩ := Return.check_finds hr
    exact ⟨.ret hr, .ret hr', by simp only [Stmt.relabel, hre]⟩
  | block b =>
    rcases hb : b.check scopes with ⟨b', scopes₁, e | _⟩
    · simp [Stmt.check, hb] at h
    simp only [Stmt.check, hb] at h
    cases h
    obtain ⟨hs, hb, hb', hbe⟩ := Block.check_finds hb
    rw [hs]
    exact ⟨.block hb, .block hb', by simp only [Stmt.relabel, hbe]⟩
termination_by structural stmt

theorem checkElse_finds {block block' : Option Block} {scopes scopes' : Scopes}
    (h : checkElse scopes block = ⟨block', scopes', .ok ()⟩) :
    scopes'.context = scopes.context ∧
      Finds relabelElse block block' fun mark block => Else mark scopes.context block := by
  cases block with
  | none =>
    cases h
    exact ⟨rfl, .none, .none, rfl⟩
  | some b =>
    rcases hb : b.check scopes with ⟨b', scopes₁, e | _⟩
    · simp [checkElse, hb] at h
    simp only [checkElse, hb] at h
    cases h
    obtain ⟨hs, hb, hb', hbe⟩ := Block.check_finds hb
    exact ⟨hs, .some hb, .some hb', by simp only [relabelElse, hbe]⟩
termination_by structural block

theorem Block.check_finds {block block' : Block} {scopes scopes' : Scopes}
    (h : block.check scopes = ⟨block', scopes', .ok ()⟩) :
    scopes'.context = scopes.context ∧
      Finds Block.relabel block block' fun mark block =>
        Typing.Block mark scopes.context block := by
  obtain ⟨body, id, span⟩ := block
  rcases hb : checkAll (scopes.push id) body with ⟨body', scopes₁, e | _⟩
  · simp [Block.check, hb] at h
  simp only [Block.check, Scopes.scoping_push, Scopes.scoping_pop, hb] at h
  cases h
  obtain ⟨hb, hb', hbe⟩ := checkAll_finds hb
  exact ⟨Scopes.context_pop hb.tail_eq, .mk hb, .mk hb', by simp only [Block.relabel, hbe]⟩
termination_by structural block

theorem checkAll_finds {stmts stmts' : List Stmt} {scopes scopes' : Scopes}
    (h : checkAll scopes stmts = ⟨stmts', scopes', .ok ()⟩) :
    Finds relabelAll stmts stmts' fun mark stmts =>
      Statements mark scopes.context stmts scopes'.context := by
  cases stmts with
  | nil =>
    cases h
    exact ⟨.nil, .nil, rfl⟩
  | cons stmt stmts =>
    rcases hs : stmt.check scopes with ⟨stmt', scopes₁, e | _⟩
    · simp [checkAll, hs] at h
    rcases hr : checkAll scopes₁ stmts with ⟨stmts', scopes₂, e | _⟩
    · simp [checkAll, hs, hr] at h
    simp only [checkAll, hs, hr] at h
    cases h
    obtain ⟨hs, hs', hse⟩ := Stmt.check_finds hs
    obtain ⟨hr, hr', hre⟩ := checkAll_finds hr
    exact ⟨.cons hs hr, .cons hs' hr', by simp only [relabelAll, hse, hre]⟩
termination_by structural stmts

end

/-! A check of a well typed tree succeeds. -/

theorem Expr.check_of_hasType {e : Expr} {type : DataType}
    (h : HasType anything scopes.context e type) : ∃ e', e.check scopes = (e', .ok type) := by
  induction h with
  | integer => exact ⟨_, rfl⟩
  | float => exact ⟨_, rfl⟩
  | string => exact ⟨_, rfl⟩
  | @symbol name m span type hr _ =>
    have hf : scopes.fetch name span.start = .ok type := Scopes.fetch_eq_ok_iff.2 hr
    exact ⟨_, by rw [check, Scopes.scoping_fetch, hf]⟩
  | @binary left op right m span leftType rightType type _ _ hj _ ihl ihr =>
    obtain ⟨left', hl⟩ := ihl
    obtain ⟨right', hr⟩ := ihr
    have hc : leftType.combine rightType op.lexeme span.start = .ok type :=
      DataType.combine_eq_ok_iff.2 hj
    exact ⟨.binary left' op right' (some type) span, by simp only [check, hl, hr, hc]⟩
  | @unary op operand m span operandType type _ ha _ ih =>
    obtain ⟨operand', ho⟩ := ih
    exact ⟨.unary op operand' (some type) span,
      by simp only [check, ho, UnaryOp.apply?_eq_some_iff.2 ha]⟩

theorem Assignment.check_of_assigns {a : Assignment} (h : Assigns anything scopes.context a) :
    ∃ a', a.check scopes = (a', .ok ()) := by
  cases h with
  | @mk name value m span type valueType hr hv hfit _ =>
    obtain ⟨value', hv⟩ := Expr.check_of_hasType hv
    exact ⟨⟨name, value', some type, span⟩, by
      simp only [check, Scopes.scoping_fetch, Scopes.fetch_eq_ok_iff.2 hr, hv,
        DataType.checkAccepts_eq_ok_iff.2 hfit]⟩

theorem VarDecl.check_of_declares {d : VarDecl} {context context' : Context}
    (h : Declares anything context d context') (hctx : scopes.context = context) :
    ∃ d' scopes', d.check scopes = ⟨d', scopes', .ok ()⟩ ∧ scopes'.context = context' := by
  cases h with
  | @plain frame outer name type span hn =>
    obtain ⟨scopes', hd, hctx'⟩ := Scopes.declare_of_context span.start hctx hn
    exact ⟨⟨name, type, none, span⟩, scopes', by simp only [check, Scopes.scoping_declare, hd],
      hctx'⟩
  | @init frame outer name type init initType span hi hfit hn =>
    obtain ⟨init', hi⟩ := Expr.check_of_hasType (hctx ▸ hi)
    obtain ⟨scopes', hd, hctx'⟩ := Scopes.declare_of_context span.start hctx hn
    exact ⟨⟨name, type, some init', span⟩, scopes', by
      simp only [check, hi, DataType.checkAccepts_eq_ok_iff.2 hfit, Scopes.scoping_declare, hd],
      hctx'⟩

theorem Return.check_of_returns {r : Return} (h : Returns anything scopes.context r) :
    ∃ r', r.check scopes = (r', .ok ()) := by
  cases h with
  | void _ => exact ⟨_, rfl⟩
  | @value value m span type hv _ =>
    obtain ⟨value', hv⟩ := Expr.check_of_hasType hv
    exact ⟨⟨some value', some type, span⟩, by simp only [check, checkOptional, hv]⟩

end

mutual

theorem Stmt.check_of_statement {stmt : Stmt} (scopes : Scopes) {context' : Context}
    (h : Statement anything scopes.context stmt context') :
    ∃ stmt' scopes', stmt.check scopes = ⟨stmt', scopes', .ok ()⟩ ∧
      scopes'.context = context' := by
  cases stmt with
  | varDecl d =>
    obtain ⟨h⟩ := h
    obtain ⟨d', scopes', hd, hctx⟩ := VarDecl.check_of_declares h rfl
    exact ⟨.varDecl d', scopes', by simp only [Stmt.check, hd], hctx⟩
  | assign a =>
    cases h with
    | assign h =>
      obtain ⟨a', ha⟩ := Assignment.check_of_assigns h
      exact ⟨.assign a', scopes, by simp only [Stmt.check, ha], rfl⟩
  | ifElse condition thenBody elseBody span =>
    cases h with
    | ifElse hc ht he =>
      obtain ⟨condition', hc⟩ := Expr.check_of_hasType hc
      obtain ⟨thenBody', scopes₁, ht, hs₁⟩ := Block.check_of_block ht
      obtain ⟨elseBody', scopes₂, he, hs₂⟩ := checkElse_of_else (hs₁ ▸ he)
      exact ⟨.ifElse condition' thenBody' elseBody' span, scopes₂,
        by simp only [Stmt.check, hc, ht, he], hs₂.trans hs₁⟩
  | whileLoop condition body span =>
    cases h with
    | whileLoop hc hb =>
      obtain ⟨condition', hc⟩ := Expr.check_of_hasType hc
      obtain ⟨body', scopes₁, hb, hs⟩ := Block.check_of_block hb
      exact ⟨.whileLoop condition' body' span, scopes₁, by simp only [Stmt.check, hc, hb], hs⟩
  | forLoop init condition update body span =>
    cases h with
    | forLoop hi hc hu hb =>
      have htail := hi.tail_eq
      obtain ⟨init', scopes₁, hinit, rfl⟩ := Stmt.check_of_statement scopes.pushHeader hi
      obtain ⟨condition', hc⟩ := Expr.check_of_hasType hc
      obtain ⟨update', hu⟩ := Assignment.check_of_assigns hu
      obtain ⟨body', scopes₂, hb, hs⟩ := Block.check_of_block hb
      refine ⟨.forLoop init' condition' update' body' span, scopes₂.pop, ?_,
        Scopes.context_pop (hs ▸ htail)⟩
      simp only [Stmt.check, Scopes.scoping_pushHeader, Scopes.scoping_pop, hinit, hc, hu, hb]
  | ret r =>
    cases h with
    | ret h =>
      obtain ⟨r', hr⟩ := Return.check_of_returns h
      exact ⟨.ret r', scopes, by simp only [Stmt.check, hr], rfl⟩
  | block b =>
    cases h with
    | block h =>
      obtain ⟨b', scopes₁, hb, hs⟩ := Block.check_of_block h
      exact ⟨.block b', scopes₁, by simp only [Stmt.check, hb], hs⟩
termination_by structural stmt

theorem checkElse_of_else {block : Option Block} {scopes : Scopes}
    (h : Else anything scopes.context block) :
    ∃ block' scopes', checkElse scopes block = ⟨block', scopes', .ok ()⟩ ∧
      scopes'.context = scopes.context := by
  cases block with
  | none => exact ⟨none, scopes, rfl, rfl⟩
  | some b =>
    cases h with
    | some h =>
      obtain ⟨b', scopes₁, hb, hs⟩ := Block.check_of_block h
      exact ⟨some b', scopes₁, by simp only [checkElse, hb], hs⟩
termination_by structural block

theorem Block.check_of_block {block : Block} {scopes : Scopes}
    (h : Typing.Block anything scopes.context block) :
    ∃ block' scopes', block.check scopes = ⟨block', scopes', .ok ()⟩ ∧
      scopes'.context = scopes.context := by
  obtain ⟨body, id, span⟩ := block
  cases h with
  | mk h =>
    have htail := h.tail_eq
    obtain ⟨body', scopes₁, hb, rfl⟩ := checkAll_of_statements (scopes.push id) h
    refine ⟨⟨body', id, span⟩, scopes₁.pop, ?_, Scopes.context_pop htail⟩
    simp only [Block.check, Scopes.scoping_push, Scopes.scoping_pop, hb]
termination_by structural block

theorem checkAll_of_statements {stmts : List Stmt} (scopes : Scopes) {context' : Context}
    (h : Statements anything scopes.context stmts context') :
    ∃ stmts' scopes', checkAll scopes stmts = ⟨stmts', scopes', .ok ()⟩ ∧
      scopes'.context = context' := by
  cases stmts with
  | nil =>
    cases h
    exact ⟨[], scopes, rfl, rfl⟩
  | cons stmt stmts =>
    cases h with
    | cons h hs =>
      obtain ⟨stmt', scopes₁, hstmt, rfl⟩ := Stmt.check_of_statement scopes h
      obtain ⟨stmts', scopes₂, hs, hctx⟩ := checkAll_of_statements scopes₁ hs
      exact ⟨stmt' :: stmts', scopes₂, by simp only [checkAll, hstmt, hs], hctx⟩
termination_by structural stmts

end

/-- The check is the type system: it succeeds exactly on the programs that are well typed, and then
it has written into every node that carries a type the one that the node has, and has changed
nothing else. -/
theorem Program.check_iff_typed (p : Program) :
    (p.check.2 = .ok () ↔ Typed anything p) ∧
    (p.check.2 = .ok () → Typed exactly p.check.1 ∧
      p.check.1.relabel .untyped = p.relabel .untyped) := by
  have hfinds : p.check.2 = .ok () → Typed anything p ∧ Typed exactly p.check.1 ∧
      p.check.1.relabel .untyped = p.relabel .untyped := by
    intro h
    rcases hc : checkAll Scopes.fresh p.body with ⟨body, scopes, e | _⟩
    · simp [check, hc] at h
    obtain ⟨hb, hb', hbe⟩ := checkAll_finds hc
    simp only [check, hc]
    exact ⟨⟨_, hb⟩, ⟨_, hb'⟩, by simp only [relabel, hbe]⟩
  refine ⟨⟨fun h => (hfinds h).1, ?_⟩, fun h => (hfinds h).2⟩
  rintro ⟨context, h⟩
  obtain ⟨body, scopes, hc, -⟩ := checkAll_of_statements .fresh h
  simp only [check, hc]

end MiniC
