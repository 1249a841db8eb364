import MiniC.Proofs.Tree.Relabel
import MiniC.Proofs.Tree.Walk
import MiniC.Typing.Node

/-!
What a check does to a tree, whether it succeeds or not: it writes types and changes nothing else,
and an error that it finds points to where a node of the tree starts.
-/

namespace MiniC

/-! Types are all that changes, whatever the check runs over. -/

section

variable {σ : Type} [Scoping σ]

theorem Expr.check_untyped (scopes : σ) (e : Expr) :
    (e.check scopes).1.relabel .untyped = e.relabel .untyped := by
  induction e with
  | integer | float | string => rfl
  | symbol name type span =>
    rw [check]
    cases Scoping.fetch scopes name span.start <;> rfl
  | binary left op right type span ihl ihr =>
    rw [check]
    rcases hl : left.check scopes with ⟨left', e | leftType⟩
    · rw [hl] at ihl
      simp only [relabel, ihl]
    rcases hr : right.check scopes with ⟨right', e | rightType⟩
    · rw [hl] at ihl
      rw [hr] at ihr
      simp only [relabel, ihl, ihr]
    · rw [hl] at ihl
      rw [hr] at ihr
      dsimp only
      cases leftType.combine rightType op.lexeme span.start <;>
        simp only [relabel, ihl, ihr, Relabel.untyped_type]
  | unary op operand type span ih =>
    rw [check]
    rcases ho : operand.check scopes with ⟨operand', e | operandType⟩
    · rw [ho] at ih
      simp only [relabel, ih]
    · rw [ho] at ih
      dsimp only
      cases op.apply? operandType <;> simp only [relabel, ih, Relabel.untyped_type]

theorem Expr.check_span (scopes : σ) (e : Expr) : (e.check scopes).1.span = e.span := by
  have h := congrArg Expr.span (e.check_untyped scopes)
  rwa [relabel_span, relabel_span] at h

theorem checkOptional_untyped (scopes : σ) (e : Option Expr) :
    (checkOptional scopes e).1.map (Expr.relabel .untyped) = e.map (Expr.relabel .untyped) := by
  cases e with
  | none => rfl
  | some e => exact congrArg some (e.check_untyped scopes)

theorem Assignment.check_untyped (scopes : σ) (a : Assignment) :
    (a.check scopes).1.relabel .untyped = a.relabel .untyped := by
  obtain ⟨name, value, type, span⟩ := a
  have hvalue := value.check_untyped scopes
  rw [check]
  cases Scoping.fetch scopes name span.start with
  | error e => rfl
  | ok target =>
    rcases hv : value.check scopes with ⟨value', e | valueType⟩
    · rw [hv] at hvalue
      simp only [relabel, hvalue]
    · rw [hv] at hvalue
      dsimp only
      cases target.checkAccepts valueType value'.span.start <;>
        simp only [relabel, hvalue, Relabel.untyped_type]

theorem VarDecl.check_untyped (scopes : σ) (d : VarDecl) :
    (d.check scopes).tree.relabel .untyped = d.relabel .untyped := by
  obtain ⟨name, type, init, span⟩ := d
  cases init with
  | none =>
    simp only [check]
    cases Scoping.declare scopes (⟨name, type, none, span⟩ : VarDecl) <;> rfl
  | some init =>
    have hinit := init.check_untyped scopes
    rcases hi : init.check scopes with ⟨init', e | initType⟩
    · rw [hi] at hinit
      simp only [check, hi, relabel, Option.map_some, hinit]
    · rw [hi] at hinit
      simp only [check, hi]
      cases type.checkAccepts initType init'.span.start with
      | error e => simp only [relabel, Option.map_some, hinit]
      | ok _ => cases Scoping.declare scopes (⟨name, type, some init', span⟩ : VarDecl) <;>
          simp only [relabel, Option.map_some, hinit]

theorem Return.check_untyped (scopes : σ) (r : Return) :
    (r.check scopes).1.relabel .untyped = r.relabel .untyped := by
  obtain ⟨value, type, span⟩ := r
  have hvalue := checkOptional_untyped scopes value
  rw [check]
  rcases hv : checkOptional scopes value with ⟨value', e | valueType⟩ <;>
    rw [hv] at hvalue <;> simp only [relabel, hvalue, Relabel.untyped_type]

mutual

theorem Stmt.check_untyped (stmt : Stmt) (scopes : σ) :
    (stmt.check scopes).tree.relabel .untyped = stmt.relabel .untyped := by
  cases stmt with
  | varDecl d => exact congrArg Stmt.varDecl (d.check_untyped scopes)
  | assign a => exact congrArg Stmt.assign (a.check_untyped scopes)
  | ifElse condition thenBody elseBody span =>
    have hcondition := condition.check_untyped scopes
    have hthen := thenBody.check_untyped scopes
    rw [Stmt.check]
    rcases hc : condition.check scopes with ⟨condition', e | _⟩
    · rw [hc] at hcondition
      simp only [Stmt.relabel, hcondition]
    rw [hc] at hcondition
    rcases ht : thenBody.check scopes with ⟨thenBody', scopes₁, e | _⟩
    · rw [ht] at hthen
      simp only [Stmt.relabel, hcondition, hthen]
    · rw [ht] at hthen
      simp only [Stmt.relabel, hcondition, hthen, checkElse_untyped elseBody]
  | whileLoop condition body span =>
    have hcondition := condition.check_untyped scopes
    rw [Stmt.check]
    rcases hc : condition.check scopes with ⟨condition', e | _⟩
    · rw [hc] at hcondition
      simp only [Stmt.relabel, hcondition]
    · rw [hc] at hcondition
      simp only [Stmt.relabel, hcondition, body.check_untyped]
  | forLoop init condition update body span =>
    have hinit := init.check_untyped (Scoping.pushHeader scopes)
    rw [Stmt.check]
    rcases hi : init.check (Scoping.pushHeader scopes) with ⟨init', scopes₁, e | _⟩
    · rw [hi] at hinit
      simp only [Stmt.relabel, hinit]
    rw [hi] at hinit
    have hcondition := condition.check_untyped scopes₁
    dsimp only
    rcases hc : condition.check scopes₁ with ⟨condition', e | _⟩
    · rw [hc] at hcondition
      simp only [Stmt.relabel, hinit, hcondition]
    rw [hc] at hcondition
    have hupdate := update.check_untyped scopes₁
    dsimp only
    rcases hu : update.check scopes₁ with ⟨update', e | _⟩
    · rw [hu] at hupdate
      simp only [Stmt.relabel, hinit, hcondition, hupdate]
    · rw [hu] at hupdate
      simp only [Stmt.relabel, hinit, hcondition, hupdate, body.check_untyped]
  | ret r => exact congrArg Stmt.ret (r.check_untyped scopes)
  | block b => exact congrArg Stmt.block (b.check_untyped scopes)
termination_by structural stmt

theorem checkElse_untyped (block : Option Block) (scopes : σ) :
    relabelElse .untyped (checkElse scopes block).tree = relabelElse .untyped block := by
  cases block with
  | none => rfl
  | some b => exact congrArg some (b.check_untyped scopes)
termination_by structural block

theorem Block.check_untyped (block : Block) (scopes : σ) :
    (block.check scopes).tree.relabel .untyped = block.relabel .untyped := by
  obtain ⟨body, id, span⟩ := block
  simp only [Block.check, Block.relabel, checkAll_untyped body]
termination_by structural block

theorem checkAll_untyped (stmts : List Stmt) (scopes : σ) :
    relabelAll .untyped (checkAll scopes stmts).tree = relabelAll .untyped stmts := by
  cases stmts with
  | nil => rfl
  | cons stmt stmts =>
    have hstmt := stmt.check_untyped scopes
    rw [checkAll]
    rcases hs : stmt.check scopes with ⟨stmt', scopes₁, e | _⟩
    · rw [hs] at hstmt
      simp only [relabelAll, hstmt]
    · rw [hs] at hstmt
      simp only [relabelAll, hstmt, checkAll_untyped stmts]
termination_by structural stmts

end

end

theorem Program.check_untyped (p : Program) :
    p.check.1.relabel .untyped = p.relabel .untyped := by
  have h := checkAll_untyped p.body Scopes.fresh
  unfold check
  rcases hc : checkAll Scopes.fresh p.body with ⟨body, scopes, result⟩
  rw [hc] at h
  simp only [relabel, h]

/-! Errors point to nodes. -/

/-- An error of types or names. -/
def Cause.Semantic (cause : Cause) : Prop :=
  cause.kind = .typing ∨ cause.kind = .scoping

/-- An error of types or names that points to where one of the visited nodes starts. -/
structure Diagnostic.Blames (e : Diagnostic) (walk : List (Nat × Node)) : Prop where
  semantic : e.cause.Semantic
  node : ∃ visited ∈ walk, e.position = visited.2.span.start

theorem Diagnostic.Blames.mono {e : Diagnostic} {walk walk' : List (Nat × Node)}
    (h : e.Blames walk) (hsub : walk ⊆ walk') : e.Blames walk' := by
  obtain ⟨hs, visited, hmem, hpos⟩ := h
  exact ⟨hs, visited, hsub hmem, hpos⟩

section

variable {scopes scopes' : Scopes} {name operator : String} {type left right : DataType}
  {position : Position} {e : Diagnostic}

theorem Scopes.fetch_error (h : scopes.fetch name position = .error e) :
    e.cause.Semantic ∧ e.position = position := by
  unfold fetch at h
  split at h
  · cases h
  · cases h
    exact ⟨.inr rfl, rfl⟩

theorem Scope.declare_error {scope : Scope} (h : scope.declare name type position = .error e) :
    e.cause.Semantic ∧ e.position = position := by
  unfold declare at h
  split at h
  · cases h
    exact ⟨.inr rfl, rfl⟩
  · cases h

theorem Scopes.declare_error (h : scopes.declare name type position = .error e) :
    e.cause.Semantic ∧ e.position = position := by
  unfold declare declareGlobal at h
  split at h
  · cases hd : scopes.outermost.declare name type position with
    | ok scope =>
      rw [hd] at h
      cases h
    | error e' =>
      rw [hd] at h
      cases h
      exact Scope.declare_error hd
  · next scope outer hn =>
    cases hd : scope.declare name type position with
    | ok scope =>
      rw [hd] at h
      cases h
    | error e' =>
      rw [hd] at h
      cases h
      exact Scope.declare_error hd

theorem DataType.combine_error (h : left.combine right operator position = .error e) :
    e.cause.Semantic ∧ e.position = position := by
  unfold combine at h
  split at h
  · cases h
  · cases h
    exact ⟨.inl rfl, rfl⟩

theorem DataType.checkAccepts_error (h : left.checkAccepts right position = .error e) :
    e.cause.Semantic ∧ e.position = position := by
  unfold checkAccepts at h
  split at h
  · cases h
  · cases h
    exact ⟨.inl rfl, rfl⟩

/-- An error that was found at an expression. -/
theorem Expr.blames {x : Expr} (h : e.cause.Semantic ∧ e.position = x.span.start) (depth : Nat) :
    e.Blames (x.walk depth) :=
  ⟨h.1, _, x.mem_walk depth, h.2⟩

end

theorem Expr.check_error {scopes : Scopes} {x x' : Expr} {e : Diagnostic}
    (h : x.check scopes = (x', .error e)) (depth : Nat) : e.Blames (x.walk depth) := by
  induction x generalizing x' depth with
  | integer | float | string => cases h
  | symbol name type span =>
    rw [check] at h
    split at h
    · next hf =>
      cases h
      exact blames (Scopes.fetch_error hf) depth
    · cases h
  | binary left op right type span ihl ihr =>
    rw [check] at h
    split at h
    · next hl =>
      cases h
      exact (ihl hl (depth + 1)).mono fun _ hm => by simp [walk, hm]
    split at h
    · next hr =>
      cases h
      exact (ihr hr (depth + 1)).mono fun _ hm => by simp [walk, hm]
    split at h
    · next hc =>
      cases h
      exact blames (DataType.combine_error hc) depth
    · cases h
  | unary op operand type span ih =>
    rw [check] at h
    split at h
    · next ho =>
      cases h
      exact (ih ho (depth + 1)).mono fun _ hm => by simp [walk, hm]
    split at h
    · cases h
      exact blames ⟨.inl rfl, rfl⟩ depth
    · cases h

/-- A value that does not fit is blamed where it starts, as it was before it got its types. -/
theorem Expr.accepts_error {scopes : Scopes} {x x' : Expr} {target : DataType}
    {result : Except Diagnostic DataType} {found : DataType} {e : Diagnostic}
    (hx : x.check scopes = (x', result))
    (h : target.checkAccepts found x'.span.start = .error e) (depth : Nat) :
    e.Blames (x.walk depth) := by
  have hspan := x.check_span scopes
  rw [hx] at hspan
  obtain ⟨hs, hpos⟩ := DataType.checkAccepts_error h
  exact blames ⟨hs, hspan ▸ hpos⟩ depth

theorem Assignment.check_error {scopes : Scopes} {a a' : Assignment} {e : Diagnostic}
    (h : a.check scopes = (a', .error e)) (depth : Nat) :
    e.Blames ((depth, .assignment a) :: a.walkParts depth) := by
  rw [check] at h
  split at h
  · next hf =>
    cases h
    obtain ⟨hs, hpos⟩ := Scopes.fetch_error hf
    exact ⟨hs, _, List.mem_cons_self, hpos⟩
  split at h
  · next hv =>
    cases h
    exact (Expr.check_error hv (depth + 1)).mono (List.subset_cons_self _ _)
  next hv =>
  split at h
  · next hc =>
    cases h
    exact (Expr.accepts_error hv hc (depth + 1)).mono (List.subset_cons_self _ _)
  · cases h

theorem VarDecl.check_error {scopes scopes' : Scopes} {d d' : VarDecl} {e : Diagnostic}
    (h : d.check scopes = ⟨d', scopes', .error e⟩) (depth : Nat) :
    e.Blames ((Stmt.varDecl d).walk depth) := by
  obtain ⟨name, type, init, span⟩ := d
  cases init with
  | none =>
    simp only [check] at h
    split at h
    · next hd =>
      cases h
      obtain ⟨hs, hpos⟩ := Scopes.declare_error hd
      exact ⟨hs, _, Stmt.mem_walk _ depth, hpos⟩
    · cases h
  | some init =>
    simp only [check] at h
    split at h
    · next hi =>
      cases h
      exact (Expr.check_error hi (depth + 1)).mono fun _ hm => by simp [Stmt.walk, hm]
    next hi =>
    split at h
    · next hc =>
      cases h
      exact (Expr.accepts_error hi hc (depth + 1)).mono fun _ hm => by simp [Stmt.walk, hm]
    split at h
    · next hd =>
      cases h
      obtain ⟨hs, hpos⟩ := Scopes.declare_error hd
      exact ⟨hs, _, Stmt.mem_walk _ depth, hpos⟩
    · cases h

theorem Return.check_error {scopes : Scopes} {r r' : Return} {e : Diagnostic}
    (h : r.check scopes = (r', .error e)) (depth : Nat) :
    e.Blames ((Stmt.ret r).walk depth) := by
  obtain ⟨value, type, span⟩ := r
  cases value with
  | none => cases h
  | some value =>
    rcases hv : value.check scopes with ⟨value', e' | found⟩
    · simp only [check, checkOptional, hv] at h
      cases h
      exact (Expr.check_error hv (depth + 1)).mono fun _ hm => by simp [Stmt.walk, hm]
    · simp [check, checkOptional, hv] at h

mutual

theorem Stmt.check_error {stmt stmt' : Stmt} {scopes scopes' : Scopes} {e : Diagnostic}
    (h : stmt.check scopes = ⟨stmt', scopes', .error e⟩) (depth : Nat) :
    e.Blames (stmt.walk depth) := by
  cases stmt with
  | varDecl d =>
    rcases hd : d.check scopes with ⟨d', scopes₁, result⟩
    simp only [Stmt.check, hd] at h
    cases h
    exact VarDecl.check_error hd depth
  | assign a =>
    rcases ha : a.check scopes with ⟨a', result⟩
    simp only [Stmt.check, ha] at h
    cases h
    obtain ⟨hs, visited, hmem, hpos⟩ := Assignment.check_error ha depth
    -- the node of the statement starts where that of its assignment does
    rcases List.mem_cons.1 hmem with rfl | hmem
    · exact ⟨hs, _, Stmt.mem_walk _ depth, hpos⟩
    · exact ⟨hs, visited, by simp [Stmt.walk, hmem], hpos⟩
  | ifElse condition thenBody elseBody span =>
    rcases hc : condition.check scopes with ⟨condition', e' | _⟩
    · simp only [Stmt.check, hc] at h
      cases h
      exact (Expr.check_error hc (depth + 1)).mono fun _ hm => by simp [Stmt.walk, hm]
    rcases ht : thenBody.check scopes with ⟨thenBody', scopes₁, e' | _⟩
    · simp only [Stmt.check, hc, ht] at h
      cases h
      exact (Block.check_error ht (depth + 1)).mono fun _ hm => by simp [Stmt.walk, hm]
    · rcases he : checkElse scopes₁ elseBody with ⟨elseBody', scopes₂, result⟩
      simp only [Stmt.check, hc, ht, he] at h
      cases h
      exact (checkElse_error he (depth + 1)).mono fun _ hm => by simp [Stmt.walk, hm]
  | whileLoop condition body span =>
    rcases hc : condition.check scopes with ⟨condition', e' | _⟩
    · simp only [Stmt.check, hc] at h
      cases h
      exact (Expr.check_error hc (depth + 1)).mono fun _ hm => by simp [Stmt.walk, hm]
    · rcases hb : body.check scopes with ⟨body', scopes₁, result⟩
      simp only [Stmt.check, hc, hb] at h
      cases h
      exact (Block.check_error hb (depth + 1)).mono fun _ hm => by simp [Stmt.walk, hm]
  | forLoop init condition update body span =>
    rcases hi : init.check (Scoping.pushHeader scopes) with ⟨init', scopes₁, e' | _⟩
    · simp only [Stmt.check, hi] at h
      cases h
      exact (Stmt.check_error hi (depth + 1)).mono fun _ hm => by simp [Stmt.walk, hm]
    rcases hc : condition.check scopes₁ with ⟨condition', e' | _⟩
    · simp only [Stmt.check, hi, hc] at h
      cases h
      exact (Expr.check_error hc (depth + 1)).mono fun _ hm => by simp [Stmt.walk, hm]
    rcases hu : update.check scopes₁ with ⟨update', e' | _⟩
    · simp only [Stmt.check, hi, hc, hu] at h
      cases h
      exact (Assignment.check_error hu (depth + 1)).mono fun _ hm => by
        rcases List.mem_cons.1 hm with rfl | hm
        · simp [Stmt.walk]
        · simp [Stmt.walk, hm]
    · rcases hb : body.check scopes₁ with ⟨body', scopes₂, result⟩
      simp only [Stmt.check, hi, hc, hu, hb] at h
      cases h
      exact (Block.check_error hb (depth + 1)).mono fun _ hm => by simp [Stmt.walk, hm]
  | ret r =>
    rcases hr : r.check scopes with ⟨r', result⟩
    simp only [Stmt.check, hr] at h
    cases h
    exact Return.check_error hr depth
  | block b =>
    rcases hb : b.check scopes with ⟨b', scopes₁, result⟩
    simp only [Stmt.check, hb] at h
    cases h
    obtain ⟨hs, visited, hmem, hpos⟩ := Block.check_error hb depth
    obtain ⟨body, id, span⟩ := b
    rcases List.mem_cons.1 hmem with rfl | hmem
    · exact ⟨hs, _, Stmt.mem_walk _ depth, hpos⟩
    · exact ⟨hs, visited, by simp [Stmt.walk, hmem], hpos⟩
termination_by structural stmt

theorem checkElse_error {block block' : Option Block} {scopes scopes' : Scopes} {e : Diagnostic}
    (h : checkElse scopes block = ⟨block', scopes', .error e⟩) (depth : Nat) :
    e.Blames (walkElse depth block) := by
  cases block with
  | none => cases h
  | some b =>
    rcases hb : b.check scopes with ⟨b', scopes₁, result⟩
    simp only [checkElse, hb] at h
    cases h
    exact Block.check_error hb depth
termination_by structural block

theorem Block.check_error {block block' : Block} {scopes scopes' : Scopes} {e : Diagnostic}
    (h : block.check scopes = ⟨block', scopes', .error e⟩) (depth : Nat) :
    e.Blames (block.walk depth) := by
  obtain ⟨body, id, span⟩ := block
  rcases hb : checkAll (Scoping.push scopes id) body with ⟨body', scopes₁, result⟩
  simp only [Block.check, hb] at h
  cases h
  exact (checkAll_error hb (depth + 1)).mono fun _ hm => by simp [Block.walk, hm]
termination_by structural block

theorem checkAll_error {stmts stmts' : List Stmt} {scopes scopes' : Scopes} {e : Diagnostic}
    (h : checkAll scopes stmts = ⟨stmts', scopes', .error e⟩) (depth : Nat) :
    e.Blames (walkAll depth stmts) := by
  cases stmts with
  | nil => cases h
  | cons stmt stmts =>
    rcases hs : stmt.check scopes with ⟨stmt', scopes₁, e' | _⟩
    · simp only [checkAll, hs] at h
      cases h
      exact (Stmt.check_error hs depth).mono fun _ hm => by simp [walkAll, hm]
    · rcases hr : checkAll scopes₁ stmts with ⟨stmts', scopes₂, result⟩
      simp only [checkAll, hs, hr] at h
      cases h
      exact (checkAll_error hr depth).mono fun _ hm => by simp [walkAll, hm]
termination_by structural stmts

end

end MiniC
