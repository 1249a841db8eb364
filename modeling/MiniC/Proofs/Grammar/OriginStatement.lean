import MiniC.Proofs.Grammar.Origin
import MiniC.Proofs.Grammar.TopLevel

/-!
Where statements and their errors come from.
-/

namespace MiniC

open Grammar Parse

/-- All nodes of an assignment stem from these tokens, be it a statement or the update of a loop. -/
def Assignment.Stems (tokens : List Token) (a : Assignment) : Prop :=
  ∀ depth, Stem tokens ((depth, .assignment a) :: a.walkParts depth)

def Stmt.Stems (tokens : List Token) (stmt : Stmt) : Prop :=
  ∀ depth, Stem tokens (stmt.walk depth)

def Block.Stems (tokens : List Token) (block : Block) : Prop :=
  ∀ depth, Stem tokens (block.walk depth)

variable {tokens : List Token}

/-- An assignment looks the same in both places. -/
theorem Assignment.Stems.stmt {a : Assignment} (h : a.Stems tokens) :
    (Stmt.assign a).Stems tokens := by
  intro depth
  obtain ⟨⟨hs, hn⟩, hparts⟩ := stem_cons.1 (h depth)
  rw [Stmt.walk]
  exact stem_cons.2 ⟨⟨hs, hn⟩, hparts⟩

theorem Block.Stems.stmt {b : Block} (h : b.Stems tokens) : (Stmt.block b).Stems tokens := by
  intro depth
  obtain ⟨body, id, span⟩ := b
  have hb := h depth
  rw [Block.walk, stem_cons] at hb
  obtain ⟨⟨hs, -⟩, hbody⟩ := hb
  rw [Stmt.walk]
  exact stem_cons.2 ⟨⟨hs, by simp [Node.name?]⟩, hbody⟩

namespace Grammar

theorem typeKeyword_keeps :
    Keeps tokens typeKeyword fun found => ∃ token ∈ tokens, found.2 = token.span.start := by
  refine (Keeps.peek _).bind fun token _ => ?_
  cases token.dataType? with
  | none => exact .unexpected _
  | some type => exact Keeps.advance.map fun token ht => ⟨token, ht, rfl⟩

/-- All nodes of an optional expression stem from these tokens. -/
def StemsOptional (tokens : List Token) (e : Option Expr) : Prop :=
  ∀ e' ∈ e, e'.Stems tokens

theorem StemsOptional.walk {e : Option Expr} (h : StemsOptional tokens e) (depth : Nat) :
    Stem tokens (e.toList.flatMap (·.walk depth)) := by
  cases e with
  | none => exact stem_nil
  | some e => simpa using h e rfl depth

section

variable (levels : Nat)

theorem expression_optional_keeps :
    Keeps tokens (expression levels >>= fun e => pure (some e)) (StemsOptional tokens) :=
  (expression_keeps levels).map fun _ he _ h => Option.some.inj h ▸ he

theorem initialValue_keeps :
    Keeps tokens (initialValue (expression levels)) (StemsOptional tokens) := by
  refine .get fun c hc => ?_
  split
  · exact (Keeps.advance c hc).bind fun _ _ => expression_optional_keeps levels
  · exact ⟨hc, nofun⟩

theorem varDecl_keeps :
    Keeps tokens (varDecl (expression levels)) fun d => (Stmt.varDecl d).Stems tokens := by
  refine typeKeyword_keeps.bind fun ⟨type, start⟩ hstart => ?_
  obtain ⟨first, hfirst, rfl⟩ := hstart
  refine (Keeps.expectKind _ _).bind fun name hname => ?_
  refine (initialValue_keeps levels).bind fun init hinit => ?_
  refine (Keeps.expectOperator _).bind fun _ _ => ?_
  refine .finish fun c depth => ?_
  rw [Stmt.walk]
  refine stem_cons.2 ⟨⟨⟨first, hfirst, rfl⟩, ?_⟩, hinit.walk _⟩
  rintro _ ⟨rfl⟩
  exact ⟨name, hname.1, hname.2, rfl⟩

theorem assignment_keeps (terminated : Bool) :
    Keeps tokens (assignment (expression levels) terminated) (Assignment.Stems tokens) := by
  refine (Keeps.expectKind _ _).bind fun name hname => ?_
  refine (Keeps.expectOperator _).bind fun _ _ => ?_
  refine (expression_keeps levels).bind fun value hvalue => ?_
  have hend : Keeps tokens (do
      return ⟨name.lexeme, value, none, (← get).spanFrom name.span.start⟩)
      (Assignment.Stems tokens) :=
    .finish fun c depth => stem_cons.2 ⟨.named hname.1 rfl hname.2 rfl, hvalue _⟩
  cases terminated with
  | true => exact (Keeps.expectOperator _).bind fun _ _ => hend
  | false => exact hend

theorem parenthesised_keeps :
    Keeps tokens (parenthesised (expression levels)) (Expr.Stems tokens) := by
  refine (Keeps.expectOperator _).bind fun _ _ => ?_
  refine (expression_keeps levels).bind fun e he => ?_
  exact (Keeps.expectOperator _).map fun _ _ => he

theorem forInit_keeps : Keeps tokens (forInit (expression levels)) (Stmt.Stems tokens) := by
  refine (Keeps.peek _).bind fun token _ => ?_
  split
  · exact (varDecl_keeps levels).map fun _ hd => hd
  split
  · exact (assignment_keeps levels true).map fun _ ha => ha.stmt
  · exact .unexpected _

theorem ret_keeps : Keeps tokens (ret (expression levels)) fun r => (Stmt.ret r).Stems tokens := by
  have hvalue : Keeps tokens (returnValue (expression levels)) (StemsOptional tokens) := by
    refine .get fun c hc => ?_
    split
    · exact ⟨hc, nofun⟩
    · exact expression_optional_keeps levels c hc
  refine (Keeps.expectKeyword _).bind fun token ht => ?_
  refine hvalue.bind fun value hv => ?_
  refine (Keeps.expectOperator _).bind fun _ _ => ?_
  refine .finish fun c depth => ?_
  rw [Stmt.walk]
  exact stem_cons.2 ⟨.unnamed ht rfl rfl, hv.walk _⟩

section

variable {block : Parse Block} (hb : Keeps tokens block (Block.Stems tokens))

include hb

theorem elseBody_keeps :
    Keeps tokens (elseBody block) fun b => ∀ depth, Stem tokens (walkElse depth b) := by
  refine .get fun c hc => ?_
  split
  · exact (Keeps.advance c hc).bind fun _ _ => hb.map fun _ h => h
  · exact ⟨hc, fun _ => stem_nil⟩

theorem ifElse_keeps : Keeps tokens (ifElse (expression levels) block) (Stmt.Stems tokens) := by
  refine (Keeps.expectKeyword _).bind fun token ht => ?_
  refine (parenthesised_keeps levels).bind fun test htest => ?_
  refine hb.bind fun thenBlock hthen => ?_
  refine (elseBody_keeps hb).bind fun elseBlock helse => ?_
  refine .finish fun c depth => ?_
  have hnode : Node.Stems tokens
      (.stmt (.ifElse test thenBlock elseBlock (c.spanFrom token.span.start))) :=
    .unnamed ht rfl rfl
  simpa [Stmt.walk] using ⟨hnode, htest _, hthen _, helse _⟩

theorem whileLoop_keeps :
    Keeps tokens (whileLoop (expression levels) block) (Stmt.Stems tokens) := by
  refine (Keeps.expectKeyword _).bind fun token ht => ?_
  refine (parenthesised_keeps levels).bind fun test htest => ?_
  refine hb.bind fun body hbody => ?_
  refine .finish fun c depth => ?_
  have hnode : Node.Stems tokens (.stmt (.whileLoop test body (c.spanFrom token.span.start))) :=
    .unnamed ht rfl rfl
  simpa [Stmt.walk] using ⟨hnode, htest _, hbody _⟩

theorem forLoop_keeps : Keeps tokens (forLoop (expression levels) block) (Stmt.Stems tokens) := by
  refine (Keeps.expectKeyword _).bind fun token ht => ?_
  refine (Keeps.expectOperator _).bind fun _ _ => ?_
  refine (forInit_keeps levels).bind fun init hinit => ?_
  refine (expression_keeps levels).bind fun test htest => ?_
  refine (Keeps.expectOperator _).bind fun _ _ => ?_
  refine (assignment_keeps levels false).bind fun update hupdate => ?_
  refine (Keeps.expectOperator _).bind fun _ _ => ?_
  refine hb.bind fun body hbody => ?_
  refine .finish fun c depth => ?_
  have hnode : Node.Stems tokens
      (.stmt (.forLoop init test update body (c.spanFrom token.span.start))) :=
    .unnamed ht rfl rfl
  obtain ⟨hassign, hparts⟩ := stem_cons.1 (hupdate (depth + 1))
  simpa [Stmt.walk] using ⟨hnode, hinit _, htest _, hassign, hparts, hbody _⟩

theorem handle_keeps (handler : Handler) :
    Keeps tokens (handle (expression levels) block handler) (Stmt.Stems tokens) := by
  cases handler with
  | varDecl => exact (varDecl_keeps levels).map fun _ hd => hd
  | ifElse => exact ifElse_keeps levels hb
  | whileLoop => exact whileLoop_keeps levels hb
  | forLoop => exact forLoop_keeps levels hb
  | ret => exact (ret_keeps levels).map fun _ hr => hr
  | block => exact hb.map fun _ h => h.stmt

theorem statementWith_keeps (table : Table) :
    Keeps tokens (statementWith table (expression levels) block) (Stmt.Stems tokens) := by
  refine (Keeps.peek _).bind fun token ht => ?_
  cases table.handler? token with
  | some handler => exact handle_keeps levels hb handler
  | none =>
    dsimp only
    split
    · exact (assignment_keeps levels true).map fun _ ha => ha.stmt
    · exact fun c hc => ⟨hc, .token ht (fun _ => Option.some.inj) False.elim⟩

end

end

/-- As each statement takes a token, the fuel does not run out before the tokens. -/
theorem untilBrace_within {statement : Parse Stmt} (hs : Keeps tokens statement (Stmt.Stems tokens))
    (hlt : ∀ c s c', statement c = .ok s c' → c'.ahead.length < c.ahead.length) (fuel : Nat)
    (c : Cursor) (hc : c.Among tokens) (hf : c.ahead.length ≤ fuel) :
    Within tokens (fun stmts => ∀ depth, Stem tokens (walkAll depth stmts))
      (untilBrace statement fuel c) := by
  induction fuel generalizing c with
  | zero =>
    simp only [untilBrace, get_bind_run]
    split
    · exact ⟨hc, fun _ => stem_nil⟩
    · exact ⟨hc, .ended trivial (List.length_eq_zero_iff.1 (Nat.le_zero.1 hf))⟩
  | succ fuel ih =>
    simp only [untilBrace, get_bind_run]
    split
    · exact ⟨hc, fun _ => stem_nil⟩
    · have hstmt := hs c hc
      rw [bind_run]
      cases hrun : statement c with
      | error failure c' =>
        rw [hrun] at hstmt
        exact hstmt
      | ok stmt c' =>
        rw [hrun] at hstmt
        have hlt := hlt c stmt c' hrun
        refine (ih c' hstmt.1 (by omega)).bind fun stmts hstmts => .pure fun depth => ?_
        simpa [walkAll] using ⟨hstmt.2 depth, hstmts depth⟩

theorem block_keeps (table : Table) (levels : Nat) :
    Keeps tokens (block table levels) (Block.Stems tokens) := by
  induction levels with
  | zero => exact .tooDeep
  | succ levels ih =>
    refine Keeps.nested ?_
    refine (Keeps.expectOperator _).bind fun brace hbrace => ?_
    refine Keeps.takeId.bind fun id _ => ?_
    refine .get fun c hc => ?_
    have hbody := untilBrace_within (statementWith_keeps levels ih table)
      (fun c s c' => ahead_length_lt) _ c hc (Nat.le_refl _)
    refine hbody.bind fun body hbody => ?_
    refine (Keeps.expectOperator _).bind fun _ _ => ?_
    refine .finish fun c depth => ?_
    rw [Block.walk]
    exact stem_cons.2 ⟨.unnamed hbrace rfl rfl, hbody _⟩

theorem statement_keeps (table : Table) (levels : Nat) :
    Keeps tokens (statement table levels) (Stmt.Stems tokens) :=
  statementWith_keeps levels (block_keeps table levels) table

theorem Completes.stem {levels : Nat} {c c' : Cursor} {stmts : List Stmt}
    (h : Completes levels c stmts c') (hc : c.Among tokens) (depth : Nat) :
    Stem tokens (walkAll depth stmts) := by
  induction h with
  | nil c => exact stem_nil
  | cons hs _ ih =>
    have hstmt := statement_keeps .standard levels _ hc
    rw [hs] at hstmt
    simpa [walkAll] using ⟨hstmt.2 depth, ih hstmt.1⟩

/-- A visit that points all errors it finds to nodes of the statement. -/
def Visit.Points {σ : Type} (visit : Visit σ) : Prop :=
  ∀ ⦃state stmt e⦄, visit state stmt = .error e →
    e.cause.token? = Option.none ∧ ¬e.cause.Unfinished ∧
      ∃ visited ∈ stmt.walk 0, e.position = visited.2.span.start

theorem topLevel_keeps {σ : Type} {visit : Visit σ} (hv : visit.Points) (fuel : Nat) (state : σ) :
    Keeps tokens (topLevel visit fuel state) fun _ => True := by
  induction fuel generalizing state with
  | zero => exact .pure trivial
  | succ fuel ih =>
    refine .get fun c hc => ?_
    split
    · exact ⟨hc, trivial⟩
    have hstatement := statement_keeps .standard (maxDepth - c.depth) c hc
    rw [← Parser.statement_eq_levels] at hstatement
    refine hstatement.bind fun stmt hstmt => ?_
    cases h : visit state stmt with
    | ok visited => exact (ih visited.2).map fun _ _ => trivial
    | error e =>
      obtain ⟨cause, position⟩ := e
      obtain ⟨hname, hfinal, node, hnode, hpos⟩ := hv h
      obtain ⟨token, ht, hs⟩ := (hstmt 0 node hnode).start
      obtain rfl : position = token.span.start := hpos.trans hs
      refine fun c hc => ⟨hc, .token ht (fun lexeme hl => ?_) (absurd · hfinal)⟩
      cases hname.symm.trans hl

/-- The error of a program is located among its tokens, of which there is at least one. -/
theorem program_located {σ : Type} {visit : Visit σ} {state : σ} {file : String} {e : Diagnostic}
    (hv : visit.Points) (h : program visit state file tokens = .error e) :
    ∃ c, FailsAt visit state file tokens e c ∧ c.Among tokens ∧ e.Located tokens c ∧
      tokens ≠ [] := by
  have hrun := topLevel_keeps hv tokens.length state _ (.start file tokens)
  unfold program at h
  cases hr : topLevel visit tokens.length state (.start file tokens) with
  | ok body c =>
    rw [hr] at h
    cases h
  | error failure c =>
    rw [hr] at h hrun
    cases h
    refine ⟨c, hr, hrun.1, hrun.2, ?_⟩
    rintro rfl
    cases hr

end Grammar

end MiniC
