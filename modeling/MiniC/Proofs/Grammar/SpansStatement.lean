import MiniC.Proofs.Grammar.Concatenation
import MiniC.Proofs.Grammar.Spans
import MiniC.Proofs.Token.Place

/-!
The spans of statements and programs. A statement goes from its first token to its last, and what
else is made of these tokens lies in it, also where it was in parentheses.
-/

namespace MiniC

open Grammar Parse

variable {tokens : List Token} {c c' : Cursor}

namespace Grammar

open Cursor (Passes)

section

variable (levels : Nat)

theorem initialValue_yields :
    Yields tokens (initialValue (expression levels)) (·.toList.map .expr) := by
  intro c init c' hc h
  rw [initialValue, get_bind_run] at h
  split at h
  · rw [bind_ok] at h
    obtain ⟨token, c₁, hadv, h⟩ := h
    have htaken := (Passes.refl hc).skip (advance_ok hadv)
    exact htaken.trans ((expression_yields levels).optional htaken.ordered h)
  · cases h
    exact .refl hc

theorem varDecl_yields :
    Yields tokens (varDecl (expression levels)) fun d => [.stmt (.varDecl d)] := by
  intro c d c' hc h
  simp only [varDecl, bind_ok, get_bind_run, pure_ok] at h
  obtain ⟨⟨type, start⟩, c₁, htype, name, c₂, hname, init, c₃, hinit, semi, c₄, hsemi, rfl,
    rfl⟩ := h
  obtain ⟨token, hm, -, rfl⟩ := Language.typeKeyword_ok htype
  have hnamed := (Passes.refl (hc.moved hm)).skip (expectKind_ok hname).1
  have hvalue := hnamed.trans (initialValue_yields levels hnamed.ordered hinit)
  exact .wrap hc hm (hvalue.skip (expectOperator_ok hsemi).1) rfl

theorem assignment_yields (terminated : Bool) :
    Yields tokens (assignment (expression levels) terminated) ([.assignment ·]) := by
  intro c a c' hc h
  simp only [assignment, bind_ok] at h
  obtain ⟨name, c₁, hname, eq, c₂, heq, value, c₃, hx, h⟩ := h
  have hm := (expectKind_ok hname).1
  have hequals := (Passes.refl (hc.moved hm)).skip (expectOperator_ok heq).1
  have hvalue := hequals.trans (expression_yields levels hequals.ordered hx)
  cases terminated with
  | false =>
    simp only [Bool.false_eq_true, if_false, get_bind_run, pure_ok] at h
    obtain ⟨rfl, rfl⟩ := h
    exact .wrap hc hm hvalue rfl
  | true =>
    simp only [if_true, bind_ok, get_bind_run, pure_ok] at h
    obtain ⟨semi, c₄, hsemi, rfl, rfl⟩ := h
    exact .wrap hc hm (hvalue.skip (expectOperator_ok hsemi).1) rfl

/-- An assignment as a statement of its own. -/
theorem assign_yields :
    Yields tokens (assignment (expression levels) true >>= fun a => pure (.assign a)) ([.stmt ·]) :=
  (assignment_yields levels true).map fun _ _ _ h => h.as rfl rfl

/-- A declaration as a statement. -/
theorem declare_yields :
    Yields tokens (varDecl (expression levels) >>= fun d => pure (.varDecl d)) ([.stmt ·]) :=
  (varDecl_yields levels).map fun _ _ _ h => h

theorem parenthesised_yields : Yields tokens (parenthesised (expression levels)) ([.expr ·]) := by
  intro c e c' hc h
  simp only [parenthesised, bind_ok, pure_ok] at h
  obtain ⟨opening, c₁, ho, expr, c₂, hx, closing, c₃, hclose, rfl, rfl⟩ := h
  have hopened := (Passes.refl hc).skip (expectOperator_ok ho).1
  exact (hopened.trans (expression_yields levels hopened.ordered hx)).skip
    (expectOperator_ok hclose).1

theorem forInit_yields : Yields tokens (forInit (expression levels)) ([.stmt ·]) := by
  intro c stmt c' hc h
  rw [forInit, bind_ok] at h
  obtain ⟨token, c₁, hp, h⟩ := h
  obtain ⟨rfl, -⟩ := peek_ok hp
  split at h
  · exact declare_yields levels hc h
  split at h
  · exact assign_yields levels hc h
  · simp at h

theorem returnValue_yields :
    Yields tokens (returnValue (expression levels)) (·.toList.map .expr) := by
  intro c value c' hc h
  rw [returnValue, get_bind_run] at h
  split at h
  · cases h
    exact .refl hc
  · exact (expression_yields levels).optional hc h

theorem ret_yields : Yields tokens (ret (expression levels)) fun r => [.stmt (.ret r)] := by
  intro c r c' hc h
  simp only [ret, bind_ok, get_bind_run, pure_ok] at h
  obtain ⟨token, c₁, ht, value, c₂, hv, semi, c₃, hsemi, rfl, rfl⟩ := h
  have hm := (expectKeyword_ok ht).1
  have hvalue := returnValue_yields levels (hc.moved hm) hv
  exact .wrap hc hm (hvalue.skip (expectOperator_ok hsemi).1) rfl

section

variable {block : Parse Block} (hb : Yields tokens block ([.block ·]))

include hb

theorem elseBody_yields : Yields tokens (elseBody block) (·.toList.map .block) := by
  intro c b c' hc h
  rw [elseBody, get_bind_run] at h
  split at h
  · rw [bind_ok] at h
    obtain ⟨token, c₁, hadv, h⟩ := h
    have htaken := (Passes.refl hc).skip (advance_ok hadv)
    exact htaken.trans (hb.optional htaken.ordered h)
  · cases h
    exact .refl hc

theorem ifElse_yields : Yields tokens (ifElse (expression levels) block) ([.stmt ·]) := by
  intro c stmt c' hc h
  simp only [ifElse, bind_ok, get_bind_run, pure_ok] at h
  obtain ⟨token, c₁, ht, test, c₂, hx, thenBlock, c₃, hthen, elseBlock, c₄, helse, rfl, rfl⟩ := h
  have hm := (expectKeyword_ok ht).1
  have htest := parenthesised_yields levels (hc.moved hm) hx
  have hthen := hb htest.ordered hthen
  have helse := elseBody_yields hb hthen.ordered helse
  exact .wrap hc hm ((htest.trans hthen).trans helse) rfl

theorem whileLoop_yields : Yields tokens (whileLoop (expression levels) block) ([.stmt ·]) := by
  intro c stmt c' hc h
  simp only [whileLoop, bind_ok, get_bind_run, pure_ok] at h
  obtain ⟨token, c₁, ht, test, c₂, hx, body, c₃, hbody, rfl, rfl⟩ := h
  have hm := (expectKeyword_ok ht).1
  have htest := parenthesised_yields levels (hc.moved hm) hx
  exact .wrap hc hm (htest.trans (hb htest.ordered hbody)) rfl

theorem forLoop_yields : Yields tokens (forLoop (expression levels) block) ([.stmt ·]) := by
  intro c stmt c' hc h
  simp only [forLoop, bind_ok, get_bind_run, pure_ok] at h
  obtain ⟨token, c₁, ht, opening, c₂, ho, init, c₃, hinit, test, c₄, hx, semi, c₅, hsemi,
    update, c₆, hu, closing, c₇, hclose, body, c₈, hbody, rfl, rfl⟩ := h
  have hm := (expectKeyword_ok ht).1
  have hopened := (Passes.refl (hc.moved hm)).skip (expectOperator_ok ho).1
  have hinit := hopened.trans (forInit_yields levels hopened.ordered hinit)
  have htest := hinit.trans (expression_yields levels hinit.ordered hx)
  have hsemi := htest.skip (expectOperator_ok hsemi).1
  have hupdate := hsemi.trans (assignment_yields levels false hsemi.ordered hu)
  have hclosed := hupdate.skip (expectOperator_ok hclose).1
  exact .wrap hc hm (hclosed.trans (hb hclosed.ordered hbody)) rfl

theorem handle_yields (handler : Handler) :
    Yields tokens (handle (expression levels) block handler) ([.stmt ·]) := by
  cases handler with
  | varDecl => exact declare_yields levels
  | ifElse => exact ifElse_yields levels hb
  | whileLoop => exact whileLoop_yields levels hb
  | forLoop => exact forLoop_yields levels hb
  | ret => exact (ret_yields levels).map fun _ _ _ h => h
  | block => exact hb.map fun _ _ _ h => h.as rfl rfl

theorem statementWith_yields (table : Table) :
    Yields tokens (statementWith table (expression levels) block) ([.stmt ·]) := by
  intro c stmt c' hc h
  rw [statementWith, bind_ok] at h
  obtain ⟨token, c₁, hp, h⟩ := h
  obtain ⟨rfl, -⟩ := peek_ok hp
  cases ht : table.handler? token with
  | some handler =>
    rw [ht] at h
    exact handle_yields levels hb handler hc h
  | none =>
    simp only [ht] at h
    split at h
    · exact assign_yields levels hc h
    · simp at h

end

end

theorem untilBrace_yields {statement : Parse Stmt} (hs : Yields tokens statement ([.stmt ·]))
    (fuel : Nat) : Yields tokens (untilBrace statement fuel) (·.map .stmt) := by
  induction fuel with
  | zero =>
    intro c stmts c' hc h
    rw [untilBrace, get_bind_run] at h
    split at h
    · cases h
      exact .refl hc
    · simp at h
  | succ fuel ih =>
    intro c stmts c' hc h
    rw [untilBrace, get_bind_run] at h
    split at h
    · cases h
      exact .refl hc
    · simp only [bind_ok, pure_ok] at h
      obtain ⟨stmt, c₁, hstmt, stmts, c₂, hstmts, rfl, rfl⟩ := h
      have hfirst := hs hc hstmt
      exact hfirst.trans (ih hfirst.ordered hstmts)

theorem block_yields (table : Table) (levels : Nat) :
    Yields tokens (block table levels) ([.block ·]) := by
  induction levels with
  | zero => exact fun c b c' _ h => (nomatch h)
  | succ levels ih =>
    intro c b c' hc h
    simp only [block, braces, nested_ok, bind_ok, get_bind_run, pure_ok] at h
    obtain ⟨brace, c₁, hbrace, id, c₂, hid, body, c₃, hbody, closing, c₄, hclose, rfl, rfl⟩ := h
    have hm := (expectOperator_ok hbrace).1
    have hopened := (Passes.refl (hc.moved hm)).stay (takeId_ok hid)
    have hstmts := untilBrace_yields (statementWith_yields levels ih table) _ hopened.ordered hbody
    exact .wrap hc hm ((hopened.trans hstmts).skip (expectOperator_ok hclose).1) rfl

theorem statement_yields (table : Table) (levels : Nat) :
    Yields tokens (statement table levels) ([.stmt ·]) :=
  statementWith_yields levels (block_yields table levels) table

theorem Completes.passes {levels : Nat} {stmts : List Stmt} (h : Completes levels c stmts c')
    (hc : c.Ordered tokens) : c.Passes tokens (stmts.map .stmt) c' := by
  induction h with
  | nil c => exact .refl hc
  | cons hs _ ih =>
    have hfirst := statement_yields .standard levels hc hs
    exact hfirst.trans (ih hfirst.ordered)

end Grammar

namespace Program

variable {name file source : String} {p : Program}

/-- A program of tokens that follow one another lies between the start of its file and the end of
the last token, and all of its nodes are nested. -/
theorem nested_of_row {size : Nat} (hrow : Row 0 (tokens.map Token.span) size)
    (h : parseUntyped name tokens = .ok p) :
    p.span = ⟨.start name, lastEnd name tokens⟩ ∧ (Node.program p).Nested tokens := by
  obtain ⟨c, hc, ha⟩ := completes_of_ok h
  have hp : p = ⟨p.body, c.spanFrom (.start name)⟩ := by
    rw [parseUntyped_eq hc (.done ha)] at h
    exact (Except.ok.inj h).symm
  have hspan : p.span = c.spanFrom (.start name) := congrArg Program.span hp
  have hpasses := hc.passes (.start name hrow)
  refine ⟨?_, .intro ?_ hpasses.marked hpasses.nested⟩
  · rw [hspan, Cursor.spanFrom, hc.previousEnd ha]
  · show Row p.span.start.offset.toNat _ p.span.stop.offset.toNat
    rw [hspan]
    exact hpasses.row

/-- Spans nest and follow source order. In the program of a source of less than four gigabytes each
node but the program itself starts where a token does, ends where a token does, and is not empty;
the parts of each node lie in it, one behind the other; the program goes from the start of the file
to the end of the last token. So a walk meets the nodes in the order in which they start. -/
theorem spans_nest (hsize : source.utf8ByteSize < 4294967296)
    (hscan : Token.scan file source = .ok tokens) (h : parseUntyped name tokens = .ok p) :
    (∀ visited ∈ (Node.program p).walk.tail,
      (∃ token ∈ tokens, visited.2.span.start = token.span.start) ∧
      (∃ token ∈ tokens, visited.2.span.stop = token.span.stop) ∧
      visited.2.span.start.offset.toNat < visited.2.span.stop.offset.toNat) ∧
    (∀ visited ∈ (Node.program p).walk,
      (∀ child ∈ visited.2.children,
        visited.2.span.start.offset.toNat ≤ child.span.start.offset.toNat ∧
        child.span.stop.offset.toNat ≤ visited.2.span.stop.offset.toNat) ∧
      visited.2.children.Pairwise fun child next =>
        child.span.stop.offset.toNat ≤ next.span.start.offset.toNat) ∧
    p.span = ⟨.start name, lastEnd name tokens⟩ ∧
    (Node.program p).walk.Pairwise fun visited next =>
      visited.2.span.start.offset.toNat ≤ next.2.span.start.offset.toNat := by
  obtain ⟨hspan, hnested⟩ := nested_of_row (Token.scan_row hsize hscan) h
  rw [Node.walk_eq_walkFrom]
  refine ⟨fun visited hvisited => ?_, fun visited hvisited => ?_, hspan, hnested.pairwise 0⟩
  · have hbelow := hnested.visits 0 visited hvisited
    exact ⟨hbelow.marked.start, hbelow.marked.stop, hbelow.nonempty⟩
  · have hnode := hnested.walk 0 visited hvisited
    refine ⟨fun child hchild => ?_, List.pairwise_map.1 hnode.row.pairwise⟩
    have hpart := hnode.part hchild
    exact ⟨hpart.start, hpart.stop⟩

/-- Parentheses belong to no expression, but to the statement around them. -/
theorem spans_nest_loop :
    let source := "while ((a)) \x7b\n  b = -(c) + 1;\n\x7d"
    let place (visited : Nat × Node) : UInt32 × UInt32 :=
      (visited.2.span.start.offset, visited.2.span.stop.offset)
    source.utf8ByteSize < 4294967296 ∧ ∃ ts p, Token.scan "f" source = .ok ts ∧
      parseUntyped "f" ts = .ok p ∧
      (Node.program p).walk.map place = [(0, 31), (0, 31), (8, 9), (12, 31), (16, 29), (20, 28),
        (20, 23), (22, 23), (27, 28)] ∧
      p.span = ⟨.start "f", lastEnd "f" ts⟩ ∧
      (Node.program p).walk.Pairwise fun visited next =>
        visited.2.span.start.offset.toNat ≤ next.2.span.start.offset.toNat := by
  intro source place
  have hsize : source.utf8ByteSize < 4294967296 := by decide
  have hrun : (do
      let ts ← (Token.scan "f" source).toOption
      let p ← (parseUntyped "f" ts).toOption
      return decide ((Node.program p).walk.map place = [(0, 31), (0, 31), (8, 9), (12, 31),
        (16, 29), (20, 28), (20, 23), (22, 23), (27, 28)])) = some true := by
    decide +kernel
  simp only [Option.bind_eq_bind, Option.bind_eq_some_iff, Option.pure_def, Option.some.injEq,
    decide_eq_true_eq] at hrun
  obtain ⟨ts, hts, p, hp, hplaces⟩ := hrun
  replace hts := eq_ok_of_toOption hts
  replace hp := eq_ok_of_toOption hp
  obtain ⟨-, -, hspan, hstarts⟩ := spans_nest hsize hts hp
  exact ⟨hsize, ts, p, hts, hp, hplaces, hspan, hstarts⟩

end Program

end MiniC
