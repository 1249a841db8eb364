import MiniC.Proofs.Grammar.LockstepExpression
import MiniC.Proofs.Grammar.Program

/-!
The rules for statements run in lockstep, and with them the completion of statements. Of the rules
only the one for blocks takes ids, so only from there on must a comparison follow them.
-/

namespace MiniC

open Grammar

namespace Grammar

variable {table : Table} {levels : Nat} {c : Cursor}

/-- Where no token is left there is no statement. -/
theorem statement_nil (h : c.ahead = []) :
    statement table levels c = .error (c.endOfInput "a statement") c := by
  rw [statement, statementWith, Parse.bind_run, Parse.peek, Parse.get_bind_run]
  simp only [h, Parse.fail_run]

theorem untilBrace_nil (h : c.ahead = []) (fuel : Nat) :
    untilBrace (statement table levels) fuel c = .error (c.endOfInput "a statement") c := by
  have hat : ¬c.atOperator "\x7d" = true := by simp [Cursor.atOperator_nil h]
  cases fuel with
  | zero => rw [untilBrace, Parse.get_bind_run, if_neg hat, Parse.fail_run]
  | succ fuel => rw [untilBrace, Parse.get_bind_run, if_neg hat, Parse.bind_run, statement_nil h]

/-- As long as there is fuel for every token, its amount does not matter. -/
theorem untilBrace_fuel {n m : Nat} (hn : c.ahead.length ≤ n) (hm : c.ahead.length ≤ m) :
    untilBrace (statement table levels) n c = untilBrace (statement table levels) m c := by
  induction n generalizing m c with
  | zero =>
    have hc : c.ahead = [] := List.length_eq_zero_iff.1 (Nat.le_zero.1 hn)
    rw [untilBrace_nil hc, untilBrace_nil hc]
  | succ n ih =>
    cases m with
    | zero =>
      have hc : c.ahead = [] := List.length_eq_zero_iff.1 (Nat.le_zero.1 hm)
      rw [untilBrace_nil hc, untilBrace_nil hc]
    | succ m =>
      simp only [untilBrace, Parse.get_bind_run]
      split
      · rfl
      · rw [Parse.bind_run, Parse.bind_run]
        cases hs : statement table levels c with
        | error failure c₁ => rfl
        | ok stmt c₁ =>
          have hlt := ahead_length_lt hs
          have hrest : untilBrace (statement table levels) n c₁ =
              untilBrace (statement table levels) m c₁ := ih (by omega) (by omega)
          simp only [Parse.bind_run, hrest]

end Grammar

namespace Comparison

variable {σ : Comparison}

theorem typeKeyword_tracks :
    σ.Tracks .fresh True σ.loose (fun m found => (found.1, m.place found.2)) typeKeyword
      typeKeyword := by
  apply Tracks.peek
  rintro ⟨kind, lexeme, span⟩ ⟨kind', lexeme', span'⟩ ht
  obtain ⟨⟨rfl, rfl⟩, -⟩ := Marks.token_eq_iff.1 ht
  have htype : Token.dataType? ⟨kind, lexeme, span⟩ = Token.dataType? ⟨kind, lexeme, span'⟩ := rfl
  rw [htype]
  split
  · exact Tracks.unexpected.anywhere
  · apply Tracks.advance.andThen
    intro t t' ht
    obtain ⟨-, hstart, -⟩ := Marks.token_eq_iff.1 ht
    exact Tracks.pure (by simp [hstart]) id

/-- How optional expressions of the two runs are compared. -/
abbrev optionView : Marks → Option Expr → Option Expr := fun m => Option.map (exprView m)

theorem initialValue_tracks (levels : Nat) :
    σ.Tracks .moved True True optionView (initialValue (expression levels))
      (initialValue (expression (levels + σ.spare))) := by
  apply Tracks.look
  · intro c d h
    rw [atOperator_eq h]
    split
    · apply Tracks.advance.andThen
      intro _ _ _
      apply (expression_tracks levels).andThen
      intro e e' he
      exact Tracks.pure (by simp [he]) id
    · exact Tracks.pure rfl fun _ => trivial
  · intro c hc
    rw [Cursor.atOperator_nil hc]
    exact Tracks.pure rfl id

theorem varDecl_tracks (levels : Nat) :
    σ.Tracks .fresh True σ.loose (fun m => VarDecl.relabel m.relabel) (varDecl (expression levels))
      (varDecl (expression (levels + σ.spare))) := by
  apply typeKeyword_tracks.bind
  rintro ⟨type, start⟩ ⟨type', start'⟩ hfound
  obtain ⟨rfl, hstart⟩ := Prod.mk.inj hfound
  apply (expectKind_tracks _ _).andThen
  intro name name' hname
  obtain ⟨hterminal, -⟩ := Marks.token_eq_iff.1 hname
  apply (initialValue_tracks levels).restart.bind
  intro init init' hinit
  -- the value may have ended with a look past what is shared, but the semicolon has to be taken
  apply (expectOperator_tracks ";").andThen
  intro _ _ _
  apply Tracks.finish _ id
  intro c d hn
  simp [VarDecl.relabel, Cursor.spanFrom, Marks.span_eq_iff, (Prod.mk.inj hterminal).2, hinit,
    hstart, σ.previousEnd hn]

/-- The part that both forms of an assignment share, after which `f` goes on. -/
theorem assigned_tracks {β γ : Type} {free : Prop} {view : Marks → β → γ} (levels : Nat)
    {f g : Token → Expr → Parse β}
    (hf : ∀ name name' e e', σ.left.token name = σ.right.token name' →
      exprView σ.left e = exprView σ.right e' →
      σ.Tracks .moved True free view (f name e) (g name' e')) :
    σ.Tracks .fresh True free view
      (do
        let name ← Parse.expectKind .identifier "an identifier"
        let _ ← Parse.expectOperator "="
        let e ← expression levels
        f name e)
      (do
        let name ← Parse.expectKind .identifier "an identifier"
        let _ ← Parse.expectOperator "="
        let e ← expression (levels + σ.spare)
        g name e) := by
  apply (expectKind_tracks _ _).bind
  intro name name' hname
  apply (expectOperator_tracks "=").andThen
  intro _ _ _
  apply (expression_tracks levels).andThen
  intro e e' he
  exact hf name name' e e' hname he

/-- How assignments of the two runs are compared. -/
abbrev assignmentView : Marks → Assignment → Assignment := fun m => Assignment.relabel m.relabel

theorem assignmentView_eq {name name' : Token} {e e' : Expr} {c d : Cursor}
    (hname : σ.left.token name = σ.right.token name')
    (he : exprView σ.left e = exprView σ.right e') (hn : σ.near .moved c d) :
    assignmentView σ.left ⟨name.lexeme, e, none, c.spanFrom name.span.start⟩ =
      assignmentView σ.right ⟨name'.lexeme, e', none, d.spanFrom name'.span.start⟩ := by
  obtain ⟨hterminal, hstart, -⟩ := Marks.token_eq_iff.1 hname
  simp [Assignment.relabel, Cursor.spanFrom, Marks.span_eq_iff, (Prod.mk.inj hterminal).2, he,
    hstart, σ.previousEnd hn]

theorem assignment_tracks (levels : Nat) :
    σ.Tracks .fresh True σ.loose assignmentView (assignment (expression levels) true)
      (assignment (expression (levels + σ.spare)) true) := by
  apply assigned_tracks levels
  intro name name' e e' hname he
  simp only [if_true]
  apply (expectOperator_tracks ";").andThen
  intro _ _ _
  exact Tracks.finish (fun c d hn => assignmentView_eq hname he hn) id

/-- An update has no semicolon of its own, so it may end with a look past what is shared. -/
theorem update_tracks (levels : Nat) :
    σ.Tracks .fresh True True assignmentView (assignment (expression levels) false)
      (assignment (expression (levels + σ.spare)) false) := by
  apply assigned_tracks levels
  intro name name' e e' hname he
  simp only [Bool.false_eq_true, if_false]
  exact Tracks.finish (fun c d hn => assignmentView_eq hname he hn) id

theorem parenthesised_tracks (levels : Nat) :
    σ.Tracks .fresh True σ.loose exprView (parenthesised (expression levels))
      (parenthesised (expression (levels + σ.spare))) := by
  apply (expectOperator_tracks "(").bind
  intro _ _ _
  apply (expression_tracks levels).andThen
  intro e e' he
  apply (expectOperator_tracks ")").andThen
  intro _ _ _
  exact Tracks.pure he id

/-- How statements of the two runs are compared. -/
abbrev stmtView : Marks → Stmt → Stmt := fun m => Stmt.relabel m.relabel

theorem forInit_tracks (levels : Nat) :
    σ.Tracks .fresh True σ.loose stmtView (forInit (expression levels))
      (forInit (expression (levels + σ.spare))) := by
  apply Tracks.peek
  rintro ⟨kind, lexeme, span⟩ ⟨kind', lexeme', span'⟩ ht
  obtain ⟨⟨rfl, rfl⟩, -⟩ := Marks.token_eq_iff.1 ht
  have htype : Token.isTypeKeyword ⟨kind, lexeme, span⟩ =
      Token.isTypeKeyword ⟨kind, lexeme, span'⟩ := rfl
  rw [htype]
  split
  · apply (varDecl_tracks levels).andThen
    intro d d' hd
    exact Tracks.pure (by simp [Stmt.relabel, hd]) id
  split
  · apply (assignment_tracks levels).andThen
    intro a a' ha
    exact Tracks.pure (by simp [Stmt.relabel, ha]) id
  · exact Tracks.unexpected.anywhere

theorem returnValue_tracks (levels : Nat) :
    σ.Tracks .moved True True optionView (returnValue (expression levels))
      (returnValue (expression (levels + σ.spare))) := by
  have hvalue : ∀ {start : Prop}, σ.Tracks .moved start True optionView
      (expression levels >>= fun e => pure (some e))
      (expression (levels + σ.spare) >>= fun e => pure (some e)) := by
    intro start
    apply (expression_tracks levels).andThen
    intro e e' he
    exact Tracks.pure (by simp [he]) id
  apply Tracks.look
  · intro c d h
    rw [atOperator_eq h]
    split
    · exact Tracks.pure rfl fun _ => trivial
    · exact hvalue
  · intro c hc
    rw [Cursor.atOperator_nil hc]
    exact hvalue

theorem ret_tracks (levels : Nat) :
    σ.Tracks .fresh True σ.loose (fun m => Return.relabel m.relabel) (ret (expression levels))
      (ret (expression (levels + σ.spare))) := by
  apply (expectKeyword_tracks "return").bind
  intro t t' ht
  obtain ⟨-, hstart, -⟩ := Marks.token_eq_iff.1 ht
  apply (returnValue_tracks levels).restart.bind
  intro value value' hvalue
  apply (expectOperator_tracks ";").andThen
  intro _ _ _
  apply Tracks.finish _ id
  intro c d hn
  simp [Return.relabel, Cursor.spanFrom, Marks.span_eq_iff, hvalue, hstart, σ.previousEnd hn]

/-- How blocks of the two runs are compared. -/
abbrev blockView : Marks → Block → Block := fun m => Block.relabel m.relabel

section Blocks

variable {block block' : Parse Block} (hb : σ.Tracks .fresh True σ.loose blockView block block')

include hb

/-- An `else` is looked for where a statement may end. There the first run may have come to where
nothing is shared without being loose, and then no `else` is ahead in either run. -/
theorem elseBody_tracks :
    σ.Tracks .moved σ.loose σ.loose (fun m => relabelElse m.relabel) (elseBody block)
      (elseBody block') := by
  have hstep : ∀ c d : Cursor, c.atKeyword "else" = d.atKeyword "else" →
      σ.Tracks .moved σ.loose σ.loose (fun m => relabelElse m.relabel)
        (if c.atKeyword "else" then do
          let _ ← Parse.advance
          return some (← block)
        else return none)
        (if d.atKeyword "else" then do
          let _ ← Parse.advance
          return some (← block')
        else return none) := by
    intro c d h
    rw [h]
    split
    · apply Tracks.advance.andThen
      intro _ _ _
      apply hb.andThen
      intro b b' hb
      exact Tracks.pure (by simp [relabelElse, hb]) id
    · exact Tracks.pure rfl id
  -- the lookahead decides, so `Tracks.look` would do but for the start at the end of a statement
  constructor
  · intro c d hn
    rcases lookahead_eq hn with hp | heq
    · by_cases hl : σ.loose
      · exact .inr ((hstep c c rfl).past hl hp)
      · obtain ⟨hc, hd⟩ := σ.noElse hn hp hl
        exact (hstep c d (hc.trans hd.symm)).shared hn
    · exact (hstep c d (atKeyword_eq heq "else")).shared hn
  · intro hl c hp
    exact (hstep c c rfl).past hl hp

theorem ifElse_tracks (levels : Nat) :
    σ.Tracks .fresh True σ.loose stmtView (ifElse (expression levels) block)
      (ifElse (expression (levels + σ.spare)) block') := by
  apply (expectKeyword_tracks "if").bind
  intro t t' ht
  obtain ⟨-, hstart, -⟩ := Marks.token_eq_iff.1 ht
  apply (parenthesised_tracks levels).andThen
  intro test test' htest
  apply hb.andThen
  intro thenBlock thenBlock' hthen
  apply (elseBody_tracks hb).bind
  intro elseBlock elseBlock' helse
  apply Tracks.finish _ id
  intro c d hn
  simp [Stmt.relabel, Cursor.spanFrom, Marks.span_eq_iff, htest, hthen, helse, hstart,
    σ.previousEnd hn]

theorem whileLoop_tracks (levels : Nat) :
    σ.Tracks .fresh True σ.loose stmtView (whileLoop (expression levels) block)
      (whileLoop (expression (levels + σ.spare)) block') := by
  apply (expectKeyword_tracks "while").bind
  intro t t' ht
  obtain ⟨-, hstart, -⟩ := Marks.token_eq_iff.1 ht
  apply (parenthesised_tracks levels).andThen
  intro test test' htest
  apply hb.andThen
  intro body body' hbody
  apply Tracks.finish _ id
  intro c d hn
  simp [Stmt.relabel, Cursor.spanFrom, Marks.span_eq_iff, htest, hbody, hstart, σ.previousEnd hn]

theorem forLoop_tracks (levels : Nat) :
    σ.Tracks .fresh True σ.loose stmtView (forLoop (expression levels) block)
      (forLoop (expression (levels + σ.spare)) block') := by
  apply (expectKeyword_tracks "for").bind
  intro t t' ht
  obtain ⟨-, hstart, -⟩ := Marks.token_eq_iff.1 ht
  apply (expectOperator_tracks "(").andThen
  intro _ _ _
  apply (forInit_tracks levels).andThen
  intro init init' hinit
  apply (expression_tracks levels).andThen
  intro test test' htest
  apply (expectOperator_tracks ";").andThen
  intro _ _ _
  apply (update_tracks levels).andThen
  intro update update' hupdate
  apply (expectOperator_tracks ")").andThen
  intro _ _ _
  apply hb.andThen
  intro body body' hbody
  apply Tracks.finish _ id
  intro c d hn
  simp [Stmt.relabel, Cursor.spanFrom, Marks.span_eq_iff, hinit, htest, hupdate, hbody, hstart,
    σ.previousEnd hn]

theorem handle_tracks (levels : Nat) (handler : Handler) :
    σ.Tracks .fresh True σ.loose stmtView (handle (expression levels) block handler)
      (handle (expression (levels + σ.spare)) block' handler) := by
  cases handler with
  | varDecl =>
    apply (varDecl_tracks levels).bind
    intro d d' hd
    exact Tracks.pure (by simp [Stmt.relabel, hd]) id
  | ifElse => exact ifElse_tracks hb levels
  | whileLoop => exact whileLoop_tracks hb levels
  | forLoop => exact forLoop_tracks hb levels
  | ret =>
    apply (ret_tracks levels).bind
    intro r r' hr
    exact Tracks.pure (by simp [Stmt.relabel, hr]) id
  | block =>
    apply hb.bind
    intro b b' hb
    exact Tracks.pure (by simp [Stmt.relabel, hb]) id

theorem statementWith_tracks (table : Table) (levels : Nat) :
    σ.Tracks .fresh True σ.loose stmtView (statementWith table (expression levels) block)
      (statementWith table (expression (levels + σ.spare)) block') := by
  apply Tracks.peek
  rintro ⟨kind, lexeme, span⟩ ⟨kind', lexeme', span'⟩ ht
  obtain ⟨⟨rfl, rfl⟩, hstart, -⟩ := Marks.token_eq_iff.1 ht
  have hhandler : table.handler? ⟨kind, lexeme, span⟩ =
      table.handler? ⟨kind, lexeme, span'⟩ := rfl
  rw [hhandler]
  split
  · exact (handle_tracks hb levels _).anywhere
  split
  · apply (assignment_tracks levels).andThen
    intro a a' ha
    exact Tracks.pure (by simp [Stmt.relabel, ha]) id
  · exact Tracks.fail rfl hstart

end Blocks

/-- How lists of statements of the two runs are compared. -/
abbrev bodyView : Marks → List Stmt → List Stmt := fun m => relabelAll m.relabel

/-- With the same fuel the statements of two blocks run alike. -/
theorem untilBrace_tracks {statement statement' : Parse Stmt}
    (hs : σ.Tracks .fresh True σ.loose stmtView statement statement') (fuel : Nat) :
    σ.Tracks .moved True σ.loose bodyView (untilBrace statement fuel)
      (untilBrace statement' fuel) := by
  induction fuel with
  | zero =>
    have hzero : ∀ statement, untilBrace statement 0 = get >>= fun c : Cursor =>
        if c.atOperator "\x7d" then pure []
        else get >>= fun c : Cursor => Parse.fail (c.endOfInput "a statement") := by
      intro statement
      funext c
      simp only [untilBrace, Parse.get_bind_run]
      split <;> rfl
    rw [hzero, hzero]
    apply Tracks.look
    · intro c d h
      rw [atOperator_eq h]
      split
      · exact Tracks.pure rfl id
      · exact Tracks.endOfInput.restart
    · intro c hc
      rw [Cursor.atOperator_nil hc]
      exact Tracks.endOfInput
  | succ fuel ih =>
    have hcons : ∀ {start : Prop}, σ.Tracks .moved start σ.loose bodyView
        (statement >>= fun s => untilBrace statement fuel >>= fun body => pure (s :: body))
        (statement' >>= fun s => untilBrace statement' fuel >>= fun body => pure (s :: body)) := by
      intro start
      apply hs.andThen
      intro stmt stmt' hstmt
      apply ih.restart.bind
      intro body body' hbody
      exact Tracks.pure (by simp [relabelAll, hstmt, hbody]) id
    apply Tracks.look
    · intro c d h
      rw [atOperator_eq h]
      split
      · exact Tracks.pure rfl id
      · exact hcons
    · intro c hc
      rw [Cursor.atOperator_nil hc]
      exact hcons

/-- The comparison follows the ids that blocks take. -/
def CountsIds (σ : Comparison) : Prop :=
  ∀ {c d : Cursor}, σ.near .moved c d → σ.left.id c.nextId = σ.right.id d.nextId ∧
    σ.near .moved { c with nextId := c.nextId + 1 } { d with nextId := d.nextId + 1 }

section Statements

variable (hids : σ.CountsIds) (table : Table)

include hids

theorem takeId_tracks :
    σ.Tracks .moved σ.loose σ.loose Marks.id Parse.takeId Parse.takeId := by
  constructor
  · intro c d hn
    obtain ⟨hid, hnext⟩ := hids hn
    exact .inl (.ok hid hnext)
  · intro hl c hp
    exact .ok hl (σ.past_of_suffix hp (List.suffix_refl _))

theorem block_tracks (levels : Nat) :
    σ.Tracks .fresh True σ.loose blockView (block table levels)
      (block table (levels + σ.spare)) := by
  induction levels with
  | zero =>
    apply Tracks.tooDeep
    intro hs
    rw [hs]
    rfl
  | succ levels ih =>
    have hbody : σ.Tracks .moved σ.loose σ.loose bodyView
        (get >>= fun c => untilBrace (statement table levels) c.ahead.length)
        (get >>= fun d => untilBrace (statement table (levels + σ.spare)) d.ahead.length) := by
      have hfuel := untilBrace_tracks (statementWith_tracks ih table levels)
      constructor
      · intro c d hn
        -- each run has fuel for its own tokens, so both may be given the greater amount
        have hshared := (hfuel (max c.ahead.length d.ahead.length)).shared hn
        rw [Parse.get_bind_run, Parse.get_bind_run,
          untilBrace_fuel (Nat.le_refl _) (Nat.le_max_left c.ahead.length d.ahead.length),
          untilBrace_fuel (Nat.le_refl _) (Nat.le_max_right c.ahead.length d.ahead.length)]
        exact hshared
      · intro _ c hp
        exact (hfuel c.ahead.length).past trivial hp
    rw [Nat.add_right_comm]
    apply Tracks.nested
    apply (expectOperator_tracks "\x7b").bind
    intro brace brace' hbrace
    obtain ⟨-, hstart, -⟩ := Marks.token_eq_iff.1 hbrace
    apply (takeId_tracks hids).bind
    intro id id' hid
    apply hbody.bind
    intro body body' hbody
    apply (expectOperator_tracks "\x7d").andThen
    intro _ _ _
    apply Tracks.finish _ (fun h => h)
    intro c d hn
    simp [Block.relabel, Cursor.spanFrom, Marks.span_eq_iff, hid, hbody, hstart, σ.previousEnd hn]

/-- Statements run in lockstep, with any table and any number of levels left. -/
theorem statement_tracks (levels : Nat) :
    σ.Tracks .fresh True σ.loose stmtView (statement table levels)
      (statement table (levels + σ.spare)) :=
  statementWith_tracks (block_tracks hids table levels) table levels

/-- Where the first run fails for a reason that is shared, the second fails alike. -/
theorem statement_fails_alike {levels : Nat} {c c' d : Cursor} {failure : Diagnostic}
    (hn : σ.near .fresh c d) (h : statement table levels c = .error failure c')
    (hv : ¬σ.Void failure c') :
    ∃ failure' d', statement table (levels + σ.spare) d = .error failure' d' ∧
      σ.left.failure failure = σ.right.failure failure' :=
  (h ▸ (statement_tracks hids table levels).shared hn).of_error hv

/-- What the first run completes, the second completes too, if the first stays with what they
share. -/
theorem completes_alike {levels : Nat} {c c' d : Cursor} {stmts : List Stmt}
    (h : Completes levels c stmts c') (hn : σ.near .fresh c d) (hp : σ.loose → ¬σ.past c') :
    ∃ stmts' d', Completes (levels + σ.spare) d stmts' d' ∧
      bodyView σ.left stmts = bodyView σ.right stmts' ∧ σ.near .fresh c' d' := by
  induction h generalizing d with
  | nil c => exact ⟨[], d, .nil d, rfl, hn⟩
  | @cons c c₁ c' stmt stmts hs hc ih =>
    -- a run that has left what is shared does not come back to it
    have hp₁ : σ.loose → ¬σ.past c₁ := by
      intro hl hpast
      obtain ⟨used, -, hm, -⟩ := hc.reads
      exact hp hl (σ.past_of_suffix hpast ⟨used, hm.ahead.symm⟩)
    have hagree := (statement_tracks hids .standard levels).shared hn
    rw [hs] at hagree
    obtain ⟨stmt', d₁, hs', hview, hn₁⟩ := hagree.of_ok hp₁
    obtain ⟨stmts', d', hc', hviews, hn'⟩ := ih (σ.near_fresh hn₁) hp
    exact ⟨stmt' :: stmts', d', .cons hs' hc', by simp [relabelAll, hview, hviews], hn'⟩

/-- Where all is shared, what stops the first run stops the second. -/
theorem stops_alike {levels : Nat} {c d : Cursor} {stop : Except Diagnostic Unit}
    (hspare : σ.spare = 0) (hp : ∀ c, ¬σ.past c) (h : Stops levels c stop)
    (hn : σ.near .fresh c d) :
    ∃ stop', Stops levels d stop' ∧
      stop.mapError (Diagnostic.move σ.left.place) =
        stop'.mapError (Diagnostic.move σ.right.place) := by
  have hends : c.ahead = [] ↔ d.ahead = [] := by
    rcases σ.facing hn with hpast | ⟨hc, hd, -⟩ | ⟨hc, hd, -⟩
    · exact absurd hpast (hp c)
    · simp [hc, hd]
    · simp [hc, hd]
  cases h with
  | done ha => exact ⟨.ok (), .done (hends.1 ha), rfl⟩
  | @failed failure c' hne hs =>
    have hv : ¬σ.Void failure c' := by
      rintro (⟨hpast, -⟩ | ⟨hlt, -⟩)
      · exact hp c' hpast
      · omega
    obtain ⟨failure', d', hs', hf⟩ := statement_fails_alike hids .standard hn hs hv
    rw [hspare, Nat.add_zero] at hs'
    refine ⟨_, .failed (fun hd => hne (hends.2 hd)) hs', ?_⟩
    exact congrArg Except.error hf

end Statements

end Comparison

end MiniC
