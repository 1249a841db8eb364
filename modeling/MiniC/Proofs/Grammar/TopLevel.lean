import MiniC.Grammar.Program
import MiniC.Proofs.Grammar.Counting
import MiniC.Proofs.Grammar.StatementAccepts

/-!
Statements at the top level. Which of them are completed, and what stops the parser after the last
one, does not depend on what is done with each of them on the way.
-/

namespace MiniC

open Grammar

namespace Grammar

/-- From one place to another these statements are completed, one after the other. -/
inductive Completes (levels : Nat) : Cursor → List Stmt → Cursor → Prop where
  | nil (c : Cursor) : Completes levels c [] c
  | cons {c c₁ c' : Cursor} {stmt : Stmt} {stmts : List Stmt} :
      statement .standard levels c = .ok stmt c₁ → Completes levels c₁ stmts c' →
      Completes levels c (stmt :: stmts) c'

/-- Why no further statement is completed: the tokens are used up, or the next one fails. -/
inductive Stops (levels : Nat) (c : Cursor) : Except Diagnostic Unit → Prop where
  | done : c.ahead = [] → Stops levels c (.ok ())
  | failed {failure : Diagnostic} {c' : Cursor} : c.ahead ≠ [] →
      statement .standard levels c = .error failure c' →
      Stops levels c (.error failure)

variable {table : Table} {levels : Nat} {c c₁ c' : Cursor} {stmt : Stmt} {stmts : List Stmt}

/-- A statement takes at least one token. -/
theorem statement_progress (h : statement table levels c = .ok stmt c') :
    ∃ token used, c.ahead = token :: used ++ c'.ahead := by
  obtain ⟨used, demand, hm, hs, -⟩ := Language.statement_reads table levels h
  obtain ⟨first, others, htext, -⟩ := hs.head
  obtain ⟨token, used, rfl, -⟩ := List.map_eq_cons_iff.1 htext
  exact ⟨token, used, hm.ahead⟩

theorem ahead_ne_nil (h : statement table levels c = .ok stmt c') : c.ahead ≠ [] := by
  obtain ⟨token, used, ha⟩ := statement_progress h
  simp [ha]

theorem ahead_length_lt (h : statement table levels c = .ok stmt c') :
    c'.ahead.length < c.ahead.length := by
  obtain ⟨token, used, ha⟩ := statement_progress h
  simp only [ha, List.cons_append, List.length_cons, List.length_append]
  omega

/-- From every place some statements are completed until something stops the parser. -/
theorem exists_completes (levels : Nat) (c : Cursor) :
    ∃ stmts c' stop, Completes levels c stmts c' ∧ Stops levels c' stop := by
  cases ha : c.ahead with
  | nil => exact ⟨[], c, .ok (), .nil c, .done ha⟩
  | cons token rest =>
    cases hs : statement .standard levels c with
    | error failure c₁ => exact ⟨[], c, _, .nil c, .failed (by simp [ha]) hs⟩
    | ok stmt c₁ =>
      -- fewer tokens are left after the statement
      have := ahead_length_lt hs
      obtain ⟨stmts, c', stop, hc, hstop⟩ := exists_completes levels c₁
      exact ⟨stmt :: stmts, c', stop, .cons hs hc, hstop⟩
termination_by c.ahead.length

/-- Nothing is completed from where the parser stops. -/
theorem Stops.completes_nil {stop : Except Diagnostic Unit} (hstop : Stops levels c stop)
    (h : Completes levels c stmts c') : stmts = [] ∧ c' = c := by
  cases h with
  | nil => exact ⟨rfl, rfl⟩
  | cons hs _ =>
    cases hstop with
    | done ha => exact absurd ha (ahead_ne_nil hs)
    | failed _ hf => cases hs.symm.trans hf

theorem Stops.unique {stop stop' : Except Diagnostic Unit} (h : Stops levels c stop)
    (h' : Stops levels c stop') : stop = stop' := by
  cases h with
  | done ha =>
    cases h' with
    | done => rfl
    | failed hn _ => exact absurd ha hn
  | failed hn hs =>
    cases h' with
    | done ha => exact absurd ha hn
    | failed _ hs' =>
      cases hs.symm.trans hs'
      rfl

/-- The parser completes the same statements and stops for the same reason on every run. -/
theorem Completes.unique {stmts' : List Stmt} {c'' : Cursor} {stop stop' : Except Diagnostic Unit}
    (h : Completes levels c stmts c') (hstop : Stops levels c' stop)
    (h' : Completes levels c stmts' c'') (hstop' : Stops levels c'' stop') :
    stmts = stmts' ∧ c' = c'' ∧ stop = stop' := by
  induction h generalizing stmts' with
  | nil c =>
    obtain ⟨rfl, rfl⟩ := hstop.completes_nil h'
    exact ⟨rfl, rfl, hstop.unique hstop'⟩
  | cons hs hc ih =>
    cases h' with
    | nil =>
      obtain ⟨hnil, -⟩ := hstop'.completes_nil (.cons hs hc)
      cases hnil
    | cons hs' hc' =>
      cases hs.symm.trans hs'
      obtain ⟨rfl, hrest⟩ := ih hstop hc'
      exact ⟨rfl, hrest⟩

@[simp] theorem ok_bind {ε α β : Type} (a : α) (f : α → Except ε β) : (.ok a >>= f) = f a := rfl

theorem eq_ok_of_toOption {ε α : Type} {x : Except ε α} {a : α} (h : x.toOption = some a) :
    x = .ok a := by
  cases x with
  | error e => cases h
  | ok b => exact congrArg Except.ok (Option.some.inj h)

/-- Visits statements in order, up to the first error. -/
def visitAll {σ : Type} (visit : Visit σ) (state : σ) : List Stmt →
    Except Diagnostic (List Stmt × σ)
  | [] => .ok ([], state)
  | stmt :: stmts => do
    let (stmt, state) ← visit state stmt
    let (stmts, state) ← visitAll visit state stmts
    return (stmt :: stmts, state)

/-- What is left of a run when only the message of a failure matters. -/
def outcome {α : Type} : EStateM.Result Diagnostic Cursor α → Except Diagnostic (α × Cursor)
  | .ok value c => .ok (value, c)
  | .error failure _ => .error failure

theorem outcome_bind {α β : Type} (x : Parse α) (f : α → Parse β) (c : Cursor) :
    outcome ((x >>= f) c) = outcome (x c) >>= fun reached => outcome (f reached.1 reached.2) := by
  rw [Parse.bind_run]
  cases x c <;> rfl

section

variable {σ : Type} {visit : Visit σ} {state : σ} {fuel : Nat} {stop : Except Diagnostic Unit}

theorem outcome_topLevel_nil (h : c.ahead = []) :
    outcome (topLevel visit fuel state c) = .ok ([], c) := by
  cases fuel with
  | zero => rfl
  | succ fuel => simp [topLevel, h, outcome]

theorem outcome_topLevel_error {failure : Diagnostic} (hd : c.depth = 0) (hn : c.ahead ≠ [])
    (hs : statement .standard maxDepth c = .error failure c') :
    outcome (topLevel visit (fuel + 1) state c) = .error failure := by
  rw [topLevel, Parse.get_bind_run, if_neg (by simpa using hn), outcome_bind,
    Parser.statement_eq _ hd, hs]
  rfl

theorem outcome_topLevel_ok (hd : c.depth = 0)
    (hs : statement .standard maxDepth c = .ok stmt c₁) :
    outcome (topLevel visit (fuel + 1) state c) = do
      let visited ← visit state stmt
      let rest ← outcome (topLevel visit fuel visited.2 c₁)
      return (visited.1 :: rest.1, rest.2) := by
  rw [topLevel, Parse.get_bind_run, if_neg (by simpa using ahead_ne_nil hs), outcome_bind,
    Parser.statement_eq _ hd, hs]
  simp only [outcome, ok_bind]
  cases visit state stmt with
  | error diagnostic => rfl
  | ok visited => exact outcome_bind _ _ c₁

/-- The loop stops at the first error, be it that of a visit to a completed statement or the one
that stops the parser. -/
theorem outcome_topLevel (hd : c.depth = 0) (hc : Completes maxDepth c stmts c')
    (hstop : Stops maxDepth c' stop) (hf : c.ahead.length ≤ fuel) :
    outcome (topLevel visit fuel state c) = do
      let visited ← visitAll visit state stmts
      stop
      return (visited.1, c') := by
  -- along the completed statements: the state of the visits and the fuel change on the way
  induction hc generalizing fuel state with
  | nil c =>
    cases hstop with
    | done ha => exact outcome_topLevel_nil ha
    | failed hn hs =>
      cases fuel with
      | zero => exact absurd (List.length_eq_zero_iff.1 (Nat.le_zero.1 hf)) hn
      | succ fuel => exact outcome_topLevel_error hd hn hs
  | @cons c c₁ c' stmt stmts hs hc ih =>
    have hlt := ahead_length_lt hs
    cases fuel with
    | zero => omega
    | succ fuel =>
      rw [outcome_topLevel_ok hd hs, visitAll, bind_assoc]
      refine bind_congr fun visited => ?_
      rw [ih (by rw [statement_depth hs, hd]) hstop (by omega)]
      simp only [bind_assoc, pure_bind]

/-- An error that stops the parser is left where the parser met it, if the visits before found
none. -/
theorem topLevel_error {visited : List Stmt × σ} {failure : Diagnostic} (hd : c.depth = 0)
    (hc : Completes maxDepth c stmts c₁) (hv : visitAll visit state stmts = .ok visited)
    (hn : c₁.ahead ≠ []) (hs : statement .standard maxDepth c₁ = .error failure c')
    (hf : c.ahead.length ≤ fuel) : topLevel visit fuel state c = .error failure c' := by
  induction hc generalizing fuel state visited with
  | nil c =>
    cases fuel with
    | zero => exact absurd (List.length_eq_zero_iff.1 (Nat.le_zero.1 hf)) hn
    | succ fuel =>
      rw [topLevel, Parse.get_bind_run, if_neg (by simpa using hn), Parse.bind_run,
        Parser.statement_eq _ hd, hs]
  | @cons c c₁ c₂ stmt stmts hstmt hc ih =>
    have hlt := ahead_length_lt hstmt
    cases fuel with
    | zero => omega
    | succ fuel =>
      rw [topLevel, Parse.get_bind_run, if_neg (by simpa using ahead_ne_nil hstmt),
        Parse.bind_run, Parser.statement_eq _ hd, hstmt]
      rw [visitAll] at hv
      cases hvisit : visit state stmt with
      | error diagnostic => simp [hvisit, bind, Except.bind] at hv
      | ok first =>
        rw [hvisit, ok_bind] at hv
        cases hrest : visitAll visit first.2 stmts with
        | error diagnostic => simp [hrest, bind, Except.bind] at hv
        | ok rest =>
          have hloop : topLevel visit fuel first.2 c₁ = .error failure c' :=
            ih (by rw [statement_depth hstmt, hd]) hrest hn hs (by omega)
          simp only [hvisit, Parse.bind_run, hloop]

end

/-- The loop over the statements of a program is stopped by this error, at this place. -/
def FailsAt {σ : Type} (visit : Visit σ) (state : σ) (file : String) (tokens : List Token)
    (e : Diagnostic) (c : Cursor) : Prop :=
  topLevel visit tokens.length state (.start file tokens) = .error e c

/-- What a program comes to, by the statements that are completed and what stops the parser. -/
theorem program_eq {σ : Type} {visit : Visit σ} {state : σ} {file : String} {tokens : List Token}
    {stop : Except Diagnostic Unit} (hc : Completes maxDepth (.start file tokens) stmts c')
    (hstop : Stops maxDepth c' stop) :
    program visit state file tokens = do
      let visited ← visitAll visit state stmts
      stop
      return ⟨visited.1, c'.spanFrom (.start file)⟩ := by
  have hprogram : program visit state file tokens =
      (outcome (topLevel visit tokens.length state (.start file tokens))).map
        fun reached => ⟨reached.1, reached.2.spanFrom (.start file)⟩ := by
    unfold program
    cases topLevel visit tokens.length state (.start file tokens) <;> rfl
  rw [hprogram, outcome_topLevel rfl hc hstop (Nat.le_refl tokens.length)]
  cases visitAll visit state stmts with
  | error diagnostic => rfl
  | ok visited => cases stop <;> rfl

theorem visitAll_none (stmts : List Stmt) : visitAll .none () stmts = .ok (stmts, ()) := by
  induction stmts with
  | nil => rfl
  | cons stmt stmts ih =>
    simp only [visitAll, Visit.none, ok_bind, ih]
    rfl

theorem parseUntyped_eq {file : String} {tokens : List Token} {stop : Except Diagnostic Unit}
    (hc : Completes maxDepth (.start file tokens) stmts c') (hstop : Stops maxDepth c' stop) :
    Program.parseUntyped file tokens = do
      stop
      return ⟨stmts, c'.spanFrom (.start file)⟩ := by
  rw [Program.parseUntyped, program_eq hc hstop, visitAll_none, ok_bind]

/-- Visiting statements to check them is the same as checking them all. -/
theorem visitAll_check (scopes : Scopes) (stmts : List Stmt) :
    visitAll .check scopes stmts =
      match checkAll scopes stmts with
      | ⟨stmts, scopes, .ok ()⟩ => .ok (stmts, scopes)
      | ⟨_, _, .error diagnostic⟩ => .error diagnostic := by
  induction stmts generalizing scopes with
  | nil => rfl
  | cons stmt stmts ih =>
    rw [visitAll, Visit.check, checkAll]
    rcases stmt.check scopes with ⟨stmt, scopes, e | _⟩
    · rfl
    · simp only [ok_bind, ih]
      rcases checkAll scopes stmts with ⟨stmts, scopes, e | _⟩ <;> rfl

end Grammar

end MiniC
