import MiniC.Proofs.Grammar.Expression

/-!
Soundness of the rules for statements: with any table of statements, all that they parse is derived
in the grammar, with a demand that fits into the levels left.
-/

namespace MiniC

open MiniC.Language Grammar

theorem DataType.ofKeyword?_eq_some_iff {text : String} {type : DataType} :
    DataType.ofKeyword? text = some type ↔ text = type.name := by
  constructor
  · intro h
    unfold DataType.ofKeyword? at h
    split at h
    · next heq => exact (Option.some.inj h) ▸ heq
    split at h
    · next heq => exact (Option.some.inj h) ▸ heq
    split at h
    · next heq => exact (Option.some.inj h) ▸ heq
    split at h
    · next heq => exact (Option.some.inj h) ▸ heq
    · cases h
  · rintro rfl
    cases type <;> rfl

theorem Token.dataType?_eq_some_iff {token : Token} {type : DataType} :
    token.dataType? = some type ↔ token.terminal = keyword type.name := by
  simp [Token.dataType?, Token.terminal, keyword, DataType.ofKeyword?_eq_some_iff]

namespace Language

section

variable {c c' : Cursor} {levels : Nat}

theorem expression_reads (levels : Nat) :
    (expression levels).Reads levels fun text e => AnyExpression text (e.relabel .unplaced) := by
  intro c e c' h
  obtain ⟨used, demand, hm, he, hd, -⟩ := layer_reads levels (.level .logicalOr) h
  exact ⟨used, demand, hm, he, hd⟩

theorem typeKeyword_ok {type : DataType} {start : Position}
    (h : typeKeyword c = .ok (type, start) c') :
    ∃ token, c.Moved [token] c' ∧ token.terminal = keyword type.name ∧
      start = token.span.start := by
  rw [typeKeyword, Parse.bind_ok] at h
  obtain ⟨token, c₁, hp, h⟩ := h
  obtain ⟨rfl, rest, ha⟩ := Parse.peek_ok hp
  cases ht : token.dataType? with
  | none => simp [ht] at h
  | some found =>
    simp only [ht, Parse.bind_ok, Parse.pure_ok, Prod.mk.injEq] at h
    obtain ⟨t, c₂, hadv, ⟨rfl, rfl⟩, rfl⟩ := h
    have hm := Parse.advance_ok hadv
    obtain rfl : t = token := (List.cons.inj (hm.ahead.symm.trans ha)).1
    exact ⟨t, hm, Token.dataType?_eq_some_iff.1 ht, rfl⟩

theorem initialValue_ok {init : Option Expr}
    (h : initialValue (expression levels) c = .ok init c') :
    (init = none ∧ c' = c) ∨ ∃ token used e demand, init = some e ∧ c.Moved ([token] ++ used) c' ∧
      token.terminal = operator "=" ∧
      AnyExpression (used.map Token.terminal) (e.relabel .unplaced) demand ∧ demand ≤ levels := by
  simp only [initialValue, Parse.get_bind_run] at h
  split at h
  · next hat =>
    simp only [Parse.bind_ok, Parse.pure_ok] at h
    obtain ⟨token, c₁, hadv, e, c₂, hx, rfl, rfl⟩ := h
    have hm := Parse.advance_ok hadv
    obtain ⟨used, demand, hm', he, hd⟩ := expression_reads levels hx
    exact .inr ⟨token, used, e, demand, rfl, hm.trans hm', (Cursor.atOperator_iff hm.ahead).1 hat,
      he, hd⟩
  · cases h
    exact .inl ⟨rfl, rfl⟩

theorem varDecl_reads (levels : Nat) :
    (varDecl (expression levels)).Reads levels
        fun text d => Declaration text (d.relabel .unplaced) := by
  intro c d c' h
  simp only [varDecl, Parse.bind_ok, Parse.get_bind_run, Parse.pure_ok] at h
  obtain ⟨⟨type, start⟩, c₁, htype, name, c₂, hname, init, c₃, hinit, semi, c₄, hsemi, rfl,
    rfl⟩ := h
  obtain ⟨token, hm₁, ht, -⟩ := typeKeyword_ok htype
  obtain ⟨hm₂, hk⟩ := Parse.expectKind_ok hname
  obtain ⟨hm₄, hs⟩ := Parse.expectOperator_ok hsemi
  have hn : name.terminal = (.identifier, name.lexeme) := by rw [Token.terminal, hk]
  obtain ⟨rfl, rfl⟩ | ⟨eq, used, e, demand, rfl, hm₃, heq, he, hd⟩ := initialValue_ok hinit
  · refine ⟨_, 0, hm₁.trans (hm₂.trans hm₄), ?_, Nat.zero_le _⟩
    simp only [List.map_append, List.map_singleton, ht, hn, hs]
    exact .plain type name.lexeme
  · refine ⟨_, demand, hm₁.trans (hm₂.trans (hm₃.trans hm₄)), ?_, hd⟩
    simp only [List.map_append, List.map_singleton, ht, hn, heq, hs, List.append_assoc]
    exact .init type name.lexeme he

theorem assignment_ok {terminated : Bool} {a : Assignment}
    (h : assignment (expression levels) terminated c = .ok a c') :
    ∃ used last demand, c.Moved (used ++ last) c' ∧
      Update (used.map Token.terminal) (a.relabel .unplaced) demand ∧ demand ≤ levels ∧
      last.map Token.terminal = if terminated then [operator ";"] else [] := by
  simp only [assignment, Parse.bind_ok] at h
  obtain ⟨name, c₁, hname, eq, c₂, heq, value, c₃, hx, h⟩ := h
  obtain ⟨hm₁, hk⟩ := Parse.expectKind_ok hname
  obtain ⟨hm₂, heq⟩ := Parse.expectOperator_ok heq
  obtain ⟨used, demand, hm₃, he, hd⟩ := expression_reads levels hx
  have hn : name.terminal = (.identifier, name.lexeme) := by rw [Token.terminal, hk]
  have hm := hm₁.trans (hm₂.trans hm₃)
  have hu : Update (([name] ++ ([eq] ++ used)).map Token.terminal)
      ⟨name.lexeme, value.relabel .unplaced, none, .null⟩ demand := by
    simp only [List.map_append, List.map_singleton, hn, heq]
    exact .mk name.lexeme he
  cases terminated with
  | false =>
    -- in the header of a `for` nothing is taken after the value
    simp only [Bool.false_eq_true, if_false, Parse.get_bind_run, Parse.pure_ok] at h
    obtain ⟨rfl, rfl⟩ := h
    exact ⟨_, [], demand, hm.trans (.refl c₃), hu, hd, rfl⟩
  | true =>
    simp only [if_true, Parse.bind_ok, Parse.get_bind_run, Parse.pure_ok] at h
    obtain ⟨semi, c₄, hsemi, rfl, rfl⟩ := h
    obtain ⟨hm₄, hs⟩ := Parse.expectOperator_ok hsemi
    exact ⟨_, [semi], demand, hm.trans hm₄, hu, hd, by simp [hs]⟩

theorem update_reads (levels : Nat) :
    (assignment (expression levels) false).Reads levels
        fun text a => Update text (a.relabel .unplaced) := by
  intro c a c' h
  obtain ⟨used, last, demand, hm, hu, hd, hl⟩ := assignment_ok h
  obtain rfl : last = [] := by simpa using hl
  exact ⟨used ++ [], demand, hm, by simpa using hu, hd⟩

theorem assignment_reads (levels : Nat) :
    (assignment (expression levels) true).Reads levels fun text a =>
      Simple text (.assign (a.relabel .unplaced)) := by
  intro c a c' h
  obtain ⟨used, last, demand, hm, hu, hd, hl⟩ := assignment_ok h
  refine ⟨used ++ last, demand, hm, ?_, hd⟩
  rw [List.map_append, hl]
  exact .assignment hu

theorem parenthesised_ok {e : Expr} (h : parenthesised (expression levels) c = .ok e c') :
    ∃ used text demand, c.Moved used c' ∧
      used.map Token.terminal = operator "(" :: text ++ [operator ")"] ∧
      AnyExpression text (e.relabel .unplaced) demand ∧ demand ≤ levels := by
  simp only [parenthesised, Parse.bind_ok, Parse.pure_ok] at h
  obtain ⟨opening, c₁, ho, expr, c₂, hx, closing, c₃, hc, rfl, rfl⟩ := h
  obtain ⟨hm₁, ho⟩ := Parse.expectOperator_ok ho
  obtain ⟨used, demand, hm₂, he, hd⟩ := expression_reads levels hx
  obtain ⟨hm₃, hc⟩ := Parse.expectOperator_ok hc
  refine ⟨_, _, demand, hm₁.trans (hm₂.trans hm₃), ?_, he, hd⟩
  simp [ho, hc]

theorem forInit_reads (levels : Nat) :
    (forInit (expression levels)).Reads levels fun text s => Simple text (s.relabel .unplaced) := by
  intro c s c' h
  rw [forInit, Parse.bind_ok] at h
  obtain ⟨token, c₁, hp, h⟩ := h
  obtain ⟨rfl, -⟩ := Parse.peek_ok hp
  split at h
  · simp only [Parse.bind_ok, Parse.pure_ok] at h
    obtain ⟨d, c₂, hr, rfl, rfl⟩ := h
    obtain ⟨used, demand, hm, hd, hle⟩ := varDecl_reads levels hr
    exact ⟨used, demand, hm, .declaration hd, hle⟩
  split at h
  · simp only [Parse.bind_ok, Parse.pure_ok] at h
    obtain ⟨a, c₂, hr, rfl, rfl⟩ := h
    exact assignment_reads levels hr
  · simp at h

section

variable {block : Parse MiniC.Block}
  (hb : block.Reads levels fun text b => Block text (b.relabel .unplaced))

include hb

theorem ifElse_reads :
    (Grammar.ifElse (expression levels) block).Reads levels fun text s =>
      Statement text (s.relabel .unplaced) := by
  intro c s c' h
  simp only [Grammar.ifElse, elseBody, Parse.bind_ok, Parse.get_bind_run, Parse.pure_ok] at h
  obtain ⟨token, c₁, ht, test, c₂, hx, thenBlock, c₃, hthen, elseBlock, c₄, helse, rfl, rfl⟩ := h
  obtain ⟨hm₁, ht⟩ := Parse.expectKeyword_ok ht
  obtain ⟨used, text, demand, hm₂, htext, he, hd⟩ := parenthesised_ok hx
  obtain ⟨thenUsed, thenDemand, hm₃, hthen, hthend⟩ := hb hthen
  have hm := hm₁.trans (hm₂.trans hm₃)
  -- an `else` that is ahead is always taken as the second branch
  split at helse
  · next hat =>
    simp only [Parse.bind_ok, Parse.pure_ok] at helse
    obtain ⟨els, c₅, hadv, body, c₆, helse, rfl, rfl⟩ := helse
    have hm₄ := Parse.advance_ok hadv
    have hels := (Cursor.atKeyword_iff hm₄.ahead).1 hat
    obtain ⟨elseUsed, elseDemand, hm₅, helse, helsed⟩ := hb helse
    refine ⟨_, max demand (max thenDemand elseDemand), hm.trans (hm₄.trans hm₅), ?_, by omega⟩
    simpa [Stmt.relabel, relabelElse, ht, htext, hels] using Statement.ifElse he hthen helse
  · cases helse
    refine ⟨_, max demand thenDemand, hm, ?_, by omega⟩
    simpa [Stmt.relabel, relabelElse, ht, htext] using Statement.ifThen he hthen

theorem whileLoop_reads :
    (Grammar.whileLoop (expression levels) block).Reads levels fun text s =>
      Statement text (s.relabel .unplaced) := by
  intro c s c' h
  simp only [Grammar.whileLoop, Parse.bind_ok, Parse.get_bind_run, Parse.pure_ok] at h
  obtain ⟨token, c₁, ht, test, c₂, hx, body, c₃, hbody, rfl, rfl⟩ := h
  obtain ⟨hm₁, ht⟩ := Parse.expectKeyword_ok ht
  obtain ⟨used, text, demand, hm₂, htext, he, hd⟩ := parenthesised_ok hx
  obtain ⟨bodyUsed, bodyDemand, hm₃, hbody, hbodyd⟩ := hb hbody
  refine ⟨_, max demand bodyDemand, hm₁.trans (hm₂.trans hm₃), ?_, by omega⟩
  simpa [Stmt.relabel, ht, htext] using Statement.whileLoop he hbody

theorem forLoop_reads :
    (Grammar.forLoop (expression levels) block).Reads levels fun text s =>
      Statement text (s.relabel .unplaced) := by
  intro c s c' h
  simp only [Grammar.forLoop, Parse.bind_ok, Parse.get_bind_run, Parse.pure_ok] at h
  obtain ⟨token, c₁, ht, opening, c₂, ho, init, c₃, hinit, test, c₄, hx, semi, c₅, hsemi,
    update, c₆, hu, closing, c₇, hc, body, c₈, hbody, rfl, rfl⟩ := h
  obtain ⟨hm₁, ht⟩ := Parse.expectKeyword_ok ht
  obtain ⟨hm₂, ho⟩ := Parse.expectOperator_ok ho
  obtain ⟨initUsed, initDemand, hm₃, hinit, hinitd⟩ := forInit_reads levels hinit
  obtain ⟨used, demand, hm₄, he, hd⟩ := expression_reads levels hx
  obtain ⟨hm₅, hs⟩ := Parse.expectOperator_ok hsemi
  obtain ⟨updateUsed, updateDemand, hm₆, hu, hud⟩ := update_reads levels hu
  obtain ⟨hm₇, hc⟩ := Parse.expectOperator_ok hc
  obtain ⟨bodyUsed, bodyDemand, hm₈, hbody, hbodyd⟩ := hb hbody
  have hm := hm₁.trans (hm₂.trans (hm₃.trans (hm₄.trans (hm₅.trans (hm₆.trans (hm₇.trans hm₈))))))
  refine ⟨_, max initDemand (max demand (max updateDemand bodyDemand)), hm, ?_, by omega⟩
  simpa [Stmt.relabel, ht, ho, hs, hc] using Statement.forLoop hinit he hu hbody

end

theorem ret_reads (levels : Nat) :
    (Grammar.ret (expression levels)).Reads levels fun text r =>
      Statement text (.ret (r.relabel .unplaced)) := by
  intro c r c' h
  simp only [Grammar.ret, returnValue, Parse.bind_ok, Parse.get_bind_run, Parse.pure_ok] at h
  obtain ⟨token, c₁, ht, value, c₂, hv, semi, c₃, hsemi, rfl, rfl⟩ := h
  obtain ⟨hm₁, ht⟩ := Parse.expectKeyword_ok ht
  obtain ⟨hm₃, hs⟩ := Parse.expectOperator_ok hsemi
  split at hv
  · cases hv
    refine ⟨_, 0, hm₁.trans hm₃, ?_, Nat.zero_le _⟩
    simpa [Return.relabel, ht, hs] using Statement.retVoid
  · simp only [Parse.bind_ok, Parse.pure_ok] at hv
    obtain ⟨e, c₄, hx, rfl, rfl⟩ := hv
    obtain ⟨used, demand, hm₂, he, hd⟩ := expression_reads levels hx
    refine ⟨_, demand, hm₁.trans (hm₂.trans hm₃), ?_, hd⟩
    simpa [Return.relabel, ht, hs] using Statement.ret he

section

variable {block : Parse MiniC.Block}
  (hb : block.Reads levels fun text b => Block text (b.relabel .unplaced))

include hb

theorem handle_reads (handler : Handler) :
    (handle (expression levels) block handler).Reads levels fun text s =>
      Statement text (s.relabel .unplaced) := by
  cases handler with
  | varDecl =>
    intro c s c' h
    simp only [handle, Parse.bind_ok, Parse.pure_ok] at h
    obtain ⟨d, c₁, hr, rfl, rfl⟩ := h
    obtain ⟨used, demand, hm, hd, hle⟩ := varDecl_reads levels hr
    exact ⟨used, demand, hm, .simple (.declaration hd), hle⟩
  | ifElse => exact ifElse_reads hb
  | whileLoop => exact whileLoop_reads hb
  | forLoop => exact forLoop_reads hb
  | ret =>
    intro c s c' h
    simp only [handle, Parse.bind_ok, Parse.pure_ok] at h
    obtain ⟨r, c₁, hr, rfl, rfl⟩ := h
    exact ret_reads levels hr
  | block =>
    intro c s c' h
    simp only [handle, Parse.bind_ok, Parse.pure_ok] at h
    obtain ⟨b, c₁, hr, rfl, rfl⟩ := h
    obtain ⟨used, demand, hm, hd, hle⟩ := hb hr
    exact ⟨used, demand, hm, .block hd, hle⟩

theorem statementWith_reads (table : Table) :
    (statementWith table (expression levels) block).Reads levels fun text s =>
      Statement text (s.relabel .unplaced) := by
  intro c s c' h
  rw [statementWith, Parse.bind_ok] at h
  obtain ⟨token, c₁, hp, h⟩ := h
  obtain ⟨rfl, -⟩ := Parse.peek_ok hp
  cases ht : table.handler? token with
  | some handler =>
    simp only [ht] at h
    exact handle_reads hb handler h
  | none =>
    -- a token without an entry can only start an assignment
    simp only [ht] at h
    split at h
    · simp only [Parse.bind_ok, Parse.pure_ok] at h
      obtain ⟨a, c₂, hr, rfl, rfl⟩ := h
      obtain ⟨used, demand, hm, ha, hle⟩ := assignment_reads levels hr
      exact ⟨used, demand, hm, .simple ha, hle⟩
    · simp at h

end

theorem Program.nil : Program [] [] 0 :=
  Program.mk (fun item (h : item ∈ []) => absurd h List.not_mem_nil)

theorem Program.cons {text text' : List Terminal} {stmt : Stmt} {body : List Stmt}
    {demand demand' : Nat} (h : Statement text stmt demand) (h' : Program text' body demand') :
    Program (text ++ text') (stmt :: body) (max demand demand') := by
  obtain ⟨hitems⟩ := h'
  refine Program.mk (fun item (hm : item ∈ (⟨text, stmt, demand⟩ : Item) :: _) => ?_)
  rcases List.mem_cons.1 hm with rfl | hm
  · exact h
  · exact hitems item hm

theorem Program.block {text : List Terminal} {body : List Stmt} {demand : Nat}
    (h : Program text body demand) :
    Block (operator "\x7b" :: text ++ [operator "\x7d"]) ⟨body, 0, .null⟩ (1 + demand) := by
  obtain ⟨hitems⟩ := h
  exact .mk hitems

/-- Statements that a loop has read, one after the other. -/
theorem untilBrace_reads {statement : Parse Stmt}
    (hs : statement.Reads levels fun text s => Statement text (s.relabel .unplaced)) (fuel : Nat) :
    (untilBrace statement fuel).Reads levels fun text body =>
      Program text (relabelAll .unplaced body) := by
  induction fuel with
  | zero =>
    intro c body c' h
    simp only [untilBrace, Parse.get_bind_run] at h
    split at h
    · cases h
      exact ⟨[], 0, .refl c, .nil, Nat.zero_le _⟩
    · simp at h
  | succ fuel ih =>
    intro c body c' h
    simp only [untilBrace, Parse.get_bind_run] at h
    split at h
    · cases h
      exact ⟨[], 0, .refl c, .nil, Nat.zero_le _⟩
    · simp only [Parse.bind_ok, Parse.pure_ok] at h
      obtain ⟨stmt, c₁, hstmt, stmts, c₂, hstmts, rfl, rfl⟩ := h
      obtain ⟨used, demand, hm, hd, hle⟩ := hs hstmt
      obtain ⟨used', demand', hm', hd', hle'⟩ := ih hstmts
      refine ⟨used ++ used', max demand demand', hm.trans hm', ?_, by omega⟩
      simp only [List.map_append, relabelAll]
      exact .cons hd hd'

/-- Soundness of the rule for blocks, with any table and any number of levels left. -/
theorem block_reads (table : Table) (levels : Nat) :
    (Grammar.block table levels).Reads levels fun text b => Block text (b.relabel .unplaced) := by
  induction levels with
  | zero =>
    intro c b c' h
    cases h
  | succ levels ih =>
    intro c b c' h
    simp only [Grammar.block, braces, Parse.nested_ok, Parse.bind_ok, Parse.get_bind_run,
      Parse.pure_ok] at h
    obtain ⟨brace, c₁, hbrace, id, c₂, hid, body, c₃, hbody, closing, c₄, hc, rfl, rfl⟩ := h
    obtain ⟨hm₁, ho⟩ := Parse.expectOperator_ok hbrace
    have hm₂ := Parse.takeId_ok hid
    obtain ⟨used, demand, hm₃, hd, hle⟩ := untilBrace_reads (statementWith_reads ih table) _ hbody
    obtain ⟨hm₄, hc⟩ := Parse.expectOperator_ok hc
    refine ⟨_, 1 + demand, hm₁.trans (hm₂.trans (hm₃.trans hm₄)), ?_, by omega⟩
    simpa [MiniC.Block.relabel, ho, hc] using hd.block

/-- Soundness of the rule for statements, with any table and any number of levels left. -/
theorem statement_reads (table : Table) (levels : Nat) :
    (statement table levels).Reads levels fun text s => Statement text (s.relabel .unplaced) :=
  statementWith_reads (block_reads table levels) table

end

end Language

end MiniC
