import MiniC.Proofs.Grammar.Failure
import MiniC.Proofs.Grammar.StatementAccepts

/-!
Every rule of the grammar reads a text of its language or fails after part of one. For each place
where a rule can fail the rest of a text is named, so what was used before it can be completed.
-/

namespace MiniC

open MiniC.Language Grammar

namespace Language

/-- The texts of a family of derivations. -/
def Derivable {α : Type} (D : List Terminal → α → Nat → Prop) (text : List Terminal) : Prop :=
  ∃ tree demand, D text tree demand

variable {c : Cursor} {token : Token} {rest : List Token} {levels : Nat}

theorem parses_of_reads {α β : Type} {rule : Parse α} {D : List Terminal → β → Nat → Prop}
    (view : α → β) (hr : rule.Reads levels fun text a => D text (view a))
    (he : ∀ c, rule.FailsIn c (Derivable D)) : rule.Parses (Derivable D) := by
  refine ⟨fun c a c' h => ?_, he⟩
  obtain ⟨used, demand, hm, hd, -⟩ := hr h
  exact ⟨used, hm, view a, demand, hd⟩

/-! Expressions. A name is an expression of every layer, so any of them can be completed. -/

theorem name_derivable (name : String) (layer : Layer) :
    Derivable (Expression layer) [(.identifier, name)] := by
  induction layer using Layer.induct with
  | primary => exact ⟨_, _, .name⟩
  | unary hp =>
    obtain ⟨tree, demand, h⟩ := hp
    exact ⟨tree, demand, .plain h⟩
  | level level ho =>
    obtain ⟨tree, demand, h⟩ := ho
    exact ⟨_, _, .chain h (fun link (hl : link ∈ []) => absurd hl List.not_mem_nil)
      fun link (hl : link ∈ []) => absurd hl List.not_mem_nil⟩

theorem exists_expression (layer : Layer) : ∃ text, Derivable (Expression layer) text :=
  ⟨_, name_derivable "x" layer⟩

theorem group_derivable {text : List Terminal}
    (h : Derivable (Expression (.level .logicalOr)) text) :
    Derivable (Expression .primary) (operator "(" :: (text ++ [operator ")"])) := by
  obtain ⟨tree, demand, h⟩ := h
  exact ⟨tree, 1 + demand, .group h⟩

/-- Any number of operators of a level, each with an operand on its right. -/
def Links (level : Level) (text : List Terminal) : Prop :=
  ∃ links : List Link, (∀ link ∈ links, link.op.level = level) ∧
    (∀ link ∈ links, Expression (operand level) link.text link.tree link.demand) ∧
    text = links.flatMap Link.written

theorem Links.nil (level : Level) : Links level [] :=
  ⟨[], by simp, by simp, rfl⟩

theorem Links.cons {level : Level} {op : BinaryOp} {text more : List Terminal}
    (hl : op.level = level) (ht : Derivable (Expression (operand level)) text)
    (hm : Links level more) : Links level (operator op.lexeme :: (text ++ more)) := by
  obtain ⟨tree, demand, ht⟩ := ht
  obtain ⟨links, hlevels, hlinks, rfl⟩ := hm
  refine ⟨⟨op, text, tree, demand⟩ :: links, ?_, ?_, ?_⟩
  · simpa [hl] using hlevels
  · simpa using ⟨ht, hlinks⟩
  · simp [Link.written]

/-- An operand with the links after it is an expression of the level. -/
theorem Links.derivable {level : Level} {text more : List Terminal} (hm : Links level more)
    (ht : Derivable (Expression (operand level)) text) :
    Derivable (Expression (.level level)) (text ++ more) := by
  obtain ⟨tree, demand, ht⟩ := ht
  obtain ⟨links, hlevels, hlinks, rfl⟩ := hm
  exact ⟨_, _, .chain ht hlevels hlinks⟩

theorem unreadable_of_atom? (h : atom? token = none) (hk : token.kind ≠ .keyword)
    (ho : token.kind ≠ .operator) : token.Unreadable := by
  obtain ⟨kind, lexeme, span⟩ := token
  cases kind with
  | integer => exact .inl ⟨rfl, Option.map_eq_none_iff.1 h⟩
  | float => exact .inr ⟨rfl, Option.map_eq_none_iff.1 h⟩
  | keyword => exact absurd rfl hk
  | operator => exact absurd rfl ho
  | _ => cases h

/-- A number is only found to be unreadable once it has been taken. -/
theorem atom_fails (ha : c.ahead = token :: rest) (hk : token.kind ≠ .keyword)
    (ho : token.kind ≠ .operator) :
    Grammar.atom.FailsIn c (Derivable (Expression .primary)) := by
  intro failure c' h
  obtain ⟨c₁, hrun, hm⟩ := Parse.advance_cons ha
  rw [Grammar.atom, Parse.bind_run, hrun] at h
  cases hatom : atom? token with
  | some e =>
    simp only [hatom] at h
    cases h
  | none =>
    simp only [hatom] at h
    cases h
    exact ⟨[] ++ [token], [], _, hm, .badNumber (unreadable_of_atom? hatom hk ho),
      name_derivable "x" .primary⟩

theorem primary_fails (hg : ∀ c, (group levels).FailsIn c (Derivable (Expression .primary)))
    (c : Cursor) : (primary (group levels)).FailsIn c (Derivable (Expression .primary)) := by
  refine .peek (exists_expression _) fun token rest ha => ?_
  cases hk : token.kind with
  | keyword => exact .unexpected (exists_expression _)
  | operator =>
    by_cases hl : token.lexeme = "("
    · simp only [hl, if_true]
      exact hg c
    · simp only [hl, if_false]
      exact .unexpected (exists_expression _)
  | _ => exact atom_fails ha (by simp [hk]) (by simp [hk])

theorem unary_fails
    (hp : (primary (group levels)).Parses (Derivable (Expression .primary))) (c : Cursor) :
    (unary (group levels)).FailsIn c (Derivable (Expression .unary)) := by
  have hplain : ∀ text, Derivable (Expression .primary) text →
      Derivable (Expression .unary) text := by
    rintro text ⟨tree, demand, h⟩
    exact ⟨tree, demand, .plain h⟩
  have hsigned : ∀ (op : UnaryOp) text, Derivable (Expression .primary) text →
      Derivable (Expression .unary) (operator op.lexeme :: text) := by
    rintro op text ⟨tree, demand, h⟩
    exact ⟨_, demand, .signed op h⟩
  refine .get ?_
  cases hop : c.ahead.head?.bind Token.unaryOp? with
  | none => exact (hp.error c).mono hplain
  | some op =>
    obtain ⟨token, hhead, htoken⟩ := Option.bind_eq_some_iff.1 hop
    obtain ⟨rest, ha⟩ := List.head?_eq_some_iff.1 hhead
    have ht := Token.unaryOp?_eq_some_iff.1 htoken
    refine .advance ha fun c₁ => ?_
    rw [ht]
    exact (hp.error c₁).map.mono (hsigned op)

theorem level_fails {level : Level}
    (hf : ∀ left c, (fold levels level left).FailsIn c (Links level))
    (ho : ((operand level).rule levels).Parses (Derivable (Expression (operand level))))
    (c : Cursor) :
    ((Layer.level level).rule levels).FailsIn c (Derivable (Expression (.level level))) := by
  rw [rule_level]
  refine .bind ho (fun text h => ⟨[], (Links.nil level).derivable h⟩) fun left c' text h => ?_
  exact (hf left c').mono fun more hm => hm.derivable h

theorem rule_parses (hg : ∀ c, (group levels).FailsIn c (Derivable (Expression .primary)))
    (hf : ∀ level left c, (fold levels level left).FailsIn c (Links level)) (layer : Layer) :
    (layer.rule levels).Parses (Derivable (Expression layer)) := by
  have hread : ∀ layer : Layer, (layer.rule levels).Reads levels fun text e =>
      Expression layer text (e.relabel .unplaced) := by
    intro layer c e c' h
    obtain ⟨used, demand, hm, he, hd, -⟩ := layer_reads levels layer h
    exact ⟨used, demand, hm, he, hd⟩
  induction layer using Layer.induct with
  | primary => exact parses_of_reads _ (hread .primary) (primary_fails hg)
  | unary hp => exact parses_of_reads _ (hread .unary) (unary_fails hp)
  | level level ho => exact parses_of_reads _ (hread (.level level)) (level_fails (hf level) ho)

/-- Parentheses and folds fail after part of what they read. The induction is on the levels left,
as below each of them stand whole expressions with one level less. -/
theorem group_and_fold_fail (levels : Nat) :
    (∀ c, (group levels).FailsIn c (Derivable (Expression .primary))) ∧
      ∀ level left c, (fold levels level left).FailsIn c (Links level) := by
  induction levels with
  | zero =>
    refine ⟨fun c => .tooDeep (exists_expression _), fun level left c => .get ?_⟩
    cases c.binaryOp? level with
    | none => exact .pure
    | some op => exact .tooDeep ⟨[], .nil level⟩
  | succ levels ih =>
    have hr := rule_parses ih.1 ih.2
    refine ⟨fun c => .nested ?_, fun level left c => .get ?_⟩
    · obtain ⟨text, ht⟩ := exists_expression (.level .logicalOr)
      refine .step (Parse.expectOperator_steps "(") ⟨_, group_derivable ht⟩ fun _ c₁ => ?_
      refine .bind (hr (.level .logicalOr)) (fun text h => ⟨_, group_derivable h⟩)
        fun _ c₂ text h => ?_
      exact .step (Parse.expectOperator_steps ")") ⟨_, group_derivable h⟩ fun _ _ => .pure
    · cases hop : c.binaryOp? level with
      | none => exact .pure
      | some op =>
        obtain ⟨hlevel, token, rest, ha, ht⟩ := binaryOp?_eq_some hop
        refine .nested (.advance ha fun c₁ => ?_)
        rw [ht, ← rule_operand]
        refine .bind (hr (operand level)) (fun text h => ⟨[], ?_⟩) fun right c₂ text h => ?_
        · exact .cons hlevel h (.nil level)
        · exact (ih.2 level _ c₂).mono fun more hm => .cons hlevel h hm

theorem expression_parses (levels : Nat) :
    (expression levels).Parses (Derivable AnyExpression) :=
  rule_parses (group_and_fold_fail levels).1 (group_and_fold_fail levels).2 (.level .logicalOr)

/-! Statements. Each is completed with names for expressions and with empty blocks. -/

theorem typeKeyword_steps : typeKeyword.Steps fun found => keyword found.1.name := by
  refine ⟨fun c found c' h => ?_, fun c failure c' h => ?_⟩
  · obtain ⟨token, hm, ht, -⟩ := typeKeyword_ok h
    exact ⟨token, hm, ht⟩
  · rcases Parse.error_bind.1 h with herr | ⟨token, c₁, hrun, herr⟩
    · obtain ⟨rfl, ha, rfl⟩ := Parse.peek_error herr
      exact ⟨rfl, c'.endOfInput_reports ha _⟩
    · obtain ⟨rfl, rest, ha⟩ := Parse.peek_ok hrun
      cases ht : token.dataType? with
      | none =>
        simp only [ht] at herr
        cases herr
        exact ⟨rfl, c'.unexpected_reports _⟩
      | some type =>
        simp only [ht] at herr
        rcases Parse.error_bind.1 herr with hadv | ⟨_, _, _, hpure⟩
        · cases (Parse.advance_error hadv).2.symm.trans ha
        · cases hpure

/-- What may stand between the name and the semicolon of a declaration. -/
def InitText (text : List Terminal) : Prop :=
  text = [] ∨ ∃ value, text = operator "=" :: value ∧ Derivable AnyExpression value

theorem initialValue_parses (levels : Nat) :
    (initialValue (expression levels)).Parses InitText := by
  refine ⟨fun c init c' h => ?_, fun c => .get ?_⟩
  · obtain ⟨rfl, rfl⟩ | ⟨token, used, e, demand, -, hm, ht, he, -⟩ := initialValue_ok h
    · exact ⟨[], .refl c', .inl rfl⟩
    · refine ⟨_, hm, .inr ⟨used.map Token.terminal, ?_, e.relabel .unplaced, demand, he⟩⟩
      simp [ht]
  · by_cases hat : c.atOperator "=" = true
    · rw [if_pos hat]
      cases ha : c.ahead with
      | nil => simp [Cursor.atOperator, ha] at hat
      | cons token rest =>
        refine .advance ha fun c₁ => ?_
        rw [(Cursor.atOperator_iff ha).1 hat]
        exact ((expression_parses levels).error c₁).map.mono fun text h => .inr ⟨text, rfl, h⟩
    · rw [if_neg hat]
      exact .pure

theorem declaration_derivable {text : List Terminal} (type : DataType) (name : String)
    (h : InitText text) :
    Derivable Declaration
      (keyword type.name :: (.identifier, name) :: (text ++ [operator ";"])) := by
  rcases h with rfl | ⟨value, rfl, tree, demand, h⟩
  · exact ⟨_, _, .plain type name⟩
  · exact ⟨_, _, .init type name h⟩

theorem varDecl_parses (levels : Nat) :
    (varDecl (expression levels)).Parses (Derivable Declaration) := by
  refine parses_of_reads _ (varDecl_reads levels) fun c => ?_
  refine .step typeKeyword_steps ⟨_, declaration_derivable .int "x" (.inl rfl)⟩
    fun ⟨type, start⟩ c₁ => ?_
  refine .step (Parse.expectKind_steps _ _) ⟨_, declaration_derivable type "x" (.inl rfl)⟩
    fun name c₂ => ?_
  refine .bind (initialValue_parses levels)
    (fun text h => ⟨_, declaration_derivable type name.lexeme h⟩) fun init c₃ text h => ?_
  exact .step (Parse.expectOperator_steps ";") ⟨_, declaration_derivable type name.lexeme h⟩
    fun _ _ => .finish

theorem update_derivable {text : List Terminal} (name : String)
    (h : Derivable AnyExpression text) :
    Derivable Update ((.identifier, name) :: operator "=" :: text) := by
  obtain ⟨tree, demand, h⟩ := h
  exact ⟨_, _, .mk name h⟩

theorem exists_update : ∃ text, Derivable Update text :=
  ⟨_, update_derivable "x" (name_derivable "x" _)⟩

/-- The part that both forms of an assignment share, after which `f` goes on. -/
theorem assignment_fails {β : Type} {L : List Terminal → Prop} {f : Token → Expr → Parse β}
    (hL : ∀ text, Derivable Update text → ∃ more, L (text ++ more))
    (hf : ∀ name e c' text, Derivable Update text →
      (f name e).FailsIn c' fun more => L (text ++ more)) :
    Parse.FailsIn
      (do
        let name ← Parse.expectKind .identifier "an identifier"
        let _ ← Parse.expectOperator "="
        let e ← expression levels
        f name e)
      c L := by
  have hname : ∀ name text, Derivable AnyExpression text →
      ∃ more, L ((.identifier, name) :: operator "=" :: (text ++ more)) := by
    intro name text h
    obtain ⟨more, hm⟩ := hL _ (update_derivable name h)
    exact ⟨more, hm⟩
  obtain ⟨text, ht⟩ := exists_expression (.level .logicalOr)
  obtain ⟨more, hm⟩ := hname "x" text ht
  refine .step (Parse.expectKind_steps _ _) ⟨_, hm⟩ fun name c₁ => ?_
  obtain ⟨more, hm⟩ := hname name.lexeme text ht
  refine .step (Parse.expectOperator_steps "=") ⟨_, hm⟩ fun _ c₂ => ?_
  refine .bind (expression_parses levels) (hname name.lexeme) fun e c₃ text h => ?_
  exact hf name e c₃ _ (update_derivable name.lexeme h)

theorem update_parses (levels : Nat) :
    (assignment (expression levels) false).Parses (Derivable Update) := by
  refine parses_of_reads _ (update_reads levels) fun c => ?_
  refine assignment_fails (fun text h => ⟨[], by simpa using h⟩) fun name e c' text h => ?_
  simp only [Bool.false_eq_true, if_false]
  exact .finish

theorem simple_derivable {text : List Terminal} (h : Derivable Update text) :
    Derivable Simple (text ++ [operator ";"]) := by
  obtain ⟨a, demand, h⟩ := h
  exact ⟨_, _, .assignment h⟩

theorem exists_simple : ∃ text, Derivable Simple text := by
  obtain ⟨text, ht⟩ := exists_update
  exact ⟨_, simple_derivable ht⟩

theorem assignment_parses (levels : Nat) :
    (assignment (expression levels) true).Parses (Derivable Simple) := by
  refine parses_of_reads (fun a => .assign (a.relabel .unplaced)) (assignment_reads levels)
    fun c => ?_
  refine assignment_fails (fun text h => ⟨_, simple_derivable h⟩) fun name e c' text h => ?_
  simp only [if_true]
  exact .step (Parse.expectOperator_steps ";") ⟨_, simple_derivable h⟩ fun _ _ => .finish

theorem forInit_parses (levels : Nat) :
    (forInit (expression levels)).Parses (Derivable Simple) := by
  refine parses_of_reads _ (forInit_reads levels) fun c => ?_
  refine .peek exists_simple fun token rest ha => ?_
  split
  · refine ((varDecl_parses levels).error c).map.mono ?_
    rintro text ⟨d, demand, h⟩
    exact ⟨_, _, .declaration h⟩
  · split
    · exact ((assignment_parses levels).error c).map
    · exact .unexpected exists_simple

/-- A condition in its parentheses. -/
def ConditionText (text : List Terminal) : Prop :=
  ∃ inner, text = operator "(" :: (inner ++ [operator ")"]) ∧ Derivable AnyExpression inner

theorem exists_condition : ∃ text, ConditionText text :=
  ⟨_, _, rfl, name_derivable "x" _⟩

theorem parenthesised_parses (levels : Nat) :
    (parenthesised (expression levels)).Parses ConditionText := by
  refine ⟨fun c e c' h => ?_, fun c => ?_⟩
  · obtain ⟨used, text, demand, hm, ht, he, -⟩ := parenthesised_ok h
    exact ⟨used, hm, text, ht, e.relabel .unplaced, demand, he⟩
  · refine .step (Parse.expectOperator_steps "(") exists_condition fun _ c₁ => ?_
    refine .bind (expression_parses levels) (fun text h => ⟨[operator ")"], text, rfl, h⟩)
      fun _ c₂ text h => ?_
    exact .step (Parse.expectOperator_steps ")") ⟨[operator ")"], text, rfl, h⟩ fun _ _ => .pure

theorem exists_block : ∃ text, Derivable Block text :=
  ⟨_, _, _, Program.nil.block⟩

section

variable {block : Parse MiniC.Block}
  (hb : block.Parses (Derivable Block))
include hb

/-- A keyword, a condition and a block, after which `f` goes on. -/
theorem guarded_fails {β : Type} {word : String} {L : List Terminal → Prop}
    {f : Token → Expr → MiniC.Block → Parse β}
    (hL : ∀ test body, ConditionText test → Derivable Block body →
      ∃ more, L (keyword word :: (test ++ (body ++ more))))
    (hf : ∀ token e b c' test body, ConditionText test → Derivable Block body →
      (f token e b).FailsIn c' fun more => L (keyword word :: (test ++ (body ++ more)))) :
    Parse.FailsIn
      (do
        let token ← Parse.expectKeyword word
        let e ← parenthesised (expression levels)
        let b ← block
        f token e b)
      c L := by
  obtain ⟨test, ht⟩ := exists_condition
  obtain ⟨body, hbody⟩ := exists_block
  obtain ⟨more, hm⟩ := hL test body ht hbody
  refine .step (Parse.expectKeyword_steps word) ⟨_, hm⟩ fun token c₁ => ?_
  refine .bind (parenthesised_parses levels) (fun test ht => ?_) fun e c₂ test ht => ?_
  · obtain ⟨more, hm⟩ := hL test body ht hbody
    exact ⟨_, hm⟩
  · exact .bind hb (fun body hbody => hL test body ht hbody)
      fun b c₃ body hbody => hf token e b c₃ test body ht hbody

theorem ifElse_fails (c : Cursor) :
    (Grammar.ifElse (expression levels) block).FailsIn c (Derivable Statement) := by
  have hthen : ∀ test body, ConditionText test → Derivable Block body →
      Derivable Statement (keyword "if" :: (test ++ (body ++ []))) := by
    rintro test body ⟨inner, rfl, e, demand, he⟩ ⟨b, demand', hb⟩
    exact ⟨_, _, by simpa using Statement.ifThen he hb⟩
  have helse : ∀ test body other, ConditionText test → Derivable Block body →
      Derivable Block other →
      Derivable Statement (keyword "if" :: (test ++ (body ++ keyword "else" :: other))) := by
    rintro test body other ⟨inner, rfl, e, demand, he⟩ ⟨b, demand', hb⟩ ⟨b', demand'', hb'⟩
    exact ⟨_, _, by simpa using Statement.ifElse he hb hb'⟩
  refine guarded_fails hb (fun test body ht hbody => ⟨[], hthen test body ht hbody⟩)
    fun token e b c₁ test body ht hbody => ?_
  -- the second branch is only begun where its keyword is ahead
  have helseBody : (elseBody block).Parses fun text => text = [] ∨
      ∃ other, text = keyword "else" :: other ∧ Derivable Block other := by
    refine ⟨fun c o c' h => ?_, fun c => .get ?_⟩
    · simp only [elseBody, Parse.get_bind_run] at h
      split at h
      · next hat =>
        simp only [Parse.bind_ok, Parse.pure_ok] at h
        obtain ⟨els, c₁, hadv, b, c₂, hrun, -, rfl⟩ := h
        have hm := Parse.advance_ok hadv
        obtain ⟨used, hm', hused⟩ := hb.ok hrun
        refine ⟨_, hm.trans hm', .inr ⟨_, ?_, hused⟩⟩
        simp [(Cursor.atKeyword_iff hm.ahead).1 hat]
      · cases h
        exact ⟨[], .refl _, .inl rfl⟩
    · by_cases hat : c.atKeyword "else" = true
      · obtain ⟨els, rest, ha, hels⟩ := Cursor.exists_of_atKeyword hat
        rw [if_pos hat]
        refine .advance ha fun c₁ => ?_
        rw [hels]
        exact (hb.error c₁).map.mono fun text h => .inr ⟨text, rfl, h⟩
      · rw [if_neg hat]
        exact .pure
  refine .bind helseBody (fun text h => ⟨[], ?_⟩) fun _ _ _ _ => .finish
  rw [List.append_nil]
  rcases h with rfl | ⟨other, rfl, hother⟩
  · exact hthen test body ht hbody
  · exact helse test body other ht hbody hother

theorem whileLoop_fails (c : Cursor) :
    (Grammar.whileLoop (expression levels) block).FailsIn c (Derivable Statement) := by
  refine guarded_fails hb (fun test body ht hbody => ⟨[], ?_⟩) fun _ _ _ _ _ _ _ _ => .finish
  obtain ⟨inner, rfl, e, demand, he⟩ := ht
  obtain ⟨b, demand', hb⟩ := hbody
  exact ⟨_, _, by simpa using Statement.whileLoop he hb⟩

theorem forLoop_fails (c : Cursor) :
    (Grammar.forLoop (expression levels) block).FailsIn c (Derivable Statement) := by
  have hfor : ∀ init test update body, Derivable Simple init → Derivable AnyExpression test →
      Derivable Update update → Derivable Block body →
      Derivable Statement (keyword "for" :: operator "(" :: (init ++ (test ++
        operator ";" :: (update ++ operator ")" :: (body ++ []))))) := by
    rintro init test update body ⟨s, d₁, hs⟩ ⟨e, d₂, he⟩ ⟨a, d₃, ha⟩ ⟨b, d₄, hb⟩
    exact ⟨_, _, by simpa using Statement.forLoop hs he ha hb⟩
  obtain ⟨init₀, hinit₀⟩ := exists_simple
  obtain ⟨test₀, htest₀⟩ := exists_expression (.level .logicalOr)
  obtain ⟨update₀, hupdate₀⟩ := exists_update
  obtain ⟨body₀, hbody₀⟩ := exists_block
  refine .step (Parse.expectKeyword_steps "for")
    ⟨_, hfor _ _ _ _ hinit₀ htest₀ hupdate₀ hbody₀⟩ fun _ c₁ => ?_
  refine .step (Parse.expectOperator_steps "(")
    ⟨_, hfor _ _ _ _ hinit₀ htest₀ hupdate₀ hbody₀⟩ fun _ c₂ => ?_
  refine .bind (forInit_parses levels)
    (fun init h => ⟨_, hfor init _ _ _ h htest₀ hupdate₀ hbody₀⟩) fun _ c₃ init hinit => ?_
  refine .bind (expression_parses levels)
    (fun test h => ⟨_, hfor init test _ _ hinit h hupdate₀ hbody₀⟩) fun _ c₄ test htest => ?_
  refine .step (Parse.expectOperator_steps ";")
    ⟨_, hfor init test _ _ hinit htest hupdate₀ hbody₀⟩ fun _ c₅ => ?_
  refine .bind (update_parses levels)
    (fun update h => ⟨_, hfor init test update _ hinit htest h hbody₀⟩)
    fun _ c₆ update hupdate => ?_
  refine .step (Parse.expectOperator_steps ")")
    ⟨_, hfor init test update _ hinit htest hupdate hbody₀⟩ fun _ c₇ => ?_
  exact .bind hb (fun body h => ⟨[], hfor init test update body hinit htest hupdate h⟩)
    fun _ _ _ _ => .finish

end

theorem ret_fails (levels : Nat) (c : Cursor) :
    (Grammar.ret (expression levels)).FailsIn c (Derivable Statement) := by
  have hvalue : ∀ text, Derivable AnyExpression text →
      Derivable Statement (keyword "return" :: (text ++ [operator ";"])) := by
    rintro text ⟨e, demand, he⟩
    exact ⟨_, _, .ret he⟩
  have hvoid : Derivable Statement (keyword "return" :: ([] ++ [operator ";"])) :=
    ⟨_, _, .retVoid⟩
  refine .step (Parse.expectKeyword_steps "return") ⟨_, hvoid⟩ fun _ c₁ => ?_
  have hreturn : (returnValue (expression levels)).Parses fun text =>
      text = [] ∨ Derivable AnyExpression text := by
    refine ⟨fun c v c' h => ?_, fun c => .get ?_⟩
    · simp only [returnValue, Parse.get_bind_run] at h
      split at h
      · cases h
        exact ⟨[], .refl _, .inl rfl⟩
      · simp only [Parse.bind_ok, Parse.pure_ok] at h
        obtain ⟨e, c₁, hx, -, rfl⟩ := h
        obtain ⟨used, hm, ht⟩ := (expression_parses levels).ok hx
        exact ⟨used, hm, .inr ht⟩
    · split
      · exact .pure
      · exact ((expression_parses levels).error c).map.mono fun text h => .inr h
  have hwhole : ∀ text, text = [] ∨ Derivable AnyExpression text →
      Derivable Statement (keyword "return" :: (text ++ [operator ";"])) := by
    rintro text (rfl | h)
    · exact hvoid
    · exact hvalue text h
  refine .bind hreturn (fun text h => ⟨_, hwhole text h⟩) fun _ c₂ text h => ?_
  exact .step (Parse.expectOperator_steps ";") ⟨_, hwhole text h⟩ fun _ _ => .finish

theorem exists_statement : ∃ text, Derivable Statement text := by
  obtain ⟨text, b, demand, h⟩ := exists_block
  exact ⟨text, _, _, .block h⟩

theorem handle_fails {block : Parse MiniC.Block} (hb : block.Parses (Derivable Block))
    (handler : Handler) (c : Cursor) :
    (handle (expression levels) block handler).FailsIn c (Derivable Statement) := by
  cases handler with
  | varDecl =>
    refine ((varDecl_parses levels).error c).map.mono ?_
    rintro text ⟨d, demand, h⟩
    exact ⟨_, _, .simple (.declaration h)⟩
  | ifElse => exact ifElse_fails hb c
  | whileLoop => exact whileLoop_fails hb c
  | forLoop => exact forLoop_fails hb c
  | ret => exact (ret_fails levels c).map
  | block =>
    refine (hb.error c).map.mono ?_
    rintro text ⟨b, demand, h⟩
    exact ⟨_, _, .block h⟩

theorem statementWith_fails {block : Parse MiniC.Block} (hb : block.Parses (Derivable Block))
    (table : Table) (c : Cursor) :
    (statementWith table (expression levels) block).FailsIn c (Derivable Statement) := by
  refine .peek exists_statement fun token rest ha => ?_
  cases table.handler? token with
  | some handler => exact handle_fails hb handler c
  | none =>
    by_cases hk : token.kind = .identifier
    · simp only [hk, if_true]
      refine ((assignment_parses levels).error c).map.mono ?_
      rintro text ⟨s, demand, h⟩
      exact ⟨_, _, .simple h⟩
    · simp only [hk, if_false]
      refine .here ?_ exists_statement
      rw [ha]
      exact .unexpected

theorem program_cons_derivable {text more : List Terminal} (h : Derivable Statement text)
    (hm : Derivable Program more) : Derivable Program (text ++ more) := by
  obtain ⟨stmt, demand, h⟩ := h
  obtain ⟨body, demand', hm⟩ := hm
  exact ⟨_, _, hm.cons h⟩

/-- The loop of a block fails in one of its statements, or where the tokens end before its
brace. -/
theorem untilBrace_fails {statement : Parse Stmt}
    (hs : statement.Parses (Derivable Statement)) (fuel : Nat) :
    ∀ c : Cursor, c.ahead.length ≤ fuel →
      (untilBrace statement fuel).FailsIn c (Derivable Program) := by
  have hnil : Derivable Program [] := ⟨_, _, .nil⟩
  induction fuel with
  | zero =>
    intro c hf
    have ha : c.ahead = [] := List.length_eq_zero_iff.1 (Nat.le_zero.1 hf)
    refine .get ?_
    split
    · exact .pure
    · exact .here (c.endOfInput_reports ha _) ⟨[], hnil⟩
  | succ fuel ih =>
    intro c hf
    refine .get ?_
    split
    · exact .pure
    · intro failure c' h
      rcases Parse.error_bind.1 h with herr | ⟨stmt, c₁, hrun, herr⟩
      · refine (hs.error c).mono (fun text h => ?_) herr
        rw [← List.append_nil text]
        exact program_cons_derivable h hnil
      · obtain ⟨used, hm, ht⟩ := hs.ok hrun
        -- the statement has taken a token, so the fuel lasts for those after it
        have hlen : c₁.ahead.length ≤ fuel := by
          obtain ⟨tree, demand, hd⟩ := ht
          obtain ⟨first, others, htext, -⟩ := hd.head
          obtain ⟨token, used, rfl, -⟩ := List.map_eq_cons_iff.1 htext
          rw [hm.ahead] at hf
          simp only [List.cons_append, List.length_cons, List.length_append] at hf
          omega
        refine Parse.FailsIn.prepend hm rfl ?_ herr
        exact (ih c₁ hlen).map.mono fun more hmore => program_cons_derivable ht hmore

theorem block_derivable {text : List Terminal} (h : Derivable Program text) :
    Derivable Block (operator "\x7b" :: (text ++ [operator "\x7d"])) := by
  obtain ⟨body, demand, h⟩ := h
  exact ⟨_, _, h.block⟩

theorem block_parses (table : Table) (levels : Nat) :
    (Grammar.block table levels).Parses (Derivable Block) := by
  induction levels with
  | zero => exact parses_of_reads _ (block_reads table 0) fun c => .tooDeep exists_block
  | succ levels ih =>
    refine parses_of_reads _ (block_reads table (levels + 1)) fun c => .nested ?_
    have hnil : Derivable Program [] := ⟨_, _, .nil⟩
    have hs : (statementWith table (expression levels) (Grammar.block table levels)).Parses
        (Derivable Statement) :=
      parses_of_reads _ (statementWith_reads (block_reads table levels) table)
        (statementWith_fails ih table)
    refine .step (Parse.expectOperator_steps "\x7b") ⟨_, block_derivable hnil⟩ fun brace c₁ => ?_
    refine .takeId fun id c₂ _ => .get ?_
    have hr : ∀ body c',
        untilBrace (statementWith table (expression levels) (Grammar.block table levels))
          c₂.ahead.length c₂ = .ok body c' →
        ∃ used, c₂.Moved used c' ∧ Derivable Program (used.map Token.terminal) := by
      intro body c' h
      obtain ⟨used, demand, hm, hd, -⟩ :=
        untilBrace_reads (statementWith_reads (block_reads table levels) table) _ h
      exact ⟨used, hm, _, demand, hd⟩
    refine .bindFrom (untilBrace_fails hs _ c₂ (Nat.le_refl _)) hr
      (fun text h => ⟨_, block_derivable h⟩) fun body c₃ text h => ?_
    exact .step (Parse.expectOperator_steps "\x7d") ⟨_, block_derivable h⟩ fun _ _ => .finish

theorem statement_parses (table : Table) (levels : Nat) :
    (statement table levels).Parses (Derivable Statement) :=
  parses_of_reads _ (statement_reads table levels)
    (statementWith_fails (block_parses table levels) table)

end Language

end MiniC
