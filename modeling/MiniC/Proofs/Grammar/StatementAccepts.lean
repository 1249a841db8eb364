import MiniC.Proofs.Grammar.StatementReads

/-!
Completeness of the rules for statements: with the table of the language, what is derived in the
grammar is parsed, or runs into the limit on nesting if its demand exceeds the levels left.
-/

namespace MiniC

open MiniC.Language Grammar

namespace Language

section

variable {c : Cursor} {token : Token} {used rest : List Token} {levels : Nat}
  {text : List Terminal} {demand : Nat}

/-- Any tokens may follow. -/
abbrev Anything : List Token → Prop := fun _ => True

/-- No `else` follows. -/
def NoElse (rest : List Token) : Prop :=
  ∀ token ∈ rest.head?, token.terminal ≠ keyword "else"

/-- An expression before closing punctuation, wherever it stands. -/
theorem expression_takes {value : Expr} {lexeme : String} (h : AnyExpression text value demand)
    (hl : lexeme = ")" ∨ lexeme = ";") (ht : token.terminal = operator lexeme)
    (ha : c.ahead = used ++ token :: rest) (hu : used.map Token.terminal = text) :
    (expression levels).Takes c used (demand ≤ levels) (·.relabel .unplaced = value) :=
  h.accepts ha hu (stops_closing hl ht)

theorem typeKeyword_cons {type : DataType} (ha : c.ahead = token :: rest)
    (ht : token.terminal = keyword type.name) :
    ∃ c', typeKeyword c = .ok (type, token.span.start) c' ∧ c.Moved [token] c' := by
  obtain ⟨c', hadv, hm⟩ := Parse.advance_cons ha
  refine ⟨c', ?_, hm⟩
  rw [typeKeyword, Parse.bind_run, Parse.peek_cons ha]
  simp only [Token.dataType?_eq_some_iff.2 ht]
  rw [Parse.bind_run, hadv]
  rfl

theorem initialValue_semicolon (ha : c.ahead = token :: rest)
    (ht : token.terminal = operator ";") :
    ∃ c', initialValue (expression levels) c = .ok none c' ∧ c.Moved [] c' := by
  have hat : ¬c.atOperator "=" = true := by
    rw [Cursor.atOperator_iff ha, ht]
    simp
  refine ⟨c, ?_, .refl c⟩
  rw [initialValue, Parse.get_bind_run, if_neg hat]
  rfl

theorem initialValue_takes {eq : Token} {value : Expr} (h : AnyExpression text value demand)
    (ha : c.ahead = eq :: used ++ token :: rest) (heq : eq.terminal = operator "=")
    (hu : used.map Token.terminal = text) (ht : token.terminal = operator ";") :
    (initialValue (expression levels)).Takes c (eq :: used) (demand ≤ levels)
      (·.map (Expr.relabel .unplaced) = some value) := by
  refine .get ?_
  rw [if_pos ((Cursor.atOperator_iff ha).2 heq)]
  refine .after (Parse.advance_cons ha) fun c₁ hm => ?_
  refine .map (expression_takes h (.inr rfl) ht (hm.rest_eq ha) hu) fun e he => ?_
  rw [Option.map_some, he]

theorem Declaration.accepts {d : VarDecl} (h : Declaration text d demand) :
    Parse.Accepts (fun levels => varDecl (expression levels)) (VarDecl.relabel .unplaced) Anything
      text d demand := by
  intro levels c used rest ha ht _
  cases h with
  | plain type name =>
    obtain ⟨kw, used, rfl, hkw, ht⟩ := List.map_eq_cons_iff.1 ht
    obtain ⟨id, used, rfl, hid, ht⟩ := List.map_eq_cons_iff.1 ht
    obtain ⟨semi, rfl, hsemi⟩ := List.map_eq_singleton_iff.1 ht
    obtain ⟨hk, rfl⟩ := Prod.mk.inj hid
    refine Parse.Takes.congr ?_ (iff_of_true trivial (Nat.zero_le levels))
    refine .after (typeKeyword_cons ha hkw) fun c₁ hm₁ => ?_
    have ha₁ := hm₁.rest_eq ha
    refine .after (Parse.expectKind_cons ha₁ hk) fun c₂ hm₂ => ?_
    have ha₂ := hm₂.rest_eq ha₁
    refine .after (initialValue_semicolon ha₂ hsemi) fun c₃ hm₃ => ?_
    have ha₃ := hm₃.rest_eq ha₂
    exact .after (Parse.expectOperator_cons ha₃ hsemi) fun c₄ _ => .get (.pure rfl)
  | @init _ value demand type name h =>
    obtain ⟨kw, used, rfl, hkw, ht⟩ := List.map_eq_cons_iff.1 ht
    obtain ⟨id, used, rfl, hid, ht⟩ := List.map_eq_cons_iff.1 ht
    obtain ⟨eq, used, rfl, heq, ht⟩ := List.map_eq_cons_iff.1 ht
    obtain ⟨inner, last, rfl, hi, hl⟩ := List.map_eq_append_iff.1 ht
    obtain ⟨semi, rfl, hsemi⟩ := List.map_eq_singleton_iff.1 hl
    obtain ⟨hk, rfl⟩ := Prod.mk.inj hid
    refine Parse.Takes.congr ?_ (and_true (demand ≤ levels)).to_iff
    refine .after (typeKeyword_cons ha hkw) fun c₁ hm₁ => ?_
    have ha₁ := hm₁.rest_eq ha
    refine .after (Parse.expectKind_cons ha₁ hk) fun c₂ hm₂ => ?_
    have ha₂ : c₂.ahead = eq :: inner ++ semi :: rest := hm₂.rest_eq (by simpa using ha₁)
    refine .bind (initialValue_takes h ha₂ heq hi hsemi) fun init c₃ hm₃ hinit => ?_
    have ha₃ := hm₃.rest_eq ha₂
    refine .after (Parse.expectOperator_cons ha₃ hsemi) fun c₄ _ => .get (.pure ?_)
    rw [VarDecl.relabel, hinit]
    rfl

theorem Update.accepts {a : Assignment} (h : Update text a demand) :
    Parse.Accepts (fun levels => assignment (expression levels) false)
      (Assignment.relabel .unplaced) (Layer.level .logicalOr).Stops text a demand := by
  intro levels c used rest ha ht hs
  obtain ⟨name, h⟩ := h
  obtain ⟨id, used, rfl, hid, ht⟩ := List.map_eq_cons_iff.1 ht
  obtain ⟨eq, used, rfl, heq, hu⟩ := List.map_eq_cons_iff.1 ht
  obtain ⟨hk, rfl⟩ := Prod.mk.inj hid
  simp only [assignment, Bool.false_eq_true, if_false]
  refine .after (Parse.expectKind_cons ha hk) fun c₁ hm₁ => ?_
  have ha₁ := hm₁.rest_eq ha
  refine .after (Parse.expectOperator_cons ha₁ heq) fun c₂ hm₂ => ?_
  refine .finish (h.accepts (hm₂.rest_eq ha₁) hu hs) fun e _ he => ?_
  rw [Assignment.relabel, he]
  rfl

theorem Update.accepts_terminated {a : Assignment} (h : Update text a demand) :
    Parse.Accepts (fun levels => assignment (expression levels) true)
      (Assignment.relabel .unplaced) Anything (text ++ [operator ";"]) a demand := by
  intro levels c used rest ha ht _
  obtain ⟨name, h⟩ := h
  obtain ⟨id, used, rfl, hid, ht⟩ := List.map_eq_cons_iff.1 ht
  obtain ⟨eq, used, rfl, heq, ht⟩ := List.map_eq_cons_iff.1 ht
  obtain ⟨inner, last, rfl, hi, hl⟩ := List.map_eq_append_iff.1 ht
  obtain ⟨semi, rfl, hsemi⟩ := List.map_eq_singleton_iff.1 hl
  obtain ⟨hk, rfl⟩ := Prod.mk.inj hid
  simp only [assignment, if_true]
  refine Parse.Takes.congr ?_ (and_true (demand ≤ levels)).to_iff
  refine .after (Parse.expectKind_cons ha hk) fun c₁ hm₁ => ?_
  have ha₁ := hm₁.rest_eq ha
  refine .after (Parse.expectOperator_cons ha₁ heq) fun c₂ hm₂ => ?_
  have ha₂ : c₂.ahead = inner ++ semi :: rest := hm₂.rest_eq (by simpa using ha₁)
  refine .bind (expression_takes h (.inr rfl) hsemi ha₂ hi) fun e c₃ hm₃ he => ?_
  have ha₃ := hm₃.rest_eq ha₂
  refine .after (Parse.expectOperator_cons ha₃ hsemi) fun c₄ _ => .get (.pure ?_)
  rw [Assignment.relabel, he]
  rfl

/-- The terminal that a declaration starts with. -/
theorem Declaration.head {d : VarDecl} (h : Declaration text d demand) :
    ∃ type : DataType, ∃ others, text = keyword type.name :: others := by
  cases h with
  | plain type name => exact ⟨type, _, rfl⟩
  | init type name _ => exact ⟨type, _, rfl⟩

/-- The terminal that an assignment starts with. -/
theorem Update.head {a : Assignment} (h : Update text a demand) :
    ∃ name others, text = (.identifier, name) :: others := by
  obtain ⟨name, h⟩ := h
  exact ⟨name, _, rfl⟩

theorem Simple.accepts {stmt : Stmt} (h : Simple text stmt demand) :
    Parse.Accepts (fun levels => forInit (expression levels)) (Stmt.relabel .unplaced) Anything
      text stmt demand := by
  intro levels c used rest ha ht _
  cases h with
  | declaration h =>
    obtain ⟨type, others, rfl⟩ := h.head
    obtain ⟨kw, used, rfl, hkw, -⟩ := List.map_eq_cons_iff.1 ht
    refine .peek ha ?_
    rw [if_pos (by rw [Token.isTypeKeyword, Token.dataType?_eq_some_iff.2 hkw]; rfl)]
    refine .map (h.accepts ha ht trivial) fun d hd => ?_
    rw [Stmt.relabel, hd]
  | assignment h =>
    obtain ⟨name, others, rfl⟩ := h.head
    obtain ⟨id, used, rfl, hid, -⟩ := List.map_eq_cons_iff.1 ht
    have hk : id.kind = .identifier := (Prod.mk.inj hid).1
    refine .peek ha ?_
    rw [if_neg (by simp [Token.isTypeKeyword, Token.dataType?, hk]), if_pos hk]
    refine .map (h.accepts_terminated ha ht trivial) fun a ha => ?_
    rw [Stmt.relabel, ha]

theorem parenthesised_takes {value : Expr} {opening closing : Token}
    (h : AnyExpression text value demand) (ho : opening.terminal = operator "(")
    (hu : used.map Token.terminal = text) (hc : closing.terminal = operator ")")
    (ha : c.ahead = opening :: used ++ closing :: rest) :
    (parenthesised (expression levels)).Takes c (opening :: (used ++ [closing])) (demand ≤ levels)
      (·.relabel .unplaced = value) := by
  refine Parse.Takes.congr ?_ (and_true (demand ≤ levels)).to_iff
  refine .after (Parse.expectOperator_cons ha ho) fun c₁ hm₁ => ?_
  have ha₁ := hm₁.rest_eq ha
  refine .bind (expression_takes h (.inl rfl) hc ha₁ hu) fun e c₂ hm₂ he => ?_
  exact .after (Parse.expectOperator_cons (hm₂.rest_eq ha₁) hc) fun _ _ => .pure he

/-- The rule for blocks accepts these terminals. -/
abbrev BlockAccepts : List Terminal → MiniC.Block → Nat → Prop :=
  Parse.Accepts (Grammar.block .standard) (MiniC.Block.relabel .unplaced) Anything

theorem elseBody_of_noElse {block : Parse MiniC.Block} (h : NoElse c.ahead) :
    ∃ c', elseBody block c = .ok none c' ∧ c.Moved [] c' := by
  have hat : ¬c.atKeyword "else" = true := by
    intro hat
    obtain ⟨token, rest, ha, ht⟩ := Cursor.exists_of_atKeyword hat
    exact h token (by simp [ha]) ht
  refine ⟨c, ?_, .refl c⟩
  rw [elseBody, Parse.get_bind_run, if_neg hat]
  rfl

theorem elseBody_takes {b : MiniC.Block} (hb : BlockAccepts text b demand)
    (ha : c.ahead = token :: used ++ rest) (ht : token.terminal = keyword "else")
    (hu : used.map Token.terminal = text) :
    (elseBody (Grammar.block .standard levels)).Takes c (token :: used) (demand ≤ levels)
      (relabelElse .unplaced · = some b) := by
  refine .get ?_
  rw [if_pos ((Cursor.atKeyword_iff ha).2 ht)]
  refine .after (Parse.advance_cons ha) fun c₁ hm => ?_
  refine .map (hb (hm.rest_eq ha) hu trivial) fun b' hb' => ?_
  rw [relabelElse, hb']

section

variable {test : Expr} {bodyText : List Terminal} {body : MiniC.Block} {bodyDemand : Nat}

/-- The part that `if` and `while` share: a keyword, a condition and a block, after which `f` goes
on. -/
theorem guarded_takes {β : Type} {word : String} {f : Token → Expr → MiniC.Block → Parse β}
    {used' : List Token} {fits : Prop} {good : β → Prop} (h : AnyExpression text test demand)
    (hb : BlockAccepts bodyText body bodyDemand) (ha : c.ahead = used ++ (used' ++ rest))
    (ht : used.map Token.terminal =
      keyword word :: operator "(" :: text ++ operator ")" :: bodyText)
    (hf : ∀ token e b c', c'.ahead = used' ++ rest → e.relabel .unplaced = test →
      b.relabel .unplaced = body → (f token e b).Takes c' used' fits good) :
    Parse.Takes
      (do
        let token ← Parse.expectKeyword word
        let e ← parenthesised (expression levels)
        let b ← Grammar.block .standard levels
        f token e b)
      c (used ++ used') (demand ≤ levels ∧ bodyDemand ≤ levels ∧ fits) good := by
  obtain ⟨kw, used, rfl, hkw, ht⟩ := List.map_eq_cons_iff.1 ht
  obtain ⟨opening, used, rfl, ho, ht⟩ := List.map_eq_cons_iff.1 ht
  obtain ⟨inner, used, rfl, hi, ht⟩ := List.map_eq_append_iff.1 ht
  obtain ⟨closing, used, rfl, hc, hu⟩ := List.map_eq_cons_iff.1 ht
  have hsplit : kw :: opening :: (inner ++ closing :: used) ++ used' =
      [kw] ++ ((opening :: (inner ++ [closing])) ++ (used ++ used')) := by simp
  rw [hsplit]
  refine .after (Parse.expectKeyword_cons ha hkw) fun c₁ hm₁ => ?_
  have ha₁ : c₁.ahead = opening :: inner ++ closing :: (used ++ (used' ++ rest)) :=
    hm₁.rest_eq (by simpa using ha)
  refine .bind (parenthesised_takes h ho hi hc ha₁) fun e c₂ hm₂ he => ?_
  have ha₂ : c₂.ahead = used ++ (used' ++ rest) := hm₂.rest_eq (by simpa using ha₁)
  refine .bind (hb ha₂ hu trivial) fun b c₃ hm₃ hb' => ?_
  exact hf kw e b c₃ (hm₃.rest_eq ha₂) he hb'

theorem ifThen_accepts (h : AnyExpression text test demand)
    (hb : BlockAccepts bodyText body bodyDemand) :
    Parse.Accepts
      (fun levels => Grammar.ifElse (expression levels) (Grammar.block .standard levels))
      (Stmt.relabel .unplaced) NoElse
      (keyword "if" :: operator "(" :: text ++ operator ")" :: bodyText)
      (.ifElse test body none .null) (max demand bodyDemand) := by
  intro levels c used rest ha ht hs
  have hfits : demand ≤ levels ∧ bodyDemand ≤ levels ∧ True ↔ max demand bodyDemand ≤ levels := by
    rw [and_true, Nat.max_le]
  rw [← List.append_nil used]
  refine Parse.Takes.congr (guarded_takes h hb ha ht fun token e b c' ha' he hb' => ?_) hfits
  refine .after (elseBody_of_noElse (ha' ▸ hs)) fun c₁ _ => .get (.pure ?_)
  rw [Stmt.relabel, he, hb']
  rfl

theorem ifElse_accepts {elseText : List Terminal} {elseBlock : MiniC.Block} {elseDemand : Nat}
    (h : AnyExpression text test demand) (hb : BlockAccepts bodyText body bodyDemand)
    (he : BlockAccepts elseText elseBlock elseDemand) :
    Parse.Accepts
      (fun levels => Grammar.ifElse (expression levels) (Grammar.block .standard levels))
      (Stmt.relabel .unplaced) Anything
      (keyword "if" :: operator "(" :: text ++ operator ")" :: bodyText ++
        keyword "else" :: elseText)
      (.ifElse test body (some elseBlock) .null) (max demand (max bodyDemand elseDemand)) := by
  intro levels c used rest ha ht _
  have hfits : demand ≤ levels ∧ bodyDemand ≤ levels ∧ elseDemand ≤ levels ↔
      max demand (max bodyDemand elseDemand) ≤ levels := by
    rw [Nat.max_le, Nat.max_le]
  obtain ⟨used, last, rfl, hu, hl⟩ := List.map_eq_append_iff.1 ht
  obtain ⟨els, last, rfl, hels, hl⟩ := List.map_eq_cons_iff.1 hl
  refine Parse.Takes.congr
    (guarded_takes h hb (by simpa using ha) hu fun token e b c' ha' hx hb' => ?_) hfits
  refine .finish (elseBody_takes he ha' hels hl) fun o _ ho => ?_
  rw [Stmt.relabel, hx, hb', ho]
  rfl

theorem whileLoop_accepts (h : AnyExpression text test demand)
    (hb : BlockAccepts bodyText body bodyDemand) :
    Parse.Accepts
      (fun levels => Grammar.whileLoop (expression levels) (Grammar.block .standard levels))
      (Stmt.relabel .unplaced) Anything
      (keyword "while" :: operator "(" :: text ++ operator ")" :: bodyText)
      (.whileLoop test body .null) (max demand bodyDemand) := by
  intro levels c used rest ha ht _
  have hfits : demand ≤ levels ∧ bodyDemand ≤ levels ∧ True ↔ max demand bodyDemand ≤ levels := by
    rw [and_true, Nat.max_le]
  rw [← List.append_nil used]
  refine Parse.Takes.congr (guarded_takes h hb ha ht fun token e b c' _ he hb' => .get (.pure ?_))
    hfits
  rw [Stmt.relabel, he, hb']
  rfl

theorem forLoop_accepts {initText updateText : List Terminal} {init : Stmt} {update : Assignment}
    {initDemand updateDemand : Nat} (hinit : Simple initText init initDemand)
    (h : AnyExpression text test demand) (hu : Update updateText update updateDemand)
    (hb : BlockAccepts bodyText body bodyDemand) :
    Parse.Accepts
      (fun levels => Grammar.forLoop (expression levels) (Grammar.block .standard levels))
      (Stmt.relabel .unplaced) Anything
      (keyword "for" :: operator "(" :: initText ++ text ++ operator ";" :: updateText ++
        operator ")" :: bodyText)
      (.forLoop init test update body .null)
      (max initDemand (max demand (max updateDemand bodyDemand))) := by
  intro levels c used rest ha ht _
  have hfits : initDemand ≤ levels ∧ demand ≤ levels ∧ updateDemand ≤ levels ∧
      bodyDemand ≤ levels ↔ max initDemand (max demand (max updateDemand bodyDemand)) ≤ levels := by
    simp only [Nat.max_le]
  simp only [List.cons_append, List.append_assoc] at ht
  obtain ⟨kw, used, rfl, hkw, ht⟩ := List.map_eq_cons_iff.1 ht
  obtain ⟨opening, used, rfl, ho, ht⟩ := List.map_eq_cons_iff.1 ht
  obtain ⟨initUsed, used, rfl, hi, ht⟩ := List.map_eq_append_iff.1 ht
  obtain ⟨inner, used, rfl, hx, ht⟩ := List.map_eq_append_iff.1 ht
  obtain ⟨semi, used, rfl, hsemi, ht⟩ := List.map_eq_cons_iff.1 ht
  obtain ⟨updateUsed, used, rfl, hup, ht⟩ := List.map_eq_append_iff.1 ht
  obtain ⟨closing, used, rfl, hc, hbody⟩ := List.map_eq_cons_iff.1 ht
  simp only [List.cons_append, List.append_assoc] at ha
  refine Parse.Takes.congr ?_ hfits
  refine .after (Parse.expectKeyword_cons ha hkw) fun c₁ hm₁ => ?_
  have ha₁ := hm₁.rest_eq ha
  refine .after (Parse.expectOperator_cons ha₁ ho) fun c₂ hm₂ => ?_
  have ha₂ := hm₂.rest_eq ha₁
  refine .bind (hinit.accepts ha₂ hi trivial) fun init' c₃ hm₃ hinit' => ?_
  have ha₃ := hm₃.rest_eq ha₂
  refine .bind (expression_takes h (.inr rfl) hsemi ha₃ hx) fun e c₄ hm₄ he => ?_
  have ha₄ := hm₄.rest_eq ha₃
  refine .after (Parse.expectOperator_cons ha₄ hsemi) fun c₅ hm₅ => ?_
  have ha₅ := hm₅.rest_eq ha₄
  refine .bind (hu.accepts ha₅ hup (stops_closing (.inl rfl) hc)) fun update' c₆ hm₆ hu' => ?_
  have ha₆ := hm₆.rest_eq ha₅
  refine .after (Parse.expectOperator_cons ha₆ hc) fun c₇ hm₇ => ?_
  refine .finish (hb (hm₇.rest_eq ha₆) hbody trivial) fun b _ hb' => ?_
  rw [Stmt.relabel, hinit', he, hu', hb']
  rfl

end

/-- No expression starts with a semicolon. -/
theorem Expression.head {layer : Layer} {tree : Expr} (h : Expression layer text tree demand) :
    ∃ first others, text = first :: others ∧ first ≠ operator ";" := by
  induction h with
  | group _ _ => exact ⟨_, _, rfl, by simp⟩
  | plain _ ih => exact ih
  | signed op _ _ => exact ⟨_, _, rfl, by cases op <;> simp [UnaryOp.lexeme]⟩
  | chain _ _ _ ih _ =>
    obtain ⟨first, others, rfl, hf⟩ := ih
    exact ⟨first, _, rfl, hf⟩
  | _ => exact ⟨_, _, rfl, by simp⟩

theorem retVoid_accepts :
    Parse.Accepts (fun levels => Grammar.ret (expression levels)) (Return.relabel .unplaced)
      Anything [keyword "return", operator ";"] ⟨none, none, .null⟩ 0 := by
  intro levels c used rest ha ht _
  obtain ⟨kw, used, rfl, hkw, ht⟩ := List.map_eq_cons_iff.1 ht
  obtain ⟨semi, rfl, hsemi⟩ := List.map_eq_singleton_iff.1 ht
  refine Parse.Takes.congr ?_ (iff_of_true trivial (Nat.zero_le levels))
  refine .after (Parse.expectKeyword_cons ha hkw) fun c₁ hm₁ => ?_
  have ha₁ := hm₁.rest_eq ha
  have hnone : ∃ c', returnValue (expression levels) c₁ = .ok none c' ∧ c₁.Moved [] c' := by
    refine ⟨c₁, ?_, .refl c₁⟩
    rw [returnValue, Parse.get_bind_run, if_pos ((Cursor.atOperator_iff ha₁).2 hsemi)]
    rfl
  refine .after hnone fun c₂ hm₂ => ?_
  exact .after (Parse.expectOperator_cons (hm₂.rest_eq ha₁) hsemi) fun _ _ => .get (.pure rfl)

theorem ret_accepts {value : Expr} (h : AnyExpression text value demand) :
    Parse.Accepts (fun levels => Grammar.ret (expression levels)) (Return.relabel .unplaced)
      Anything (keyword "return" :: text ++ [operator ";"]) ⟨some value, none, .null⟩ demand := by
  intro levels c used rest ha ht _
  obtain ⟨kw, used, rfl, hkw, ht⟩ := List.map_eq_cons_iff.1 ht
  obtain ⟨inner, last, rfl, hi, hl⟩ := List.map_eq_append_iff.1 ht
  obtain ⟨semi, rfl, hsemi⟩ := List.map_eq_singleton_iff.1 hl
  refine Parse.Takes.congr ?_ (and_true (demand ≤ levels)).to_iff
  refine .after (Parse.expectKeyword_cons ha hkw) fun c₁ hm₁ => ?_
  have ha₁ : c₁.ahead = inner ++ semi :: rest := hm₁.rest_eq (by simpa using ha)
  have hvalue : (returnValue (expression levels)).Takes c₁ inner (demand ≤ levels)
      (·.map (Expr.relabel .unplaced) = some value) := by
    -- a value is only looked for where no semicolon is ahead
    have hat : ¬c₁.atOperator ";" = true := by
      obtain ⟨first, others, rfl, hf⟩ := h.head
      obtain ⟨token, others, rfl, htoken, -⟩ := List.map_eq_cons_iff.1 hi
      rw [Cursor.atOperator_iff ha₁, htoken]
      exact hf
    refine .get ?_
    rw [if_neg hat]
    refine .map (expression_takes h (.inr rfl) hsemi ha₁ hi) fun e he => ?_
    rw [Option.map_some, he]
  refine .bind hvalue fun value' c₂ hm₂ hv => ?_
  refine .after (Parse.expectOperator_cons (hm₂.rest_eq ha₁) hsemi) fun _ _ => .get (.pure ?_)
  rw [Return.relabel, hv]
  rfl

/-- The rule that the table of the language has for a token. -/
theorem handler?_eq_lookup {kind : Token.Kind} {lexeme : String} (table : Table)
    (hk : kind = .keyword ∨ kind = .operator) (ht : token.terminal = (kind, lexeme)) :
    table.handler? token = table.lookup lexeme := by
  obtain ⟨rfl, rfl⟩ := Prod.mk.inj ht
  rcases hk with hk | hk <;> simp [Table.handler?, hk]

/-- A statement that starts with a keyword or an operator is parsed by the rule in the table. -/
theorem statement_accepts_of_handler (handler : Handler) {Ends : List Token → Prop}
    {kind : Token.Kind} {lexeme : String} {others : List Terminal} {stmt : Stmt}
    (hk : kind = .keyword ∨ kind = .operator) (hh : Table.standard.lookup lexeme = some handler)
    (h : Parse.Accepts
      (fun levels => handle (expression levels) (Grammar.block .standard levels) handler)
      (Stmt.relabel .unplaced) Ends ((kind, lexeme) :: others) stmt demand) :
    Parse.Accepts (statement .standard) (Stmt.relabel .unplaced) Ends ((kind, lexeme) :: others)
      stmt demand := by
  intro levels c used rest ha ht hs
  obtain ⟨token, used, rfl, htoken, hu⟩ := List.map_eq_cons_iff.1 ht
  refine .peek ha ?_
  simp only [handler?_eq_lookup _ hk htoken, hh]
  exact h ha ht hs

/-- The terminal that a block starts with. -/
theorem Block.head {b : MiniC.Block} (h : Block text b demand) :
    ∃ others, text = operator "\x7b" :: others := by
  obtain ⟨_⟩ := h
  exact ⟨_, rfl⟩

/-- No statement starts with `else` or a closing brace. -/
theorem Statement.head {stmt : Stmt} (h : Statement text stmt demand) :
    ∃ first others, text = first :: others ∧ first ≠ keyword "else" ∧ first ≠ operator "\x7d" := by
  cases h with
  | simple h =>
    cases h with
    | declaration h =>
      obtain ⟨type, others, rfl⟩ := h.head
      exact ⟨_, _, rfl, by cases type <;> simp [DataType.name], by simp⟩
    | assignment h =>
      obtain ⟨name, others, rfl⟩ := h.head
      exact ⟨_, _, rfl, by simp, by simp⟩
  | block h =>
    obtain ⟨others, rfl⟩ := h.head
    exact ⟨_, _, rfl, by simp, by simp⟩
  | _ => exact ⟨_, _, rfl, by simp, by simp⟩

/-- No `else` follows a statement among others. -/
theorem noElse_items {items : List Item} (ht : used.map Token.terminal = items.flatMap Item.text)
    (hi : ∀ item ∈ items, Statement item.text item.tree item.demand) (hr : NoElse rest) :
    NoElse (used ++ rest) := by
  cases items with
  | nil =>
    obtain rfl : used = [] := by simpa using ht
    exact hr
  | cons item items =>
    obtain ⟨first, others, htext, hfirst, -⟩ := (hi item List.mem_cons_self).head
    rw [List.flatMap_cons, htext] at ht
    obtain ⟨token, used, rfl, htoken, -⟩ := List.map_eq_cons_iff.1 ht
    intro t ht
    obtain rfl : token = t := by simpa using ht
    exact htoken ▸ hfirst

/-- The rule for statements accepts these terminals. -/
abbrev StatementAccepts : List Terminal → Stmt → Nat → Prop :=
  Parse.Accepts (statement .standard) (Stmt.relabel .unplaced) NoElse

/-- The loop of a block takes all statements up to the closing brace. -/
theorem untilBrace_takes {items : List Item} {closing : Token}
    (hi : ∀ item ∈ items, Statement item.text item.tree item.demand)
    (ih : ∀ item ∈ items, StatementAccepts item.text item.tree item.demand)
    (hc : closing.terminal = operator "\x7d") :
    ∀ {fuel : Nat} {c : Cursor} {used : List Token}, c.ahead = used ++ closing :: rest →
      used.map Token.terminal = items.flatMap Item.text → used.length ≤ fuel →
      (untilBrace (statement .standard levels) fuel).Takes c used (maxDemand items ≤ levels)
        (relabelAll .unplaced · = items.map Item.tree) := by
  induction items with
  | nil =>
    intro fuel c used ha ht _
    obtain rfl : used = [] := by simpa using ht
    have hat := (Cursor.atOperator_iff ha).2 hc
    refine Parse.Takes.congr ?_ (iff_of_true trivial (Nat.zero_le levels))
    cases fuel with
    | zero =>
      refine .get ?_
      rw [if_pos hat]
      exact .pure rfl
    | succ fuel =>
      refine .get ?_
      rw [if_pos hat]
      exact .pure rfl
  | cons item items ihi =>
    intro fuel c used ha ht hf
    have hi' : ∀ item ∈ items, Statement item.text item.tree item.demand :=
      fun item hm => hi item (List.mem_cons_of_mem _ hm)
    have hfits : item.demand ≤ levels ∧ maxDemand items ≤ levels ↔
        maxDemand (item :: items) ≤ levels := by
      rw [maxDemand, Nat.max_le]
    obtain ⟨used, others, rfl, hu, ho⟩ := List.map_eq_append_iff.1 ht
    obtain ⟨first, text, htext, -, hbrace⟩ := (hi item List.mem_cons_self).head
    obtain ⟨token, used', rfl, htoken, -⟩ := List.map_eq_cons_iff.1 (hu.trans htext)
    have hat : ¬c.atOperator "\x7d" = true := by
      rw [Cursor.atOperator_iff ha, htoken]
      exact hbrace
    have hr : NoElse (closing :: rest) := by
      intro t ht
      obtain rfl : closing = t := by simpa using ht
      rw [hc]
      simp
    -- a statement takes a token at least, so the fuel lasts for those after it
    cases fuel with
    | zero => simp at hf
    | succ fuel =>
      refine Parse.Takes.congr (.get ?_) hfits
      rw [if_neg hat]
      have ha' : c.ahead = token :: used' ++ (others ++ closing :: rest) := by simpa using ha
      refine .bind (ih item List.mem_cons_self ha' hu (noElse_items ho hi' hr))
        fun stmt c₁ hm hstmt => ?_
      have hlen : others.length ≤ fuel := by
        simp only [List.length_append, List.length_cons] at hf
        omega
      refine .map (ihi hi' (fun item hm => ih item (List.mem_cons_of_mem _ hm)) (hm.rest_eq ha') ho
        hlen) fun stmts hstmts => ?_
      rw [relabelAll, hstmt, hstmts, List.map_cons]

theorem block_accepts {items : List Item}
    (hi : ∀ item ∈ items, Statement item.text item.tree item.demand)
    (ih : ∀ item ∈ items, StatementAccepts item.text item.tree item.demand) :
    BlockAccepts (operator "\x7b" :: items.flatMap Item.text ++ [operator "\x7d"])
      ⟨items.map Item.tree, 0, .null⟩ (1 + maxDemand items) := by
  intro levels c used rest ha ht _
  cases levels with
  | zero => exact Parse.Takes.tooDeep.congr (by simp)
  | succ levels =>
    have hfits : maxDemand items ≤ levels ∧ True ↔ 1 + maxDemand items ≤ levels + 1 := by
      rw [and_true]
      omega
    obtain ⟨opening, used, rfl, ho, ht⟩ := List.map_eq_cons_iff.1 ht
    obtain ⟨inner, last, rfl, hu, hl⟩ := List.map_eq_append_iff.1 ht
    obtain ⟨closing, rfl, hc⟩ := List.map_eq_singleton_iff.1 hl
    refine Parse.Takes.congr (Parse.Takes.nested ?_) hfits
    refine .after (Parse.expectOperator_cons ha ho) fun c₁ hm₁ => ?_
    have ha₁ : c₁.ahead = inner ++ closing :: rest := hm₁.rest_eq (by simpa using ha)
    have hid : ∃ c', Parse.takeId c₁ = .ok c₁.nextId c' ∧ c₁.Moved [] c' :=
      ⟨_, rfl, rfl, rfl, rfl⟩
    -- taking an id is a step that uses no token
    show Parse.Takes _ c₁ ([] ++ (inner ++ [closing])) _ _
    refine .after hid fun c₂ hm₂ => .get ?_
    have ha₂ : c₂.ahead = inner ++ closing :: rest := hm₂.rest_eq ha₁
    have hlen : inner.length ≤ c₂.ahead.length := by simp [ha₂]
    refine .bind (untilBrace_takes hi ih hc ha₂ hu hlen) fun body c₃ hm₃ hbody => ?_
    refine .after (Parse.expectOperator_cons (hm₃.rest_eq ha₂) hc) fun _ _ => .get (.pure ?_)
    rw [MiniC.Block.relabel, hbody]
    rfl

end

mutual

/-- Completeness of the rule for statements, with the exact demand. -/
theorem Statement.accepts {text : List Terminal} {stmt : Stmt} {demand : Nat} :
    Statement text stmt demand → StatementAccepts text stmt demand
  | .simple (.declaration h) => by
    obtain ⟨type, others, rfl⟩ := h.head
    refine (statement_accepts_of_handler .varDecl (.inl rfl) (by cases type <;> rfl)
      (h.accepts.map .varDecl fun d => ?_)).mono fun _ _ => trivial
    rw [Stmt.relabel]
  | .simple (.assignment h) => by
    intro levels c used rest ha ht _
    obtain ⟨name, others, rfl⟩ := h.head
    obtain ⟨id, used, rfl, hid, -⟩ := List.map_eq_cons_iff.1 ht
    obtain ⟨hk, -⟩ := Prod.mk.inj hid
    have hn : Table.standard.handler? id = none := by simp [Table.handler?, hk]
    refine .peek ha ?_
    simp only [hn, hk, if_true]
    refine .map (h.accepts_terminated ha ht trivial) fun a ha => ?_
    rw [Stmt.relabel, ha]
  | .ifThen h hb =>
    statement_accepts_of_handler .ifElse (.inl rfl) rfl (ifThen_accepts h hb.accepts)
  | .ifElse h hb he =>
    (statement_accepts_of_handler .ifElse (.inl rfl) rfl
      (ifElse_accepts h hb.accepts he.accepts)).mono fun _ _ => trivial
  | .whileLoop h hb =>
    (statement_accepts_of_handler .whileLoop (.inl rfl) rfl
      (whileLoop_accepts h hb.accepts)).mono fun _ _ => trivial
  | .forLoop hinit h hu hb =>
    (statement_accepts_of_handler .forLoop (.inl rfl) rfl
      (forLoop_accepts hinit h hu hb.accepts)).mono fun _ _ => trivial
  | .retVoid =>
    (statement_accepts_of_handler .ret (.inl rfl) rfl
      (retVoid_accepts.map .ret fun r => by rw [Stmt.relabel])).mono fun _ _ => trivial
  | .ret h =>
    (statement_accepts_of_handler .ret (.inl rfl) rfl
      ((ret_accepts h).map .ret fun r => by rw [Stmt.relabel])).mono fun _ _ => trivial
  | .block h => by
    have hb := h.accepts
    obtain ⟨others, rfl⟩ := h.head
    exact (statement_accepts_of_handler .block (.inr rfl) rfl
      (hb.map .block fun b => by rw [Stmt.relabel])).mono fun _ _ => trivial

theorem Block.accepts {text : List Terminal} {b : MiniC.Block} {demand : Nat} :
    Block text b demand → BlockAccepts text b demand
  | .mk hi => block_accepts hi fun item hm => (hi item hm).accepts

end

end Language

end MiniC
