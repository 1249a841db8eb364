import MiniC.Proofs.Grammar.Composition
import MiniC.Proofs.Grammar.Run

/-!
The rules that count the open levels against the rules by the levels left. A rule that counts opens
and closes levels as it goes, and closes those of a chain together; run where `depth` levels are
open it does exactly what the rule for the `maxDepth - depth` levels left does, down to the levels
that a failure leaves open.

What makes them agree is that levels are balanced: a rule that succeeds has as many open as before,
and how many there are changes nothing but their number.
-/

namespace MiniC

open Grammar

/-- The same place with so many more levels open. -/
def Cursor.deeper (c : Cursor) (more : Nat) : Cursor :=
  { c with depth := c.depth + more }

@[simp] theorem Cursor.deeper_ahead (c : Cursor) (more : Nat) :
    (c.deeper more).ahead = c.ahead := rfl

@[simp] theorem Cursor.deeper_depth (c : Cursor) (more : Nat) :
    (c.deeper more).depth = c.depth + more := rfl

namespace Parse

variable {α β : Type}

/-- A result with so many more levels open. -/
def deeper (more : Nat) : EStateM.Result Diagnostic Cursor α → EStateM.Result Diagnostic Cursor α
  | .ok a c => .ok a (c.deeper more)
  | .error d c => .error d (c.deeper more)

/-- Levels are balanced: a success closes those that were opened, a failure leaves at most those
open that could be opened, and the levels open before are seen by nothing. -/
structure Balanced (levels : Nat) (x : Parse α) : Prop where
  ok : ∀ ⦃c a c'⦄, x c = .ok a c' → c'.depth = c.depth
  error : ∀ ⦃c d c'⦄, x c = .error d c' → c.depth ≤ c'.depth ∧ c'.depth ≤ c.depth + levels
  deeper : ∀ c more, x (c.deeper more) = Parse.deeper more (x c)

namespace Balanced

variable {levels : Nat} {x : Parse α}

theorem pure (a : α) : (Pure.pure a : Parse α).Balanced levels where
  ok c a' c' h := by cases h; rfl
  error c d c' h := by cases h
  deeper _ _ := rfl

theorem fail (d : Diagnostic) : (Parse.fail d : Parse α).Balanced levels where
  ok c a c' h := by cases h
  error c d' c' h := by cases h; exact ⟨Nat.le_refl _, Nat.le_add_right _ _⟩
  deeper _ _ := rfl

theorem advance : Parse.advance.Balanced levels where
  ok c token c' h := by
    rw [advance_run] at h
    split at h <;> cases h
    rfl
  error c d c' h := by
    rw [advance_run] at h
    split at h <;> cases h
    exact ⟨Nat.le_refl _, Nat.le_add_right _ _⟩
  deeper c more := by
    rw [advance_run, advance_run]
    simp only [Cursor.deeper_ahead]
    cases c.ahead <;> rfl

theorem takeId : Parse.takeId.Balanced levels where
  ok c id c' h := by cases h; rfl
  error c d c' h := by cases h
  deeper _ _ := rfl

/-- A rule that looks where it is. -/
theorem get {f : Cursor → Parse α} (hf : ∀ c more, f (c.deeper more) = f c)
    (h : ∀ c, (f c).Balanced levels) : (get >>= f).Balanced levels where
  ok c _ _ hrun := (h c).ok hrun
  error c _ _ hrun := (h c).error hrun
  deeper c more := by
    rw [get_bind_run, get_bind_run, hf, (h c).deeper]

theorem bind {f : α → Parse β} (hx : x.Balanced levels) (hf : ∀ a, (f a).Balanced levels) :
    (x >>= f).Balanced levels where
  ok c b c' h := by
    obtain ⟨a, c₁, hr, h⟩ := bind_ok.1 h
    rw [(hf a).ok h, hx.ok hr]
  error c d c' h := by
    rw [bind_run] at h
    cases hr : x c with
    | ok a c₁ =>
      rw [hr] at h
      rw [← hx.ok hr]
      exact (hf a).error h
    | error d₁ c₁ =>
      rw [hr] at h
      cases h
      exact hx.error hr
  deeper c more := by
    rw [bind_run, bind_run, hx.deeper]
    cases x c with
    | ok a c₁ => exact (hf a).deeper c₁ more
    | error d c₁ => rfl

/-- All that rules are composed of is balanced. -/
theorem composed (levels : Nat) : Composed fun x _ => Balanced levels x where
  pure := pure
  fail := fail
  advance := advance
  look hf h := get (fun c _ => hf c c.ahead _ rfl) h
  bind := bind
  opening hb hf := hb.bind fun brace => takeId.bind (hf brace)
  loop h := get (fun _ _ => rfl) fun _ => h _

theorem nested (h : x.Balanced levels) : (Parse.nested x).Balanced (levels + 1) where
  ok c a c' hrun := h.ok (nested_ok.1 hrun)
  error c d c' hrun := by
    unfold Parse.nested at hrun
    cases hr : x c with
    | ok a c₁ => simp [hr] at hrun
    | error d₁ c₁ =>
      rw [hr] at hrun
      cases hrun
      have := h.error hr
      exact ⟨by simp only; omega, by simp only; omega⟩
  deeper c more := by
    unfold Parse.nested
    rw [h.deeper]
    cases x c with
    | ok a c₁ => rfl
    | error d c₁ =>
      simp only [Parse.deeper, Cursor.deeper, Nat.add_right_comm]

theorem inherited : Inherited fun levels _ x => Balanced levels x where
  composed := composed
  nested := nested

end Balanced

/-- With so many levels open two rules do the same, and the levels of the first are balanced. -/
structure Agree (depth : Nat) (x y : Parse α) : Prop where
  balanced : x.Balanced (maxDepth - depth)
  run_eq : ∀ ⦃c⦄, c.depth = depth → y c = x c

namespace Agree

variable {depth : Nat} {x y : Parse α}

theorem get {f g : Cursor → Parse α} (hf : ∀ c more, f (c.deeper more) = f c)
    (h : ∀ c, Agree depth (f c) (g c)) : Agree depth (get >>= f) (get >>= g) :=
  ⟨.get hf fun c => (h c).balanced, fun c hc => (h c).run_eq hc⟩

/-- After a success as many levels are open as before, so what follows starts where it agrees. -/
theorem bind_run_eq {f g : α → Parse β} (hx : Agree depth x y)
    (hf : ∀ a c, c.depth = depth → g a c = f a c) {c : Cursor} (hc : c.depth = depth) :
    (y >>= g) c = (x >>= f) c := by
  rw [bind_run, bind_run, hx.run_eq hc]
  cases hr : x c with
  | ok a c₁ => exact hf a c₁ ((hx.balanced.ok hr).trans hc)
  | error d c₁ => rfl

theorem bind {f g : α → Parse β} (hx : Agree depth x y) (hf : ∀ a, Agree depth (f a) (g a)) :
    Agree depth (x >>= f) (y >>= g) where
  balanced := hx.balanced.bind fun a => (hf a).balanced
  run_eq _ hc := hx.bind_run_eq (fun a _ hc => (hf a).run_eq hc) hc

theorem composed (depth : Nat) : Composed (Agree depth) where
  pure a := ⟨.pure a, fun _ _ => rfl⟩
  fail d := ⟨.fail d, fun _ _ => rfl⟩
  advance := ⟨.advance, fun _ _ => rfl⟩
  look hf h := get (fun c _ => hf c c.ahead _ rfl) h
  bind := bind
  opening hb hf := hb.bind fun brace => bind ⟨.takeId, fun _ _ => rfl⟩ (hf brace)
  loop h := get (fun _ _ => rfl) fun _ => h _

end Agree

/-! Opening and closing levels. -/

theorem enter_run (c : Cursor) :
    enter c = if maxDepth ≤ c.depth then tooDeep c else .ok () (c.deeper 1) := by
  simp only [enter, get_bind_run]
  split <;> rfl

theorem enter_bind {c : Cursor} (h : c.depth < maxDepth) (x : Parse α) :
    (enter >>= fun _ => x) c = x (c.deeper 1) := by
  rw [bind_run, enter_run, if_neg (by omega)]

theorem enter_bind_stuck {c : Cursor} (h : maxDepth ≤ c.depth) (x : Parse α) :
    (enter >>= fun _ => x) c = tooDeep c := by
  rw [bind_run, enter_run, if_pos h]
  rfl

/-- Runs a rule and then closes levels. -/
def leaving (levels : Nat) (x : Parse α) : Parse α := do
  let a ← x
  exit levels
  return a

theorem leaving_run (levels : Nat) (x : Parse α) (c : Cursor) :
    x.leaving levels c = match x c with
      | .ok a c' => .ok a { c' with depth := c'.depth - levels }
      | .error d c' => .error d c' := by
  rw [leaving, bind_run]
  cases x c <;> rfl

theorem leaving_zero (x : Parse α) : x.leaving 0 = x := by
  funext c
  rw [leaving_run]
  cases x c <;> rfl

/-- One level more to be closed, after a start one level deeper. A failure leaves it open. -/
theorem leaving_deeper {x : Parse α} {levels : Nat} (h : x.Balanced levels) (folds : Nat)
    (c : Cursor) : x.leaving (folds + 1) (c.deeper 1) = (nested x).leaving folds c := by
  rw [leaving_run, leaving_run, h.deeper, nested]
  cases x c with
  | ok a c' => simp only [deeper, Cursor.deeper, Nat.add_sub_add_right]
  | error d c' => rfl

namespace Agree

variable {depth : Nat} {x y : Parse α}

/-- A level that is opened and closed around a rule is one level fewer left for it. -/
theorem within (h : Agree (depth + 1) x y) (hd : depth < maxDepth) :
    Agree depth (nested x) (within y) := by
  have hlevels : maxDepth - (depth + 1) + 1 = maxDepth - depth := by omega
  refine ⟨hlevels ▸ h.balanced.nested, fun c hc => ?_⟩
  have henter : Parse.within y c = y.leaving 1 (c.deeper 1) := enter_bind (by omega) _
  have hrun : y.leaving 1 (c.deeper 1) = x.leaving 1 (c.deeper 1) := by
    rw [leaving_run, leaving_run, h.run_eq (by rw [Cursor.deeper_depth, hc])]
  rw [henter, hrun, leaving_deeper h.balanced, leaving_zero]

theorem tooDeep : Agree depth (Parse.tooDeep : Parse α) Parse.tooDeep :=
  (composed depth).tooDeep

/-- Where no level can be opened, what is inside does not matter. -/
theorem stuck (hd : maxDepth ≤ depth) : Agree depth Parse.tooDeep (Parse.within y) :=
  ⟨tooDeep.balanced, fun c hc => enter_bind_stuck (by omega) _⟩

theorem bind_leaving {f g : α → Parse β} {levels : Nat} (hx : Agree depth x y)
    (hf : ∀ a c, c.depth = depth → g a c = (f a).leaving levels c) {c : Cursor}
    (hc : c.depth = depth) : (y >>= g) c = (x >>= f).leaving levels c := by
  rw [hx.bind_run_eq hf hc]
  simp only [leaving, bind_assoc]

end Agree

/-! Expressions. -/

/-- With so many levels open a rule for the rest of a chain does what `fold` does, and closes the
levels of all folds in the end. -/
def ChainAgrees (depth : Nat) (chain : Level → Nat → Expr → Parse Expr) : Prop :=
  ∀ level folds left c, c.depth = depth →
    chain level folds left c = (fold (maxDepth - depth) level left).leaving folds c

section

variable {depth : Nat} {group : Parse Expr} {chain : Level → Nat → Expr → Parse Expr}

theorem ChainAgrees.agree (h : ChainAgrees depth chain) (level : Level) (left : Expr) :
    Agree depth (fold (maxDepth - depth) level left) (chain level 0 left) := by
  refine ⟨((Balanced.inherited.group_fold _).2 level left).2, fun c hc => ?_⟩
  rw [h level 0 left c hc, leaving_zero]

/-- Parentheses around what agrees one level deeper, if there is such a level. -/
theorem parenthesised_agree
    (hg : depth < maxDepth → Agree (depth + 1) (Grammar.group (maxDepth - (depth + 1))) group)
    (hf : depth < maxDepth → ChainAgrees (depth + 1) chain) :
    Agree depth (Grammar.group (maxDepth - depth))
      (within (parenthesised (layered group (chain · 0) Level.logicalOr.andTighter))) := by
  by_cases hlt : depth < maxDepth
  · have hlevels : maxDepth - depth = maxDepth - (depth + 1) + 1 := by omega
    have hR := Agree.composed (depth + 1)
    rw [hlevels]
    exact (hR.parenthesised (hR.layered (hg hlt) (hf hlt).agree _)).within hlt
  · rw [Nat.sub_eq_zero_of_le (by omega)]
    exact .stuck (by omega)

/-- A chain whose folds agree one level deeper, if there is such a level. -/
theorem chained_agrees
    (hg : depth < maxDepth → Agree (depth + 1) (Grammar.group (maxDepth - (depth + 1))) group)
    (hf : depth < maxDepth → ChainAgrees (depth + 1) chain) :
    ChainAgrees depth (chained group chain) := by
  intro level folds left c hc
  by_cases hlt : depth < maxDepth
  · have hlevels : maxDepth - depth = maxDepth - (depth + 1) + 1 := by omega
    rw [hlevels, leaving_run, chained, fold, get_bind_run, get_bind_run]
    cases c.binaryOp? level with
    | none => rfl
    | some op =>
      dsimp only
      rw [enter_bind (by omega), ← leaving_run]
      have hR := Agree.composed (depth + 1)
      have hright := hR.layered (hg hlt) (hf hlt).agree level.tighter
      -- the levels of all folds, this one included, are closed where the chain ends
      refine Eq.trans ?_ (leaving_deeper (hR.bind hR.advance fun _ =>
        hR.bind hright fun right => (hf hlt).agree level _).balanced folds c)
      refine Agree.bind_leaving hR.advance (fun _ c hc => ?_) (by rw [Cursor.deeper_depth, hc])
      exact Agree.bind_leaving hright (fun right => hf hlt level (folds + 1) _) hc
  · rw [Nat.sub_eq_zero_of_le (by omega), leaving_run, chained, fold, get_bind_run, get_bind_run]
    cases c.binaryOp? level with
    | none => rfl
    | some op => exact enter_bind_stuck (by omega) _

end

/-- With fuel for the levels that can still be opened, counting agrees with them. -/
theorem upTo_agree (fuel depth : Nat) (hfuel : maxDepth - depth ≤ fuel) :
    Agree depth (group (maxDepth - depth)) (Parser.groupUpTo fuel) ∧
      ChainAgrees depth (Parser.chainUpTo fuel) := by
  induction fuel generalizing depth with
  | zero =>
    have hnone : ¬depth < maxDepth := by omega
    constructor
    · rw [Nat.le_zero.1 hfuel]
      exact .tooDeep
    · exact chained_agrees (absurd · hnone) (absurd · hnone)
  | succ fuel ih =>
    have hg := fun _ : depth < maxDepth => (ih (depth + 1) (by omega)).1
    have hf := fun _ : depth < maxDepth => (ih (depth + 1) (by omega)).2
    exact ⟨parenthesised_agree hg hf, chained_agrees hg hf⟩

/-- Counting from any place does what the levels left there allow. -/
theorem group_agree (depth : Nat) : Agree depth (group (maxDepth - depth)) Parser.group :=
  (upTo_agree maxDepth depth (Nat.sub_le _ _)).1

theorem chain_agrees (depth : Nat) : ChainAgrees depth Parser.chain :=
  (upTo_agree maxDepth depth (Nat.sub_le _ _)).2

theorem atLevel_agree (depth : Nat) (level : Level) :
    Agree depth (atLevel (maxDepth - depth) level) (Parser.atLevel level) :=
  (Agree.composed depth).layered (group_agree depth) (chain_agrees depth).agree _

theorem expression_agree (depth : Nat) :
    Agree depth (expression (maxDepth - depth)) Parser.expression :=
  atLevel_agree depth .logicalOr

/-! Statements. -/

theorem braces_agree {table : Table} {depth : Nat} {block : Parse Block}
    (hb : depth < maxDepth →
      Agree (depth + 1) (Grammar.block table (maxDepth - (depth + 1))) block) :
    Agree depth (Grammar.block table (maxDepth - depth))
      (within (braces (statementWith table Parser.expression block))) := by
  by_cases hlt : depth < maxDepth
  · have hlevels : maxDepth - depth = maxDepth - (depth + 1) + 1 := by omega
    have hR := Agree.composed (depth + 1)
    rw [hlevels]
    exact (hR.braces (hR.statementWith (expression_agree (depth + 1)) (hb hlt) table)).within hlt
  · rw [Nat.sub_eq_zero_of_le (by omega)]
    exact .stuck (by omega)

theorem blockUpTo_agree (table : Table) (fuel depth : Nat) (hfuel : maxDepth - depth ≤ fuel) :
    Agree depth (block table (maxDepth - depth)) (Parser.blockUpTo table fuel) := by
  induction fuel generalizing depth with
  | zero =>
    rw [Nat.le_zero.1 hfuel]
    exact .tooDeep
  | succ fuel ih => exact braces_agree fun _ => ih (depth + 1) (by omega)

theorem block_agree (table : Table) (depth : Nat) :
    Agree depth (block table (maxDepth - depth)) (Parser.block table) :=
  blockUpTo_agree table maxDepth depth (Nat.sub_le _ _)

theorem statement_agree (table : Table) (depth : Nat) :
    Agree depth (statement table (maxDepth - depth)) (Parser.statement table) :=
  (Agree.composed depth).statementWith (expression_agree depth) (block_agree table depth) table

/-- Every rule that counts the open levels agrees with the rule for the levels left, down to what a
failure leaves open. -/
theorem rule_agree (rule : Rule) (table : Table) (depth : Nat) :
    Agree depth (rule.run table (maxDepth - depth)) (rule.parse table) :=
  (Agree.composed depth).runWith (atLevel_agree depth) (group_agree depth)
    (block_agree table depth) rule

end Parse

/-! The fuel is always enough, so the rules are what they call each other as. -/

/-- What a rule does wherever it starts. -/
theorem Rule.parse_eq_run (rule : Rule) (table : Table) (c : Cursor) :
    rule.parse table c = rule.run table (maxDepth - c.depth) c :=
  (Parse.rule_agree rule table c.depth).run_eq rfl

/-- A session runs a rule with the levels that are left. -/
theorem Session.answer_parse (session : Session) (rule : Rule) :
    session.answer (.parse rule) =
      session.run (rule.run session.table (maxDepth - session.depth)) .parsed := by
  rw [answer, run, run, rule.parse_eq_run]
  rfl

theorem Parser.statement_eq_levels (table : Table) (c : Cursor) :
    Parser.statement table c = Grammar.statement table (maxDepth - c.depth) c :=
  (Parse.statement_agree table c.depth).run_eq rfl

/-- Where no level is open all of them are left. -/
theorem Parser.statement_eq (table : Table) {c : Cursor} (h : c.depth = 0) :
    Parser.statement table c = Grammar.statement table maxDepth c := by
  rw [statement_eq_levels, h, Nat.sub_zero]

theorem Grammar.statement_depth {table : Table} {c c' : Cursor} {stmt : Stmt}
    (h : Grammar.statement table maxDepth c = .ok stmt c') : c'.depth = c.depth :=
  (Parse.statement_agree table 0).balanced.ok h

end MiniC
