import MiniC.Proofs.Grammar.Counting
import MiniC.Proofs.Grammar.Expression

/-!
Precedence climbing from any state. What the rule for a layer reads, from any place and with any
number of levels left, are the expressions of the layer that fit, each with its spans, and it stops
exactly before what does not go on with one. Where no parentheses are written, operators stand in
the tree in the order of their levels.
-/

namespace MiniC

open MiniC.Language Grammar

namespace Language

variable {layer : Layer} {levels : Nat} {c : Cursor} {used : List Token} {e : Expr}

/-- The rules for expressions are exact: they read the derivations with places that fit, as far as
nothing goes on with them, and nothing else. -/
theorem Layer.rule_ok_iff : (∃ c', layer.rule levels c = .ok e c' ∧ c.Moved used c') ↔
    ∃ rest demand, c.ahead = used ++ rest ∧ Placed layer used e demand ∧ demand ≤ levels ∧
      layer.Stops rest := by
  constructor
  · rintro ⟨c', hrun, hm⟩
    obtain ⟨used', demand, hm', he, hfit, hs⟩ := layer_reads levels layer hrun
    obtain rfl : used = used' := List.append_cancel_right (hm.ahead.symm.trans hm'.ahead)
    -- the derivation has a tree with places, and the rule takes just that one
    obtain ⟨placed, hp, -⟩ := places_iff_expression.2 he
    obtain ⟨_, c₁, hrun', -, rfl⟩ := (hp.takes hm.ahead hs).done hfit
    cases hrun.symm.trans hrun'
    exact ⟨c'.ahead, demand, hm.ahead, hp, hfit, hs⟩
  · rintro ⟨rest, demand, ha, hp, hfit, hs⟩
    obtain ⟨_, c', hrun, hm, rfl⟩ := (hp.takes ha hs).done hfit
    exact ⟨c', hrun, hm⟩

/-- Only a binary operator goes on with an expression of the loosest layer. -/
theorem stops_logicalOr_iff {rest : List Token} :
    (Layer.level .logicalOr).Stops rest ↔ ∀ token ∈ rest.head?, token.binaryOp? = none := by
  have hall : ∀ op : BinaryOp, op.level ∈ (Layer.level .logicalOr).levels := by
    rintro (_ | _) <;> decide
  cases rest with
  | nil => simp [Layer.Stops]
  | cons token rest =>
    simp only [Layer.Stops, List.head?_cons, Option.bind_some, Option.mem_some_iff, forall_eq']
    rw [Option.eq_none_iff_forall_ne_some]
    exact ⟨fun h op hop => h op hop (hall op), fun h op hop => absurd hop (h op)⟩

end Language

/-! The order of operators in a tree. -/

namespace Expr

/-- The binary operators of an expression. -/
def binaryOps : Expr → List BinaryOp
  | .binary left op right _ _ => left.binaryOps ++ op :: right.binaryOps
  | .unary _ operand _ _ => operand.binaryOps
  | .integer .. | .float .. | .string .. | .symbol .. => []

/-- To the left of each binary operator stand operators of its own level or of tighter ones, to the
right only operators of tighter ones. -/
def Climbs : Expr → Prop
  | .binary left op right _ _ =>
    (∀ o ∈ left.binaryOps, o.level ∈ op.level.andTighter) ∧
      (∀ o ∈ right.binaryOps, o.level ∈ op.level.tighter) ∧ left.Climbs ∧ right.Climbs
  | .unary _ operand _ _ => operand.Climbs
  | .integer .. | .float .. | .string .. | .symbol .. => True

/-- A tree in order, all of whose operators are of these levels. -/
def ClimbsWithin (levels : List Level) (e : Expr) : Prop :=
  e.Climbs ∧ ∀ op ∈ e.binaryOps, op.level ∈ levels

theorem ClimbsWithin.mono {levels levels' : List Level} {e : Expr} (h : e.ClimbsWithin levels)
    (hsub : levels ⊆ levels') : e.ClimbsWithin levels' :=
  ⟨h.1, fun op hop => hsub (h.2 op hop)⟩

end Expr

namespace Language

theorem levels_operand (level : Level) : (operand level).levels = level.tighter := by
  cases level <;> rfl

/-- One more link keeps the tree of a chain in order. -/
theorem PlacedLink.climbs_join {level : Level} {left : Expr} {link : PlacedLink}
    (hl : left.ClimbsWithin (Layer.level level).levels) (hop : link.op.level = level)
    (hr : link.tree.ClimbsWithin (operand level).levels) :
    (link.join left).ClimbsWithin (Layer.level level).levels := by
  subst hop
  have hr' : ∀ op ∈ link.tree.binaryOps, op.level ∈ (Layer.level link.op.level).levels := by
    intro op ho
    rw [levels_level]
    exact List.mem_cons_of_mem _ (hr.2 op ho)
  constructor
  · rw [levels_operand] at hr
    exact ⟨hl.2, hr.2, hl.1, hr.1⟩
  · intro op ho
    simp only [join, Expr.binaryOps, List.mem_append, List.mem_cons] at ho
    rcases ho with ho | rfl | ho
    · exact hl.2 op ho
    · rw [levels_level]
      exact List.mem_cons_self
    · exact hr' op ho

theorem climbs_foldl_join {level : Level} {links : List PlacedLink}
    (hop : ∀ link ∈ links, link.op.level = level)
    (hr : ∀ link ∈ links, link.tree.ClimbsWithin (operand level).levels) {left : Expr}
    (hl : left.ClimbsWithin (Layer.level level).levels) :
    (links.foldl PlacedLink.join left).ClimbsWithin (Layer.level level).levels := by
  induction links generalizing left with
  | nil => exact hl
  | cons link links ih =>
    have hjoin := PlacedLink.climbs_join hl (hop link List.mem_cons_self)
      (hr link List.mem_cons_self)
    exact ih (fun l h => hop l (List.mem_cons_of_mem _ h))
      (fun l h => hr l (List.mem_cons_of_mem _ h)) hjoin

/-- Without parentheses an expression only has operators of its layer, and they stand in order. -/
theorem Placed.climbs {layer : Layer} {text : List Token} {tree : Expr} {demand : Nat}
    (h : Placed layer text tree demand)
    (hparens : ∀ token ∈ text, token.terminal ≠ operator "(") : tree.ClimbsWithin layer.levels := by
  induction h with
  | integer | float | string | name => exact ⟨trivial, fun op hop => absurd hop List.not_mem_nil⟩
  | group ho => exact absurd ho (hparens _ (by simp))
  | plain _ ih => exact ih hparens
  | signed op _ _ ih => exact ih fun token hm => hparens token (List.mem_cons_of_mem _ hm)
  | @chain level text tree demand links _ hl _ _ ih ihl =>
    have hfirst := ih fun token hm => hparens token (List.mem_append_left _ hm)
    have hlinks : ∀ link ∈ links, link.tree.ClimbsWithin (operand level).levels := by
      intro link hlink
      refine ihl link hlink fun token hm => hparens token ?_
      exact List.mem_append_right _
        (List.mem_flatMap.2 ⟨link, hlink, List.mem_cons_of_mem _ hm⟩)
    refine climbs_foldl_join hl hlinks (hfirst.mono ?_)
    rw [levels_level]
    exact List.subset_cons_self _ _

end Language

/-- A session that is asked for an expression runs the rule with the levels that are left. -/
theorem Session.answer_atLevel_iff {session session' : Session} {level : Level} {e : Expr} :
    session.answer (.parse (.atLevel level)) = (.parsed (.node (.expr e)), session') ↔
      ∃ c', (Layer.level level).rule (maxDepth - session.depth) session.cursor = .ok e c' ∧
        session' = { session with cursor := c' } := by
  simp only [answer_parse, run, Rule.run, Rule.runWith, Parse.bind_run, Layer.rule]
  cases atLevel (maxDepth - session.depth) level session.cursor with
  | error failure c' => simp
  | ok e' c' =>
    constructor
    · intro h
      cases h
      exact ⟨c', rfl, rfl⟩
    · rintro ⟨_, h, rfl⟩
      cases h
      rfl

/-- Precedence climbing is exact. In any state of a session, whatever its tokens, its place among
them and its open levels are, an expression is read from the tokens `used` exactly when they derive
it, with its spans, within the levels left, and no binary operator follows them. Without parentheses
each operator has operators of its own or a tighter level on its left, and only of tighter ones on
its right. -/
theorem Session.expression_iff_placed (session : Session) (used : List Token) (e : Expr) :
    ((∃ session', session.answer (.parse (.atLevel .logicalOr)) =
        (.parsed (.node (.expr e)), session') ∧ session.cursor.Moved used session'.cursor) ↔
      ∃ rest demand, session.cursor.ahead = used ++ rest ∧
        Placed (.level .logicalOr) used e demand ∧ demand ≤ maxDepth - session.depth ∧
        ∀ token ∈ rest.head?, token.binaryOp? = none) ∧
    (∀ session', session.answer (.parse (.atLevel .logicalOr)) =
        (.parsed (.node (.expr e)), session') → session.cursor.Moved used session'.cursor →
      (∀ token ∈ used, token.terminal ≠ operator "(") → e.Climbs) := by
  have hrule : (∃ session', session.answer (.parse (.atLevel .logicalOr)) =
        (.parsed (.node (.expr e)), session') ∧ session.cursor.Moved used session'.cursor) ↔
      ∃ c', (Layer.level .logicalOr).rule (maxDepth - session.depth) session.cursor = .ok e c' ∧
        session.cursor.Moved used c' := by
    simp only [answer_atLevel_iff]
    constructor
    · rintro ⟨_, ⟨c', hrun, rfl⟩, hm⟩
      exact ⟨c', hrun, hm⟩
    · rintro ⟨c', hrun, hm⟩
      exact ⟨_, ⟨c', hrun, rfl⟩, hm⟩
  rw [hrule, Layer.rule_ok_iff]
  constructor
  · simp only [stops_logicalOr_iff]
  · intro session' hanswer hm hparens
    obtain ⟨_, _, _, hp, _⟩ := Layer.rule_ok_iff.1 (hrule.1 ⟨session', hanswer, hm⟩)
    exact (hp.climbs hparens).1

end MiniC
