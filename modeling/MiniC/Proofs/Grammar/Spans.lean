import MiniC.Proofs.Grammar.Origin
import MiniC.Proofs.Source.Row
import MiniC.Proofs.Tree.Preorder

/-!
The spans of expressions. Tokens stand in their source one behind the other; what a rule makes of
them lies between the place where it started and the place that it has come to, and so do its parts.
-/

namespace MiniC

open Grammar Parse

/-- How far a cursor has come: to the end of the token consumed last. -/
def Cursor.reach (c : Cursor) : Nat :=
  c.previousEnd.offset.toNat

/-- A place among tokens. Those ahead follow one another from there on. -/
structure Cursor.Ordered (tokens : List Token) (c : Cursor) : Prop where
  among : c.Among tokens
  ahead : ∃ high, Row c.reach (c.ahead.map Token.span) high

/-- From one place to another these nodes have been made, one behind the other, of the tokens in
between. -/
structure Cursor.Passes (tokens : List Token) (c : Cursor) (nodes : List Node) (c' : Cursor) :
    Prop where
  ordered : c'.Ordered tokens
  row : Row c.reach (nodes.map Node.span) c'.reach
  marked : ∀ node ∈ nodes, node.Marked tokens
  nested : ∀ node ∈ nodes, node.Nested tokens

variable {tokens : List Token} {c c' c'' : Cursor} {token : Token}

theorem Cursor.Moved.previousEnd_eq (h : c.Moved [token] c') :
    c'.previousEnd = token.span.stop := by
  simp [previousEnd, h.behind]

theorem Cursor.Moved.reach_eq (h : c.Moved [token] c') :
    c'.reach = token.span.stop.offset.toNat := by
  rw [reach, h.previousEnd_eq]

namespace Cursor.Ordered

theorem start (file : String) {size : Nat} (h : Row 0 (tokens.map Token.span) size) :
    (Cursor.start file tokens).Ordered tokens :=
  ⟨.start file tokens, size, h⟩

/-- The token that is taken lies behind the place before, and it is not empty. -/
theorem taken (h : c.Ordered tokens) (hm : c.Moved [token] c') :
    token ∈ tokens ∧ c.reach ≤ token.span.start.offset.toNat ∧
      token.span.start.offset.toNat < token.span.stop.offset.toNat := by
  obtain ⟨high, hrow⟩ := h.ahead
  rw [hm.ahead] at hrow
  cases hrow with
  | cons hstart hlt _ => exact ⟨h.among.mem (by simp [hm.ahead]), hstart, hlt⟩

theorem moved (h : c.Ordered tokens) (hm : c.Moved [token] c') : c'.Ordered tokens := by
  obtain ⟨high, hrow⟩ := h.ahead
  rw [hm.ahead] at hrow
  cases hrow with
  | cons _ _ hrest =>
    rw [← hm.reach_eq] at hrest
    exact ⟨h.among.moved hm, high, hrest⟩

/-- A place that is not the start is the end of a token. -/
theorem previousEnd (h : c.Ordered tokens) (hpos : 0 < c.reach) :
    ∃ token ∈ tokens, c.previousEnd = token.span.stop := by
  cases hb : c.behind with
  | nil => simp [reach, Cursor.previousEnd, hb, Position.start] at hpos
  | cons token behind =>
    refine ⟨token, ?_, by simp [Cursor.previousEnd, hb]⟩
    rw [h.among, hb]
    simp

end Cursor.Ordered

namespace Cursor.Passes

variable {nodes nodes' : List Node} {node node' : Node}

theorem refl (h : c.Ordered tokens) : c.Passes tokens [] c :=
  ⟨h, .nil (Nat.le_refl _), nofun, nofun⟩

theorem trans (h : c.Passes tokens nodes c') (h' : c'.Passes tokens nodes' c'') :
    c.Passes tokens (nodes ++ nodes') c'' where
  ordered := h'.ordered
  row := by
    rw [List.map_append]
    exact h.row.append h'.row
  marked := List.forall_mem_append.2 ⟨h.marked, h'.marked⟩
  nested := List.forall_mem_append.2 ⟨h.nested, h'.nested⟩

/-- A token of which no node is made. -/
theorem skip (h : c.Passes tokens nodes c') (hm : c'.Moved [token] c'') :
    c.Passes tokens nodes c'' := by
  obtain ⟨-, hstart, hlt⟩ := h.ordered.taken hm
  refine ⟨h.ordered.moved hm, h.row.widen (Nat.le_refl _) ?_, h.marked, h.nested⟩
  rw [hm.reach_eq]
  omega

/-- Nothing but an id is taken. -/
theorem stay (h : c.Passes tokens nodes c') (hm : c'.Moved [] c'') : c.Passes tokens nodes c'' := by
  have hreach : c''.reach = c'.reach := by simp [reach, previousEnd, hm.behind, hm.file]
  obtain ⟨high, hrow⟩ := h.ordered.ahead
  rw [hm.ahead, ← hreach] at hrow
  exact ⟨⟨h.ordered.among.moved hm, high, hrow⟩, hreach ▸ h.row, h.marked, h.nested⟩

theorem single (h : c'.Ordered tokens) (hrow : Row c.reach [node.span] c'.reach)
    (hm : node.Marked tokens) (hn : node.Nested tokens) : c.Passes tokens [node] c' :=
  ⟨h, hrow, List.forall_mem_singleton.2 hm, List.forall_mem_singleton.2 hn⟩

/-- A node in another place looks the same. -/
theorem as (h : c.Passes tokens [node] c') (hs : node'.span = node.span)
    (hc : node'.children = node.children) : c.Passes tokens [node'] c' := by
  obtain ⟨hstart, hstop⟩ := List.forall_mem_singleton.1 h.marked
  refine single h.ordered ?_ ⟨hs ▸ hstart, hs ▸ hstop⟩ ?_
  · rw [hs]
    exact h.row
  · cases List.forall_mem_singleton.1 h.nested with
    | intro hrow hmarked hnested =>
      rw [← hc, ← hs] at hrow
      rw [← hc] at hmarked hnested
      exact .intro hrow hmarked hnested

/-- A node from its first token to the end of what has been consumed. -/
theorem wrap (hc : c.Ordered tokens) (hm : c.Moved [token] c')
    (h : c'.Passes tokens node.children c'') (hs : node.span = c''.spanFrom token.span.start) :
    c.Passes tokens [node] c'' := by
  obtain ⟨hmem, hstart, hlt⟩ := hc.taken hm
  have hle := h.row.le
  rw [hm.reach_eq] at hle
  obtain ⟨last, hlast, hstop⟩ := h.ordered.previousEnd (by omega)
  refine single h.ordered ?_ ⟨⟨token, hmem, by rw [hs]; rfl⟩, ⟨last, hlast, ?_⟩⟩ ?_
  · rw [hs]
    exact .single hstart (Nat.lt_of_lt_of_le hlt hle) (Nat.le_refl _)
  · rw [hs]
    exact hstop
  · refine .intro ?_ h.marked h.nested
    rw [hs]
    refine h.row.widen ?_ (Nat.le_refl _)
    rw [hm.reach_eq]
    exact Nat.le_of_lt hlt

end Cursor.Passes

/-- What a rule gives has been made of the tokens that it took, from every place among them. -/
def Parse.Yields {α : Type} (tokens : List Token) (rule : Parse α) (nodes : α → List Node) : Prop :=
  ∀ ⦃c a c'⦄, c.Ordered tokens → rule c = .ok a c' → c.Passes tokens (nodes a) c'

/-- A rule whose result is put into a larger one. -/
theorem Parse.Yields.map {α β : Type} {rule : Parse α} {g : α → β} {nodes : α → List Node}
    {nodes' : β → List Node} (h : Yields tokens rule nodes)
    (hg : ∀ a (c c' : Cursor), c.Passes tokens (nodes a) c' → c.Passes tokens (nodes' (g a)) c') :
    Yields tokens (rule >>= fun a => pure (g a)) nodes' := by
  intro c b c' hc hb
  simp only [bind_ok, pure_ok] at hb
  obtain ⟨a, c₁, ha, rfl, rfl⟩ := hb
  exact hg a _ _ (h hc ha)

theorem Parse.Yields.optional {α : Type} {rule : Parse α} {node : α → Node}
    (h : Yields tokens rule fun a => [node a]) :
    Yields tokens (rule >>= fun a => pure (some a)) fun found => found.toList.map node :=
  h.map fun _ _ _ h => h

namespace Grammar

open Cursor (Passes)

/-! Rules for expressions. -/

theorem atom?_span {e : Expr} (h : atom? token = some e) :
    (Node.expr e).children = [] ∧ e.span = token.span := by
  unfold atom? at h
  split at h
  · obtain ⟨value, -, rfl⟩ := Option.map_eq_some_iff.1 h
    exact ⟨rfl, rfl⟩
  · obtain ⟨value, -, rfl⟩ := Option.map_eq_some_iff.1 h
    exact ⟨rfl, rfl⟩
  · cases h
    exact ⟨rfl, rfl⟩
  · cases h
    exact ⟨rfl, rfl⟩
  · cases h
  · cases h

theorem atom_yields : Yields tokens atom ([.expr ·]) := by
  intro c e c' hc h
  rw [atom, bind_ok] at h
  obtain ⟨token, c₁, hadv, h⟩ := h
  have hm := advance_ok hadv
  cases ha : atom? token with
  | none => simp [ha] at h
  | some e' =>
    simp only [ha, pure_ok] at h
    obtain ⟨rfl, rfl⟩ := h
    obtain ⟨hparts, hspan⟩ := atom?_span ha
    refine .wrap hc hm ?_ ?_
    · rw [hparts]
      exact .refl (hc.moved hm)
    · rw [Cursor.spanFrom, hm.previousEnd_eq]
      exact hspan

section

variable {group : Parse Expr} (hg : Yields tokens group ([.expr ·]))

include hg

theorem primary_yields : Yields tokens (primary group) ([.expr ·]) := by
  intro c e c' hc h
  rw [primary, bind_ok] at h
  obtain ⟨token, c₁, hp, h⟩ := h
  obtain ⟨rfl, -⟩ := peek_ok hp
  cases hk : token.kind with
  | integer | float | string | identifier =>
    rw [hk] at h
    exact atom_yields hc h
  | keyword => simp [hk] at h
  | operator =>
    simp only [hk] at h
    split at h
    · exact hg hc h
    · simp at h

/-- An operator stands before its operand. -/
theorem unary_yields : Yields tokens (unary group) ([.expr ·]) := by
  intro c e c' hc h
  rw [unary, get_bind_run] at h
  cases hop : c.ahead.head?.bind Token.unaryOp? with
  | none =>
    rw [hop] at h
    exact primary_yields hg hc h
  | some op =>
    simp only [hop, bind_ok, pure_ok] at h
    obtain ⟨token, c₁, hadv, operand, c₂, hoperand, rfl, rfl⟩ := h
    have hm := advance_ok hadv
    obtain ⟨hmem, hstart, hlt⟩ := hc.taken hm
    have ho := primary_yields hg (hc.moved hm) hoperand
    have hmarked := List.forall_mem_singleton.1 ho.marked
    cases ho.row with
    | cons hbehind hinside hrest =>
      rw [hm.reach_eq] at hbehind
      have hbefore := Nat.lt_of_lt_of_le hlt hbehind
      have hparts := Row.single (Nat.le_of_lt hbefore) hinside (Nat.le_refl _)
      refine .single ho.ordered (.single hstart ?_ hrest.le) ⟨⟨token, hmem, rfl⟩, hmarked.stop⟩
        (.intro hparts ho.marked ho.nested)
      exact Nat.lt_trans hbefore hinside

theorem layered_yields {fold : Level → Expr → Parse Expr}
    (hf : ∀ ⦃level left c₀ c e c'⦄, Passes tokens c₀ [.expr left] c → fold level left c = .ok e c' →
      Passes tokens c₀ [.expr e] c')
    (levels : List Level) : Yields tokens (layered group fold levels) ([.expr ·]) := by
  induction levels with
  | nil => exact unary_yields hg
  | cons level tighter ih =>
    intro c e c' hc h
    rw [layered, bind_ok] at h
    obtain ⟨left, c₁, hleft, h⟩ := h
    exact hf (ih hc hleft) h

end

/-- A chain of operators starts with its first operand and stops with its last. -/
theorem binary_passes {left right : Expr} (op : BinaryOp)
    (h : c.Passes tokens [.expr left, .expr right] c') :
    c.Passes tokens
      [.expr (.binary left op right none ⟨left.span.start, right.span.stop⟩)] c' := by
  have hleft := h.marked (.expr left) (by simp)
  have hright := h.marked (.expr right) (by simp)
  cases h.row with
  | cons hstart hlt hrest =>
    cases hrest with
    | cons hbetween hlt' hhigh =>
      have hparts := Row.cons (Nat.le_refl _) hlt (.single hbetween hlt' (Nat.le_refl _))
      refine .single h.ordered (.single hstart ?_ hhigh.le) ⟨hleft.start, hright.stop⟩
        (.intro hparts h.marked h.nested)
      exact Nat.lt_trans hlt (Nat.lt_of_le_of_lt hbetween hlt')

/-- A chain is extended from where its first operand started, which may be several places before. -/
theorem group_fold_yield (levels : Nat) :
    Yields tokens (group levels) ([.expr ·]) ∧
      ∀ ⦃level left c₀ c e c'⦄, Passes tokens c₀ [.expr left] c →
        fold levels level left c = .ok e c' → Passes tokens c₀ [.expr e] c' := by
  induction levels with
  | zero =>
    refine ⟨fun c e c' _ h => (nomatch h), fun level left c₀ c e c' hl h => ?_⟩
    rw [fold, get_bind_run] at h
    cases hop : c.binaryOp? level with
    | none =>
      rw [hop] at h
      cases h
      exact hl
    | some op =>
      rw [hop] at h
      cases h
  | succ levels ih =>
    obtain ⟨hg, hf⟩ := ih
    constructor
    · intro c e c' hc h
      simp only [group, parenthesised, nested_ok, bind_ok, pure_ok] at h
      obtain ⟨opening, c₁, ho, expr, c₂, hx, closing, c₃, hclose, rfl, rfl⟩ := h
      have hopened := (Passes.refl hc).skip (expectOperator_ok ho).1
      have hinner := layered_yields hg hf _ hopened.ordered hx
      exact (hopened.trans hinner).skip (expectOperator_ok hclose).1
    · intro level left c₀ c e c' hl h
      rw [fold, get_bind_run] at h
      cases hop : c.binaryOp? level with
      | none =>
        rw [hop] at h
        cases h
        exact hl
      | some op =>
        simp only [hop, nested_ok, bind_ok] at h
        obtain ⟨token, c₁, hadv, right, c₂, hright, h⟩ := h
        have htaken := hl.skip (advance_ok hadv)
        have hr := layered_yields hg hf _ htaken.ordered hright
        exact hf (binary_passes op (htaken.trans hr)) h

theorem expression_yields (levels : Nat) : Yields tokens (expression levels) ([.expr ·]) :=
  layered_yields (group_fold_yield levels).1 (group_fold_yield levels).2 _

end Grammar

end MiniC
