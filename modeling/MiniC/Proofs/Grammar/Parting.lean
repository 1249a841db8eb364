import MiniC.Proofs.Grammar.LockstepStatement

/-!
Runs over tokens that start alike. The first run can be told from the second only once it looks past
the tokens they share, so what it has completed before stands, and an error that it has found before
is found again, whatever the tokens after it are.
-/

namespace MiniC

open Grammar

/-- Two cursors with the same tokens behind them. The tokens ahead are the same up to where `x` is
left for the first and `y` for the second. -/
structure Parting (x y : List Token) (c d : Cursor) : Prop where
  ahead : ∃ shared, c.ahead = shared ++ x ∧ d.ahead = shared ++ y
  behind : d.behind = c.behind
  nextId : d.nextId = c.nextId
  file : d.file = c.file

namespace Parting

variable {x y tokens tokens' : List Token} {c d : Cursor}

theorem start (file : String) (h : ∃ shared, tokens = shared ++ x ∧ tokens' = shared ++ y) :
    Parting x y (.start file tokens) (.start file tokens') :=
  ⟨h, rfl, rfl, rfl⟩

theorem previousEnd (h : Parting x y c d) : c.previousEnd = d.previousEnd := by
  simp only [Cursor.previousEnd, h.behind, h.file]

/-- Both runs see the same until only what is not shared is left. -/
theorem facing (h : Parting x y c d) : c.ahead <:+ x ∨ Facing {} {} (Parting x y) c d := by
  obtain ⟨shared, hc, hd⟩ := h.ahead
  cases shared with
  | nil => exact .inl ⟨[], hc⟩
  | cons token shared =>
    refine .inr (.token hc hd rfl ⟨⟨shared, rfl, rfl⟩, ?_, h.nextId, h.file⟩)
    simp [Cursor.passed, h.behind]

/-- If all tokens of the first run are shared, no `else` is seen at their end. -/
theorem noElse (h : Parting x y c d) (hp : c.ahead <:+ x) (hl : ¬(x ≠ [] ∨ ¬Language.NoElse y)) :
    c.atKeyword "else" = false ∧ d.atKeyword "else" = false := by
  simp only [not_or, ne_eq, Classical.not_not] at hl
  obtain ⟨rfl, hy⟩ := hl
  have hc : c.ahead = [] := List.suffix_nil.1 hp
  obtain ⟨shared, hshared, hd⟩ := h.ahead
  have hnil : shared = [] := by simpa [hc] using hshared
  rw [hnil, List.nil_append] at hd
  refine ⟨Cursor.atKeyword_nil hc "else", ?_⟩
  rw [Bool.eq_false_iff]
  intro hat
  obtain ⟨token, rest, ha, ht⟩ := Cursor.exists_of_atKeyword hat
  exact hy token (by rw [← hd, ha, List.head?_cons]; rfl) ht

end Parting

namespace Comparison

/-- Compares runs over tokens that part; the second run has `spare` levels more. -/
def parting (x y : List Token) (spare : Nat) : Comparison where
  spare := spare
  left := {}
  right := {}
  near _ := Parting x y
  past c := c.ahead <:+ x
  loose := x ≠ [] ∨ ¬Language.NoElse y
  near_fresh h := h
  facing := Parting.facing
  previousEnd := Parting.previousEnd
  past_of_suffix hp hs := hs.trans hp
  loose_of_past hp hne := .inl fun hx => hne (List.suffix_nil.1 (hx ▸ hp))
  left_eq_right _ := rfl
  noElse := Parting.noElse

theorem parting_countsIds (x y : List Token) (spare : Nat) : (parting x y spare).CountsIds := by
  intro c d h
  refine ⟨?_, h.ahead, h.behind, ?_, h.file⟩
  · simp [parting, h.nextId]
  · simp [h.nextId]

end Comparison

namespace Parting

variable {x y : List Token} {c c' d : Cursor} {levels : Nat} {stmts : List Stmt}

/-- Statements that are completed before the tokens part are completed in both runs. -/
theorem completes (h : Parting x y c d) (hc : Completes levels c stmts c')
    (hp : (x ≠ [] ∨ ¬Language.NoElse y) → ¬c'.ahead <:+ x) (spare : Nat) :
    ∃ d', Completes (levels + spare) d stmts d' ∧ Parting x y c' d' := by
  obtain ⟨stmts', d', hc', hview, hn⟩ :=
    Comparison.completes_alike (Comparison.parting_countsIds x y spare) hc h hp
  have hsame : stmts = stmts' := by
    rw [← relabelAll_keep stmts, ← relabelAll_keep stmts']
    exact hview
  exact ⟨d', hsame ▸ hc', hn⟩

/-- An error that is found before the tokens part is found in both runs. -/
theorem statement_error (h : Parting x y c d) {failure : Diagnostic}
    (hs : statement .standard levels c = .error failure c') (spare : Nat)
    (hv : ¬(Comparison.parting x y spare).Void failure c') :
    ∃ d', statement .standard (levels + spare) d = .error failure d' := by
  obtain ⟨failure', d', hs', hf⟩ :=
    Comparison.statement_fails_alike (Comparison.parting_countsIds x y spare) _ h hs hv
  have hsame : failure = failure' := hf
  exact ⟨d', hsame ▸ hs'⟩

end Parting

end MiniC
