import MiniC.Source.Position
import Mathlib.Data.List.Pairwise

/-!
Spans in a row: none is empty, and each ends no later than the next one starts.
-/

namespace MiniC

/-- Between two offsets these spans follow one another. -/
inductive Row : Nat → List Span → Nat → Prop where
  | nil {low high : Nat} : low ≤ high → Row low [] high
  | cons {low high : Nat} {span : Span} {spans : List Span} : low ≤ span.start.offset.toNat →
      span.start.offset.toNat < span.stop.offset.toNat → Row span.stop.offset.toNat spans high →
      Row low (span :: spans) high

namespace Row

variable {low mid high low' high' : Nat} {span : Span} {spans spans' : List Span}

theorem single (hlow : low ≤ span.start.offset.toNat)
    (hspan : span.start.offset.toNat < span.stop.offset.toNat)
    (hhigh : span.stop.offset.toNat ≤ high) : Row low [span] high :=
  .cons hlow hspan (.nil hhigh)

theorem le (h : Row low spans high) : low ≤ high := by
  induction h with
  | nil h => exact h
  | cons hlow hspan _ ih => omega

/-- There may be more room on both sides. -/
theorem widen (h : Row low spans high) (hlow : low' ≤ low) (hhigh : high ≤ high') :
    Row low' spans high' := by
  induction h generalizing low' with
  | nil h => exact .nil (by omega)
  | cons hstart hspan _ ih => exact .cons (by omega) hspan (ih (Nat.le_refl _) hhigh)

theorem append (h : Row low spans mid) (h' : Row mid spans' high) :
    Row low (spans ++ spans') high := by
  induction h with
  | nil hle => exact h'.widen hle (Nat.le_refl _)
  | cons hlow hspan _ ih => exact .cons hlow hspan (ih h')

/-- Each span of a row lies between its ends. -/
theorem mem (h : Row low spans high) (hs : span ∈ spans) :
    low ≤ span.start.offset.toNat ∧ span.start.offset.toNat < span.stop.offset.toNat ∧
      span.stop.offset.toNat ≤ high := by
  induction h with
  | nil => cases hs
  | cons hlow hspan hrest ih =>
    rcases List.mem_cons.1 hs with rfl | hs
    · exact ⟨hlow, hspan, hrest.le⟩
    · obtain ⟨hstart, hlt, hstop⟩ := ih hs
      exact ⟨by omega, hlt, hstop⟩

theorem pairwise (h : Row low spans high) :
    spans.Pairwise fun span next => span.stop.offset.toNat ≤ next.start.offset.toNat := by
  induction h with
  | nil => exact .nil
  | cons _ _ hrest ih => exact .cons (fun next hnext => (hrest.mem hnext).1) ih

end Row

end MiniC
