import MiniC.Proofs.Typing.System
import MiniC.Typing.Node

/-!
The parts of the check that judge no tree: the tables of types decide the rules for operators and
values, and scopes behave as the contexts of the type system.
-/

namespace MiniC

open Typing

/-! The tables of types. -/

namespace DataType

variable {left right type target value : DataType} {operator : String} {position : Position}

theorem isNumeric_iff : type.isNumeric = true ↔ Numeric type := by
  constructor
  · cases type with
    | int => exact fun _ => .int
    | float => exact fun _ => .float
    | string | void => exact nofun
  · rintro (_ | _) <;> rfl

theorem join?_eq_some_iff : left.join? right = some type ↔ Joins left right type := by
  constructor
  · intro h
    cases left <;> cases right <;> cases h <;> constructor <;> decide
  · rintro (h | _ | _)
    · cases left <;> first | rfl | exact absurd rfl h
    · rfl
    · rfl

theorem accepts_iff : target.accepts value = true ↔ Fits target value := by
  constructor
  · intro h
    cases target <;> cases value <;> cases h <;> constructor <;> decide
  · rintro (h | _)
    · cases target <;> first | rfl | exact absurd rfl h
    · rfl

theorem combine_eq_ok_iff : left.combine right operator position = .ok type ↔
    Joins left right type := by
  rw [combine, ← join?_eq_some_iff]
  cases left.join? right <;> simp

theorem checkAccepts_eq_ok_iff : target.checkAccepts value position = .ok () ↔
    Fits target value := by
  rw [checkAccepts, ← accepts_iff]
  split <;> simp [*]

end DataType

theorem UnaryOp.apply?_eq_some_iff {op : UnaryOp} {operand type : DataType} :
    op.apply? operand = some type ↔ Applies op operand type := by
  unfold UnaryOp.apply?
  constructor
  · intro h
    split at h
    · next hn =>
      have hn := DataType.isNumeric_iff.1 hn
      cases op with
      | negate => exact Option.some.inj h ▸ .negate hn
      | not => exact Option.some.inj h ▸ .not hn
    · cases h
  · rintro (hn | hn)
    · rw [if_pos (DataType.isNumeric_iff.2 hn)]
    · rw [if_pos (DataType.isNumeric_iff.2 hn)]

/-! Scopes as contexts. -/

namespace Scopes

/-- The frames of the scopes that are open. -/
def context (scopes : Scopes) : Context :=
  (scopes.nested ++ [scopes.outermost]).map Scope.entries

variable {scopes scopes' outer : Scopes} {name : String} {type : DataType} {position : Position}

/-- Closing a scope gives back those that were open before. -/
theorem context_pop (h : scopes.context.tail = outer.context) :
    scopes.pop.context = outer.context := by
  rw [← h]
  cases hn : scopes.nested with
  | nil => simp [context, hn] at h
  | cons scope nested => simp [context, pop, hn]

theorem lookup_eq_some_iff :
    scopes.lookup name = some type ↔ Resolves name type scopes.context := by
  rw [lookup, context]
  -- any stack of scopes will do, as the search goes through them one by one
  induction scopes.nested ++ [scopes.outermost] with
  | nil => exact ⟨nofun, nofun⟩
  | cons scope rest ih =>
    rw [List.findSome?_cons, List.map_cons]
    cases hl : scope.lookup name with
    | some found =>
      constructor
      · intro h
        exact .here (hl.trans h)
      · rintro (h | ⟨h, _⟩)
        · exact hl.symm.trans h
        · cases hl.symm.trans h
    | none =>
      refine ih.trans ⟨fun h => .outer hl h, ?_⟩
      rintro (h | ⟨_, h⟩)
      · cases hl.symm.trans h
      · exact h

theorem fetch_eq_ok_iff : scopes.fetch name position = .ok type ↔
    Resolves name type scopes.context := by
  rw [fetch, ← lookup_eq_some_iff]
  cases scopes.lookup name <;> simp

/-- A declaration extends the innermost frame, which does not have the name. -/
theorem context_declare (h : scopes.declare name type position = .ok scopes') :
    ∃ frame rest, scopes.context = frame :: rest ∧ frame.lookup name = none ∧
      scopes'.context = ((name, type) :: frame) :: rest := by
  obtain ⟨outermost, nested, nextHeader⟩ := scopes
  -- without nested scopes the innermost frame is that of the global scope
  cases nested with
  | nil =>
    simp only [declare, declareGlobal, Scope.declare] at h
    split at h
    · cases h
    · next hn =>
      cases h
      exact ⟨outermost.entries, [], rfl, Option.not_isSome_iff_eq_none.1 hn, rfl⟩
  | cons scope nested =>
    simp only [declare, Scope.declare] at h
    split at h
    · cases h
    · next hn =>
      cases h
      exact ⟨scope.entries, _, rfl, Option.not_isSome_iff_eq_none.1 hn, rfl⟩

theorem declare_of_context {frame : Frame} {rest : Context} (position : Position)
    (h : scopes.context = frame :: rest) (hn : frame.lookup name = none) :
    ∃ scopes', scopes.declare name type position = .ok scopes' ∧
      scopes'.context = ((name, type) :: frame) :: rest := by
  obtain ⟨outermost, nested, nextHeader⟩ := scopes
  cases nested with
  | nil =>
    cases h
    simp only [declare, declareGlobal, Scope.declare, Scope.lookup, hn]
    exact ⟨_, rfl, rfl⟩
  | cons scope nested =>
    cases h
    simp only [declare, Scope.declare, Scope.lookup, hn]
    exact ⟨_, rfl, rfl⟩

end Scopes

end MiniC
