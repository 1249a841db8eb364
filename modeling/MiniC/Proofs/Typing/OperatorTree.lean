import MiniC.Proofs.Typing.Check

/-!
Types of operator trees. The operands of nested binary operations, taken together, decide whether
the whole has a type and which: neither the operators nor their nesting matter.
-/

namespace MiniC

open Typing

/-- The operands of an operator tree from left to right: the greatest parts that are no binary
operation. -/
def Expr.atoms : Expr → List Expr
  | .binary left _ right _ _ => left.atoms ++ right.atoms
  | e => [e]

/-- The type that atoms give to the operator tree over them. -/
inductive Blends (scopes : Scopes) (atoms : List Expr) : DataType → Prop where
  | strings : (∀ atom ∈ atoms, (atom.check scopes).2 = .ok .string) → Blends scopes atoms .string
  | floats :
      (∀ atom ∈ atoms, (atom.check scopes).2 = .ok .int ∨ (atom.check scopes).2 = .ok .float) →
      (∃ atom ∈ atoms, (atom.check scopes).2 = .ok .float) → Blends scopes atoms .float
  | ints : (∀ atom ∈ atoms, (atom.check scopes).2 = .ok .int) → Blends scopes atoms .int

variable {scopes : Scopes} {type : DataType}

/-! One operation. -/

theorem Typing.Joins.ne_void {left right type : DataType} (h : Joins left right type) :
    left ≠ .void ∧ right ≠ .void ∧ type ≠ .void := by
  cases h with
  | same hne => exact ⟨hne, hne, hne⟩
  | left | right => decide

theorem Expr.check_eq_ok_iff {e : Expr} :
    (e.check scopes).2 = .ok type ↔ HasType anything scopes.context e type := by
  constructor
  · intro h
    exact (Expr.check_finds (Prod.ext rfl h : e.check scopes = (_, .ok type))).1
  · intro h
    obtain ⟨e', he⟩ := Expr.check_of_hasType h
    rw [he]

theorem Expr.check_binary_eq_ok_iff {left right : Expr} {op : BinaryOp} {mark : Option DataType}
    {span : Span} : ((Expr.binary left op right mark span).check scopes).2 = .ok type ↔
      ∃ leftType rightType, (left.check scopes).2 = .ok leftType ∧
        (right.check scopes).2 = .ok rightType ∧ Joins leftType rightType type := by
  simp only [check_eq_ok_iff]
  constructor
  · rintro (_ | _ | _ | _ | ⟨hl, hr, hj, -⟩)
    exact ⟨_, _, hl, hr, hj⟩
  · rintro ⟨leftType, rightType, hl, hr, hj⟩
    exact .binary hl hr hj trivial

theorem Typing.HasType.dataType?_eq {context : Context} {e : Expr}
    (h : HasType exactly context e type) : e.dataType? = some type := by
  cases h with
  | integer | float | string => rfl
  | symbol _ hm | binary _ _ _ hm | unary _ _ hm => exact hm

/-- A check that succeeds leaves the type in the expression. -/
theorem Expr.check_records {e : Expr} (h : (e.check scopes).2 = .ok type) :
    (e.check scopes).1.dataType? = some type := by
  obtain ⟨-, hmarked, -⟩ := Expr.check_finds (Prod.ext rfl h : e.check scopes = (_, .ok type))
  exact hmarked.dataType?_eq

/-! Many atoms. -/

namespace Blends

variable {atoms atoms' : List Expr}

theorem ne_void (h : Blends scopes atoms type) : type ≠ .void := by
  cases h <;> decide

/-- Only which atoms there are matters. -/
theorem congr (h : Blends scopes atoms type) (hmem : ∀ atom, atom ∈ atoms' ↔ atom ∈ atoms) :
    Blends scopes atoms' type := by
  cases h with
  | strings h => exact .strings fun atom ha => h atom ((hmem atom).1 ha)
  | floats h hf =>
    obtain ⟨atom, ha, hfloat⟩ := hf
    exact .floats (fun atom ha => h atom ((hmem atom).1 ha)) ⟨atom, (hmem atom).2 ha, hfloat⟩
  | ints h => exact .ints fun atom ha => h atom ((hmem atom).1 ha)

theorem single {e : Expr} (hne : type ≠ .void) :
    (e.check scopes).2 = .ok type ↔ Blends scopes [e] type := by
  constructor
  · intro h
    cases type with
    | int => exact .ints (by simpa using h)
    | float => exact .floats (by simpa using .inr h) ⟨e, List.mem_singleton_self e, h⟩
    | string => exact .strings (by simpa using h)
    | void => exact absurd rfl hne
  · rintro (h | ⟨-, atom, ha, h⟩ | h)
    · exact h e (List.mem_singleton_self e)
    · rwa [List.mem_singleton.1 ha] at h
    · exact h e (List.mem_singleton_self e)

/-- Numbers blend, to `float` if there is one among them. -/
theorem of_numbers (h : ∀ atom ∈ atoms,
    (atom.check scopes).2 = .ok .int ∨ (atom.check scopes).2 = .ok .float) :
    Blends scopes atoms .float ∨ Blends scopes atoms .int := by
  by_cases hf : ∃ atom ∈ atoms, (atom.check scopes).2 = .ok .float
  · exact .inl (.floats h hf)
  · refine .inr (.ints fun atom ha => (h atom ha).resolve_right fun hfloat => ?_)
    exact hf ⟨atom, ha, hfloat⟩

theorem ints_numbers (h : ∀ atom ∈ atoms, (atom.check scopes).2 = .ok .int) :
    ∀ atom ∈ atoms, (atom.check scopes).2 = .ok .int ∨ (atom.check scopes).2 = .ok .float :=
  fun atom ha => .inl (h atom ha)

theorem floats_append
    (h : ∀ atom ∈ atoms, (atom.check scopes).2 = .ok .int ∨ (atom.check scopes).2 = .ok .float)
    (h' : ∀ atom ∈ atoms', (atom.check scopes).2 = .ok .int ∨ (atom.check scopes).2 = .ok .float)
    (hf : (∃ atom ∈ atoms, (atom.check scopes).2 = .ok .float) ∨
      ∃ atom ∈ atoms', (atom.check scopes).2 = .ok .float) :
    Blends scopes (atoms ++ atoms') .float := by
  refine .floats (List.forall_mem_append.2 ⟨h, h'⟩) ?_
  rcases hf with ⟨atom, ha, hfloat⟩ | ⟨atom, ha, hfloat⟩
  · exact ⟨atom, List.mem_append_left atoms' ha, hfloat⟩
  · exact ⟨atom, List.mem_append_right atoms ha, hfloat⟩

/-- The atoms of two parts blend to what joins the types of the parts. -/
theorem append_iff : Blends scopes (atoms ++ atoms') type ↔
    ∃ leftType rightType, Blends scopes atoms leftType ∧ Blends scopes atoms' rightType ∧
      Joins leftType rightType type := by
  constructor
  · rintro (h | ⟨h, atom, ha, hfloat⟩ | h)
    · rw [List.forall_mem_append] at h
      exact ⟨.string, .string, .strings h.1, .strings h.2, .same (by decide)⟩
    · rw [List.forall_mem_append] at h
      -- one part has the `float`, the other may have one
      rcases List.mem_append.1 ha with ha | ha
      · have hl := Blends.floats h.1 ⟨atom, ha, hfloat⟩
        rcases of_numbers h.2 with hr | hr
        · exact ⟨.float, .float, hl, hr, .same (by decide)⟩
        · exact ⟨.float, .int, hl, hr, .right⟩
      · have hr := Blends.floats h.2 ⟨atom, ha, hfloat⟩
        rcases of_numbers h.1 with hl | hl
        · exact ⟨.float, .float, hl, hr, .same (by decide)⟩
        · exact ⟨.int, .float, hl, hr, .left⟩
    · rw [List.forall_mem_append] at h
      exact ⟨.int, .int, .ints h.1, .ints h.2, .same (by decide)⟩
  · rintro ⟨leftType, rightType, hl, hr, hj⟩
    cases hj with
    | same =>
      cases hl with
      | strings h =>
        cases hr with
        | strings h' => exact .strings (List.forall_mem_append.2 ⟨h, h'⟩)
      | floats h hf =>
        cases hr with
        | floats h' _ => exact floats_append h h' (.inl hf)
      | ints h =>
        cases hr with
        | ints h' => exact .ints (List.forall_mem_append.2 ⟨h, h'⟩)
    | left =>
      cases hl with
      | ints h =>
        cases hr with
        | floats h' hf => exact floats_append (ints_numbers h) h' (.inr hf)
    | right =>
      cases hl with
      | floats h hf =>
        cases hr with
        | ints h' => exact floats_append h (ints_numbers h') (.inl hf)

end Blends

theorem Expr.check_eq_ok_iff_blends (e : Expr) (hne : type ≠ .void) :
    (e.check scopes).2 = .ok type ↔ Blends scopes e.atoms type := by
  induction e generalizing type with
  | integer | float | string | symbol | unary => exact Blends.single hne
  | binary left op right mark span ihl ihr =>
    rw [check_binary_eq_ok_iff, atoms, Blends.append_iff]
    constructor
    · rintro ⟨leftType, rightType, hl, hr, hj⟩
      exact ⟨leftType, rightType, (ihl hj.ne_void.1).1 hl, (ihr hj.ne_void.2.1).1 hr, hj⟩
    · rintro ⟨leftType, rightType, hl, hr, hj⟩
      exact ⟨leftType, rightType, (ihl hj.ne_void.1).2 hl, (ihr hj.ne_void.2.1).2 hr, hj⟩

/-- An operator tree is never `void`. -/
theorem Expr.check_tree_eq_ok_iff {e : Expr} (htree : 2 ≤ e.atoms.length) :
    (e.check scopes).2 = .ok type ↔ Blends scopes e.atoms type := by
  cases e with
  | integer | float | string | symbol | unary => simp [atoms] at htree
  | binary left op right mark span =>
    constructor
    · intro h
      obtain ⟨_, _, _, _, hj⟩ := check_binary_eq_ok_iff.1 h
      exact (check_eq_ok_iff_blends _ hj.ne_void.2.2).1 h
    · intro h
      exact (check_eq_ok_iff_blends _ h.ne_void).2 h

/-- An expression has atoms. -/
theorem Expr.atoms_length_pos (e : Expr) : 0 < e.atoms.length := by
  induction e with
  | integer | float | string | symbol | unary => exact Nat.one_pos
  | binary left op right mark span ihl ihr =>
    rw [atoms, List.length_append]
    omega

/-- The type of an operator tree depends on the types of its atoms only. The tree has a type exactly
when its atoms are all strings or all numbers; the type is found and recorded, and is `string` for
strings, `float` for numbers of which one is a `float`, and `int` for other numbers. So trees over
the same atoms, in whatever order and nesting and with whatever operators, have the same type or
none. -/
theorem Expr.type_of_atoms (scopes : Scopes) (left : Expr) (op : BinaryOp) (right : Expr)
    (mark : Option DataType) (span : Span) :
    let e := Expr.binary left op right mark span
    ((∃ type, (e.check scopes).2 = .ok type) ↔
      (∀ atom ∈ e.atoms, (atom.check scopes).2 = .ok .string) ∨
      (∀ atom ∈ e.atoms,
        (atom.check scopes).2 = .ok .int ∨ (atom.check scopes).2 = .ok .float)) ∧
    (∀ type, (e.check scopes).2 = .ok type →
      (e.check scopes).1.dataType? = some type ∧ Blends scopes e.atoms type) ∧
    ∀ e' : Expr, e'.atoms.Perm e.atoms → ∀ type,
      (e'.check scopes).2 = .ok type ↔ (e.check scopes).2 = .ok type := by
  intro e
  have htree : 2 ≤ e.atoms.length := by
    have hl := left.atoms_length_pos
    have hr := right.atoms_length_pos
    rw [show e.atoms = left.atoms ++ right.atoms from rfl, List.length_append]
    omega
  refine ⟨?_, fun type h => ⟨check_records h, (check_tree_eq_ok_iff htree).1 h⟩,
    fun e' hperm type => ?_⟩
  · simp only [check_tree_eq_ok_iff htree]
    constructor
    · rintro ⟨type, h | ⟨h, -⟩ | h⟩
      · exact .inl h
      · exact .inr h
      · exact .inr (Blends.ints_numbers h)
    · rintro (h | h)
      · exact ⟨.string, .strings h⟩
      · rcases Blends.of_numbers h with h | h
        · exact ⟨.float, h⟩
        · exact ⟨.int, h⟩
  · have htree' : 2 ≤ e'.atoms.length := hperm.length_eq ▸ htree
    rw [check_tree_eq_ok_iff htree, check_tree_eq_ok_iff htree']
    constructor
    · intro h
      exact h.congr fun atom => hperm.mem_iff.symm
    · intro h
      exact h.congr fun atom => hperm.mem_iff

/-- Two trees over the same variables and literal, of which one variable is a `float`. -/
theorem Expr.type_of_atoms_numbers :
    let scopes : Scopes := ⟨⟨0, [("x", .int)]⟩, [⟨1, [("y", .float)]⟩], -1⟩
    let span : Span := ⟨⟨0, "f"⟩, ⟨1, "f"⟩⟩
    let x : Expr := .symbol "x" none span
    let y : Expr := .symbol "y" none span
    let one : Expr := .integer 1 span
    let e := Expr.binary x .plus (.binary one .times y none span) none span
    let e' := Expr.binary (.binary y .less one none span) .minus x none span
    (e.check scopes).2 = .ok .float ∧ e'.atoms.Perm e.atoms ∧
      (e.check scopes).1.dataType? = some .float ∧ Blends scopes e.atoms .float ∧
      (e'.check scopes).2 = .ok .float := by
  intro scopes span x y one e e'
  have h : (e.check scopes).2 = .ok .float := rfl
  have hperm : e'.atoms.Perm e.atoms := by decide
  obtain ⟨-, hfound, hsame⟩ :=
    type_of_atoms scopes x .plus (.binary one .times y none span) none span
  obtain ⟨hrecorded, hblends⟩ := hfound .float h
  exact ⟨h, hperm, hrecorded, hblends, (hsame e' hperm .float).2 h⟩

end MiniC
