/-!
Codes that are told from whatever follows them, so that what is written one after the other can be
read again.
-/

namespace MiniC.Text

variable {α β : Type} {mark : β} {before before' after after' : List β}

/-- Two texts with a mark that are equal are equal up to the first mark and after it. -/
theorem split_first (h : mark ∉ before) (h' : mark ∉ before')
    (heq : before ++ mark :: after = before' ++ mark :: after') :
    before = before' ∧ after = after' := by
  induction before generalizing before' with
  | nil =>
    cases before' with
    | nil => simpa using heq
    | cons b before' =>
      obtain ⟨rfl, -⟩ := List.cons.inj heq
      exact absurd List.mem_cons_self h'
  | cons a before ih =>
    cases before' with
    | nil =>
      obtain ⟨rfl, -⟩ := List.cons.inj heq
      exact absurd List.mem_cons_self h
    | cons b before' =>
      obtain ⟨rfl, htail⟩ := List.cons.inj heq
      obtain ⟨rfl, rfl⟩ := ih (List.not_mem_of_not_mem_cons h) (List.not_mem_of_not_mem_cons h')
        htail
      exact ⟨rfl, rfl⟩

/-- Two texts with a mark that are equal are equal up to the last mark and after it. -/
theorem split_last (h : mark ∉ after) (h' : mark ∉ after')
    (heq : before ++ mark :: after = before' ++ mark :: after') :
    before = before' ∧ after = after' := by
  have hrev : after.reverse ++ mark :: before.reverse = after'.reverse ++ mark :: before'.reverse :=
    by simpa using congrArg List.reverse heq
  obtain ⟨hafter, hbefore⟩ := split_first (by simpa using h) (by simpa using h') hrev
  exact ⟨List.reverse_inj.1 hbefore, List.reverse_inj.1 hafter⟩

/-- The codes of good values can be told from whatever follows them. -/
def Delimits (good : α → Prop) (code : α → List β) : Prop :=
  ∀ ⦃a a' rest rest'⦄, good a → good a' → code a ++ rest = code a' ++ rest' →
    a = a' ∧ rest = rest'

/-- What is written in such codes can be read again. -/
theorem Delimits.flatMap_inj {good : α → Prop} {code : α → List β} (h : Delimits good code)
    (hne : ∀ a, code a ≠ []) {list list' : List α} (hl : ∀ a ∈ list, good a)
    (hl' : ∀ a ∈ list', good a) (heq : list.flatMap code = list'.flatMap code) : list = list' := by
  induction list generalizing list' with
  | nil =>
    cases list' with
    | nil => rfl
    | cons b list' =>
      simp only [List.flatMap_nil, List.flatMap_cons] at heq
      exact absurd (List.append_eq_nil_iff.1 heq.symm).1 (hne b)
  | cons a list ih =>
    cases list' with
    | nil =>
      simp only [List.flatMap_nil, List.flatMap_cons] at heq
      exact absurd (List.append_eq_nil_iff.1 heq).1 (hne a)
    | cons b list' =>
      obtain ⟨ha, hlist⟩ := List.forall_mem_cons.1 hl
      obtain ⟨hb, hlist'⟩ := List.forall_mem_cons.1 hl'
      obtain ⟨rfl, hrest⟩ := h ha hb heq
      rw [ih hlist hlist' hrest]

end MiniC.Text
