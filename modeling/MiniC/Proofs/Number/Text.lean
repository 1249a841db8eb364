import MiniC.Number.Shortest

/-!
The texts of numbers. They are made of figures and a few signs and letters, so they stay on one
line, and the text of a whole number is read as that number again.
-/

namespace MiniC.Number

theorem newline_not_mem_toDigits (n : Nat) : '\n' ∉ Nat.toDigits 10 n := by
  intro h
  have hdigit := Nat.isDigit_of_mem_toDigits (by decide) (by decide) h
  exact absurd hdigit (by decide)

theorem newline_not_mem_repr (i : Int) : '\n' ∉ i.repr.toList := by
  rw [Int.repr_eq_if]
  split
  · rw [Nat.repr_eq_ofList_toDigits, String.toList_ofList]
    exact newline_not_mem_toDigits _
  · rw [Nat.repr_eq_ofList_toDigits, String.toList_append, String.toList_ofList]
    simpa using newline_not_mem_toDigits _

theorem Decimal.newline_not_mem_text (x : Decimal) : '\n' ∉ x.text.toList := by
  have hdigits := newline_not_mem_toDigits x.digits
  have htake (n : Nat) : '\n' ∉ (Nat.toDigits 10 x.digits).take n := fun h =>
    hdigits (List.mem_of_mem_take h)
  have hdrop (n : Nat) : '\n' ∉ (Nat.toDigits 10 x.digits).drop n := fun h =>
    hdigits (List.mem_of_mem_drop h)
  have htail : '\n' ∉ (Nat.toDigits 10 x.digits).tail := fun h => hdigits (List.mem_of_mem_tail h)
  simp only [text, String.toList_ofList]
  split
  · split
    · simp [htake, newline_not_mem_repr]
    · simp [htake, htail, newline_not_mem_repr]
  split
  · simp [hdigits]
  split
  · simp [htake, hdrop]
  · simp [hdigits]

theorem Binary64.newline_not_mem_text (x : Binary64) : '\n' ∉ x.text.toList := by
  have hsign : '\n' ∉ (if x.negative then "-" else "").toList := by
    split <;> decide
  have hmagnitude : '\n' ∉ (if x.significand = 0 then "0.0" else x.shortest.text).toList := by
    split
    · decide
    · exact x.shortest.newline_not_mem_text
  simp only [text]
  by_cases hfinite : x.isFinite
  · rw [if_pos hfinite, String.toList_append]
    exact List.not_mem_append hsign hmagnitude
  rw [if_neg hfinite]
  by_cases hzero : x.fraction = 0
  · rw [if_pos hzero, String.toList_append]
    exact List.not_mem_append hsign (by decide)
  · rw [if_neg hzero]
    decide

/-! Whole numbers are read back. -/

theorem isDigits_toDigits (n : Nat) : isDigits (Nat.toDigits 10 n) = true := by
  have hall : ∀ c ∈ Nat.toDigits 10 n, c.isDigit = true := fun c hc =>
    Nat.isDigit_of_mem_toDigits (by decide) (by decide) hc
  simpa [isDigits, Nat.toDigits_ne_nil] using hall

theorem splitSign_toDigits (n : Nat) :
    splitSign (Nat.toDigits 10 n) = (false, Nat.toDigits 10 n) := by
  have hhead : ∀ c ∈ Nat.toDigits 10 n, c ≠ '-' ∧ c ≠ '+' := by
    intro c hc
    have hdigit := Nat.isDigit_of_mem_toDigits (by decide) (by decide) hc
    constructor <;> rintro rfl <;> exact absurd hdigit (by decide)
  unfold splitSign
  split
  · next heq => exact absurd rfl (hhead '-' (by simp [heq])).1
  · next heq => exact absurd rfl (hhead '+' (by simp [heq])).2
  · rfl

theorem ofDigits_toDigits (n : Nat) : ofDigits (Nat.toDigits 10 n) = n :=
  Nat.ofDigitChars_toDigits (by decide) (by decide)

/-- A whole number that is written out is read as itself. -/
theorem readInt?_repr (i : Int) : readInt? i.repr.toList = some i := by
  rw [Int.repr_eq_if]
  split
  · rw [Nat.repr_eq_ofList_toDigits, String.toList_ofList]
    simp only [readInt?, splitSign_toDigits, isDigits_toDigits, ofDigits_toDigits, if_true,
      Bool.false_eq_true, if_false]
    exact congrArg some (Int.toNat_of_nonneg ‹_›)
  · have hminus : ("-" ++ (-i).toNat.repr).toList = '-' :: Nat.toDigits 10 (-i).toNat := by
      simp [Nat.repr_eq_ofList_toDigits]
    rw [hminus]
    simp only [readInt?, splitSign, isDigits_toDigits, ofDigits_toDigits, if_true]
    exact congrArg some (by omega)

end MiniC.Number
