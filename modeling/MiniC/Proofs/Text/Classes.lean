import MiniC.Text.Lexical

/-!
How the classes of characters lie to each other: digits are word characters, and white space is
not. ASCII is decided character by character, the rest by comparing the tables range by range.
-/

namespace MiniC.Text

/-- What holds of each ASCII code point holds of each ASCII character. -/
theorem forall_ascii {P : Char → Prop} (h : ∀ n < 0x80, P (Char.ofNat n)) {c : Char}
    (hc : c.toNat < 0x80) : P c :=
  Char.ofNat_toNat c ▸ h c.toNat hc

namespace Ranges

variable {ranges ranges' : Ranges} {ascii ascii' : Char → Bool} {c : Char}

theorem has_iff : ranges.has c = true ↔
    ∃ range ∈ ranges, range.1 ≤ c.toNat ∧ c.toNat ≤ range.2 := by
  simp [has]

/-- Every range lies in a range of the other table. Both tables ascend, so the ranges passed over
for one range are not looked at again for the next. -/
def within : Ranges → Ranges → Bool
  | [], _ => true
  | range :: ranges, others =>
    match others.dropWhile fun other => Nat.blt other.2 range.2 with
    | [] => false
    | other :: rest => Nat.ble other.1 range.1 && within ranges (other :: rest)

/-- No range meets a range of the other table. -/
def apart (ranges ranges' : Ranges) : Bool :=
  ranges.all fun range => ranges'.all fun range' =>
    Nat.blt range.2 range'.1 || Nat.blt range'.2 range.1

theorem has_of_within (h : ranges.within ranges' = true) (hc : ranges.has c = true) :
    ranges'.has c = true := by
  induction ranges generalizing ranges' with
  | nil => simp [has] at hc
  | cons range ranges ih =>
    rw [within] at h
    have hhead := List.head?_dropWhile_not (fun other => Nat.blt other.2 range.2) ranges'
    have hsub := (ranges'.dropWhile_suffix fun other => Nat.blt other.2 range.2).subset
    split at h
    · cases h
    · next other rest hd =>
      rw [hd] at hhead hsub
      simp only [List.head?_cons, Bool.eq_false_iff, ne_eq, Nat.blt_eq, Nat.not_lt] at hhead
      simp only [Bool.and_eq_true, Nat.ble_eq] at h
      obtain ⟨range', hr', hlo, hhi⟩ := has_iff.1 hc
      rcases List.mem_cons.1 hr' with rfl | hr'
      · exact has_iff.2 ⟨other, hsub List.mem_cons_self, Nat.le_trans h.1 hlo,
          Nat.le_trans hhi hhead⟩
      · obtain ⟨found, hf, hin⟩ := has_iff.1 (ih h.2 (has_iff.2 ⟨range', hr', hlo, hhi⟩))
        exact has_iff.2 ⟨found, hsub hf, hin⟩

theorem not_has_of_apart (h : ranges.apart ranges' = true) (hc : ranges.has c = true) :
    ranges'.has c = false := by
  obtain ⟨range, hr, hlo, hhi⟩ := has_iff.1 hc
  simp only [apart, List.all_eq_true, Bool.or_eq_true, Nat.blt_eq] at h
  rw [Bool.eq_false_iff, ne_eq, has_iff]
  rintro ⟨range', hr', hlo', hhi'⟩
  have := h range hr range' hr'
  omega

theorem classify_of_within
    (ha : ∀ n < 0x80, ascii (Char.ofNat n) = true → ascii' (Char.ofNat n) = true)
    (h : ranges.within ranges' = true) (hc : ranges.classify ascii c = true) :
    ranges'.classify ascii' c = true := by
  rw [classify] at hc ⊢
  split at hc
  · next hlt =>
    rw [if_pos hlt]
    exact forall_ascii (P := fun c => ascii c = true → ascii' c = true) ha hlt hc
  · next hge =>
    rw [if_neg hge]
    exact has_of_within h hc

theorem not_classify_of_apart
    (ha : ∀ n < 0x80, ascii (Char.ofNat n) = true → ascii' (Char.ofNat n) = false)
    (h : ranges.apart ranges' = true) (hc : ranges.classify ascii c = true) :
    ranges'.classify ascii' c = false := by
  rw [classify] at hc ⊢
  split at hc
  · next hlt =>
    rw [if_pos hlt]
    exact forall_ascii (P := fun c => ascii c = true → ascii' c = false) ha hlt hc
  · next hge =>
    rw [if_neg hge]
    exact not_has_of_apart h hc

end Ranges

theorem isWord_of_isDecimalDigit {c : Char} (h : isDecimalDigit c = true) : isWord c = true :=
  Ranges.classify_of_within (by decide +kernel) (by decide +kernel) h

theorem not_isWord_of_isWhiteSpace {c : Char} (h : isWhiteSpace c = true) : isWord c = false :=
  Ranges.not_classify_of_apart (by decide +kernel) (by decide +kernel) h

end MiniC.Text
