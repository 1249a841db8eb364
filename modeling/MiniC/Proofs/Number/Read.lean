import MiniC.Number.Decimal
import MiniC.Proofs.Token.Lexeme
import Mathlib.Data.Nat.Digits.Defs

/-!
Numerals made of decimal digits. A scan takes the digits of every script for numbers, but only ASCII
digits have a value, so a numeral with any other digit in it cannot be read.
-/

namespace MiniC.Number

open Text
open Token (Digits)

variable {c : Char} {digits rest whole fraction : List Char}

/-- All characters are ASCII. -/
def Ascii (text : List Char) : Prop :=
  ∀ c ∈ text, c.toNat < 0x80

instance : DecidablePred Ascii :=
  List.decidableBAll fun c : Char => c.toNat < 0x80

/-- The number that ASCII digits write in base ten, the last of them counting ones. -/
def decimal (digits : List Char) : Nat :=
  Nat.ofDigits 10 (digits.reverse.map fun c => c.toNat - '0'.toNat)

/-- The number that ASCII digits on both sides of a point write. -/
def Decimal.ofFigures (whole fraction : List Char) : Decimal :=
  ⟨decimal (whole ++ fraction), -fraction.length⟩

/-- Digits taken up from the left make the same number. -/
theorem ofDigits_eq_decimal (digits : List Char) : ofDigits digits = decimal digits := by
  rw [ofDigits, decimal, Nat.ofDigits_eq_foldr, List.foldr_map, List.foldr_reverse]
  simp only [Nat.cast_id, Nat.add_comm]

/-! Which decimal digits are read. -/

theorem isDigit_iff_ascii (h : isDecimalDigit c = true) : c.isDigit = true ↔ c.toNat < 0x80 := by
  constructor
  · intro hd
    exact Token.toNat_lt_of_isNameChar (Token.isNameChar_iff.2 (.inr (Token.isDigit_iff.1 hd)))
  · intro hlt
    simpa [isDecimalDigit, Ranges.classify, hlt] using h

theorem forall_isDigit_iff_ascii (h : ∀ c ∈ digits, isDecimalDigit c = true) :
    (∀ c ∈ digits, c.isDigit = true) ↔ Ascii digits :=
  forall₂_congr fun c hc => isDigit_iff_ascii (h c hc)

theorem isDigits_iff (h : Digits digits) : isDigits digits = true ↔ Ascii digits := by
  simp [isDigits, h.1, forall_isDigit_iff_ascii h.2]

/-- Reading stops in front of the first digit that is not ASCII. -/
theorem dropWhile_isDigit_of_not_ascii (h : ∀ c ∈ digits, isDecimalDigit c = true)
    (ha : ¬Ascii digits) (rest : List Char) :
    ∃ c tail, (digits ++ rest).dropWhile Char.isDigit = c :: tail ∧ 0x80 ≤ c.toNat := by
  have hstop := List.head?_dropWhile_not Char.isDigit digits
  have hsub := (digits.dropWhile_suffix Char.isDigit).subset
  rw [List.dropWhile_append]
  cases hd : digits.dropWhile Char.isDigit with
  | nil => exact absurd ((forall_isDigit_iff_ascii h).1 (List.dropWhile_eq_nil_iff.1 hd)) ha
  | cons c tail =>
    rw [hd] at hstop hsub
    refine ⟨c, tail ++ rest, by simp, ?_⟩
    have hc : isDecimalDigit c = true := h c (hsub List.mem_cons_self)
    have hnot : ¬c.isDigit = true := by simpa using hstop
    exact Nat.le_of_not_lt fun hlt => hnot ((isDigit_iff_ascii hc).2 hlt)

/-! Whole numbers. -/

theorem splitSign_digit (h : isDecimalDigit c = true) (rest : List Char) :
    splitSign (c :: rest) = (false, c :: rest) := by
  unfold splitSign
  split
  · next heq =>
    cases heq
    exact absurd h (by decide)
  · next heq =>
    cases heq
    exact absurd h (by decide)
  · rfl

theorem splitSign_append (h : Digits digits) (rest : List Char) :
    splitSign (digits ++ rest) = (false, digits ++ rest) := by
  cases digits with
  | nil => exact absurd rfl h.1
  | cons c digits => exact splitSign_digit (h.2 c List.mem_cons_self) (digits ++ rest)

theorem readInt?_digits (h : Digits digits) :
    readInt? digits = if Ascii digits then some (decimal digits : Int) else none := by
  have hs : splitSign digits = (false, digits) := by simpa using splitSign_append h []
  simp only [readInt?, hs, isDigits_iff h, ofDigits_eq_decimal, Bool.false_eq_true, if_false]

/-- Digits are read as the number they write, if they are ASCII and the number fits. They have no
sign, so the least number of 64 bits is no bound on what is read. -/
theorem readInt64?_digits {text : String} (h : Digits text.toList) :
    readInt64? text =
      if Ascii text.toList ∧ decimal text.toList ≤ 2 ^ 63 - 1 then
        some (.ofInt (decimal text.toList))
      else none := by
  by_cases ha : Ascii text.toList
  · have hmin : Int64.minValue.toInt = -2 ^ 63 := by decide
    have hmax : Int64.maxValue.toInt = 2 ^ 63 - 1 := by decide
    have hfits : Int64.minValue.toInt ≤ (decimal text.toList : Int) ∧
        (decimal text.toList : Int) ≤ Int64.maxValue.toInt ↔
          Ascii text.toList ∧ decimal text.toList ≤ 2 ^ 63 - 1 := by
      rw [hmin, hmax, and_iff_right ha]
      omega
    simp only [readInt64?, readInt?_digits h, if_pos ha, Option.bind_eq_bind, Option.bind_some,
      hfits]
  · rw [if_neg fun hfits => ha hfits.1, readInt64?, readInt?_digits h, if_neg ha]
    rfl

theorem exists_readInt64?_iff {text : String} (h : Digits text.toList) :
    (∃ v : Int64, v.toInt = decimal text.toList ∧ readInt64? text = some v) ↔
      Ascii text.toList ∧ decimal text.toList ≤ 2 ^ 63 - 1 := by
  rw [readInt64?_digits h]
  split
  · next hfits =>
    exact iff_of_true ⟨_, Int64.toInt_ofInt_of_le (by omega) (by omega), rfl⟩ hfits
  · next hnot =>
    refine iff_of_false ?_ hnot
    rintro ⟨v, -, hv⟩
    cases hv

theorem readInt64?_eq_none_iff {text : String} (h : Digits text.toList) :
    readInt64? text = none ↔ ¬(Ascii text.toList ∧ decimal text.toList ≤ 2 ^ 63 - 1) := by
  rw [readInt64?_digits h]
  split
  · next hfits => exact iff_of_false (by simp) (not_not_intro hfits)
  · next hnot => exact iff_of_true rfl hnot

/-! Fractions. -/

theorem readExponent?_of_not_ascii (h : 0x80 ≤ c.toNat) (rest : List Char) :
    readExponent? (c :: rest) = none := by
  have hne : ¬(c = 'e' ∨ c = 'E') := by
    rintro (rfl | rfl)
    · exact absurd h (by decide)
    · exact absurd h (by decide)
  simp [readExponent?, hne]

theorem ascii_fraction_iff : Ascii (whole ++ '.' :: fraction) ↔ Ascii whole ∧ Ascii fraction := by
  have hpoint : '.'.toNat < 0x80 := by decide
  simp only [Ascii, List.forall_mem_append, List.forall_mem_cons, hpoint, true_and]

/-- The only characters of a fraction that need not be ASCII are its digits. -/
theorem not_ascii_fraction_iff (hw : Digits whole) (hf : Digits fraction) :
    ¬Ascii (whole ++ '.' :: fraction) ↔
      ∃ c ∈ whole ++ '.' :: fraction, isDecimalDigit c = true ∧ 0x80 ≤ c.toNat := by
  constructor
  · intro ha
    obtain ⟨c, hc, hge⟩ : ∃ c ∈ whole ++ '.' :: fraction, 0x80 ≤ c.toNat := by
      simpa only [Ascii, not_forall, exists_prop, Nat.not_lt] using ha
    refine ⟨c, hc, ?_, hge⟩
    rcases List.mem_append.1 hc with hc | hc
    · exact hw.2 c hc
    · rcases List.mem_cons.1 hc with rfl | hc
      · exact absurd hge (by decide)
      · exact hf.2 c hc
  · rintro ⟨c, hc, -, hge⟩ ha
    exact Nat.not_lt.2 hge (ha c hc)

/-- ASCII digits around a point are read as the fraction they write. -/
theorem Decimal.read?_of_ascii (hw : Digits whole) (hf : Digits fraction) (haw : Ascii whole)
    (haf : Ascii fraction) :
    read? (whole ++ '.' :: fraction) = some (ofFigures whole fraction) := by
  have hwhole := (forall_isDigit_iff_ascii hw.2).2 haw
  have hfraction := (forall_isDigit_iff_ascii hf.2).2 haf
  have hpoint : ∀ c ∈ ('.' :: fraction).head?, c.isDigit = false := by simp
  rw [read?, Token.takeWhile_run hwhole hpoint, Token.dropWhile_run hwhole hpoint]
  simp [List.takeWhile_eq_self_iff.2 hfraction, List.dropWhile_eq_nil_iff.2 hfraction, hw.1,
    readExponent?, ofDigits_eq_decimal, ofFigures]

theorem Decimal.read?_of_not_ascii (hw : Digits whole) (hf : Digits fraction)
    (ha : ¬(Ascii whole ∧ Ascii fraction)) : read? (whole ++ '.' :: fraction) = none := by
  by_cases haw : Ascii whole
  · -- The point is passed, and the fraction stops early.
    have hwhole := (forall_isDigit_iff_ascii hw.2).2 haw
    have hpoint : ∀ c ∈ ('.' :: fraction).head?, c.isDigit = false := by simp
    obtain ⟨c, tail, hd, hc⟩ :=
      dropWhile_isDigit_of_not_ascii hf.2 (fun haf => ha ⟨haw, haf⟩) []
    rw [List.append_nil] at hd
    rw [read?, Token.takeWhile_run hwhole hpoint, Token.dropWhile_run hwhole hpoint]
    simp [hd, hw.1, readExponent?_of_not_ascii hc]
  · obtain ⟨c, tail, hd, hc⟩ := dropWhile_isDigit_of_not_ascii hw.2 haw ('.' :: fraction)
    have hne : c ≠ '.' := by
      rintro rfl
      exact absurd hc (by decide)
    simp [read?, hd, hne, readExponent?_of_not_ascii hc]

/-- A text with a point in it is none of the words for infinity and no number. -/
theorem Binary64.read?_of_point {text : String} (hs : splitSign text.toList = (false, text.toList))
    (hp : '.' ∈ text.toList) :
    read? text = (Decimal.read? text.toList).map fun x => .ofBits false x.bits := by
  have hword : '.' ∈ (String.ofList (text.toList.map Char.toLower)).toList := by
    rw [String.toList_ofList]
    exact List.mem_map.2 ⟨'.', hp, rfl⟩
  have hne (word : String) (h : '.' ∉ word.toList) :
      String.ofList (text.toList.map Char.toLower) ≠ word := by
    rintro rfl
    exact h hword
  simp [read?, hs, hne "inf" (by decide), hne "infinity" (by decide), hne "nan" (by decide)]

/-- ASCII digits around a point are always read, and other digits never. -/
theorem Binary64.read?_fraction {text : String} (hw : Digits whole) (hf : Digits fraction)
    (hl : text.toList = whole ++ '.' :: fraction) :
    read? text =
      if Ascii text.toList then some (.ofBits false (Decimal.ofFigures whole fraction).bits)
      else none := by
  have hs : splitSign text.toList = (false, text.toList) := by
    rw [hl]
    exact splitSign_append hw ('.' :: fraction)
  rw [read?_of_point hs (by simp [hl]), hl]
  by_cases ha : Ascii (whole ++ '.' :: fraction)
  · obtain ⟨haw, haf⟩ := ascii_fraction_iff.1 ha
    rw [if_pos ha, Decimal.read?_of_ascii hw hf haw haf]
    rfl
  · rw [if_neg ha, Decimal.read?_of_not_ascii hw hf (mt ascii_fraction_iff.2 ha)]
    rfl

end MiniC.Number
