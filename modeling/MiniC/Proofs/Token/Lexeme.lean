import MiniC.Proofs.Text.Classes
import MiniC.Proofs.Token.Layout
import MiniC.Token.Scan
import Mathlib.Data.List.TakeWhile

/-!
The lexeme at one place of a text. What is found there is spelled like its kind and ends where it
may, and a lexeme that does is found.
-/

namespace MiniC.Token

open Text

/-! Characters of names and numbers. -/

section

variable {c : Char}

theorem isUpper_iff : c.isUpper = true ↔ 'A' ≤ c ∧ c ≤ 'Z' :=
  decide_eq_true_iff

theorem isLower_iff : c.isLower = true ↔ 'a' ≤ c ∧ c ≤ 'z' :=
  Bool.and_eq_true_iff.trans (and_congr decide_eq_true_iff decide_eq_true_iff)

theorem isDigit_iff : c.isDigit = true ↔ Figure c :=
  Bool.and_eq_true_iff.trans (and_congr decide_eq_true_iff decide_eq_true_iff)

theorem isAlpha_iff : c.isAlpha = true ↔ ('A' ≤ c ∧ c ≤ 'Z') ∨ ('a' ≤ c ∧ c ≤ 'z') :=
  Bool.or_eq_true_iff.trans (or_congr isUpper_iff isLower_iff)

theorem isAlphanum_iff : c.isAlphanum = true ↔ c.isAlpha = true ∨ c.isDigit = true :=
  Bool.or_eq_true_iff

theorem isNameStart_iff : isNameStart c = true ↔ Letter c := by
  rw [isNameStart, Bool.or_eq_true, isAlpha_iff, beq_iff_eq, Letter]
  exact or_assoc.trans or_left_comm

theorem isNameChar_iff : isNameChar c = true ↔ Letter c ∨ Figure c := by
  rw [← isNameStart_iff, isNameStart, isNameChar, Bool.or_eq_true, Bool.or_eq_true, beq_iff_eq,
    isAlphanum_iff, isDigit_iff]
  exact or_right_comm

theorem toNat_lt_of_isNameChar (h : isNameChar c = true) : c.toNat < 0x80 := by
  rw [isNameChar_iff, Letter, Figure] at h
  simp only [Char.le_def, UInt32.le_iff_toNat_le] at h
  rcases h with (⟨-, h⟩ | ⟨-, h⟩ | rfl) | ⟨-, h⟩
  · exact Nat.lt_of_le_of_lt h (by decide)
  · exact Nat.lt_of_le_of_lt h (by decide)
  · decide
  · exact Nat.lt_of_le_of_lt h (by decide)

theorem isNameChar_of_isNameStart (h : isNameStart c = true) : isNameChar c = true :=
  isNameChar_iff.2 (.inl (isNameStart_iff.1 h))

theorem isWord_of_isNameChar (h : isNameChar c = true) : isWord c = true :=
  forall_ascii (P := fun c => isNameChar c = true → isWord c = true) (by decide +kernel)
    (toNat_lt_of_isNameChar h) h

theorem not_isNameStart_of_isDecimalDigit (h : isDecimalDigit c = true) :
    isNameStart c = false := by
  rw [Bool.eq_false_iff]
  intro hs
  have hn := isNameChar_of_isNameStart hs
  have := forall_ascii (P := fun c => isNameStart c = true → isDecimalDigit c = false)
    (by decide +kernel) (toNat_lt_of_isNameChar hn) hs
  simp [this] at h

theorem not_isNameStart_of_isWhiteSpace (h : isWhiteSpace c = true) : isNameStart c = false := by
  rw [Bool.eq_false_iff]
  intro hs
  have := isWord_of_isNameChar (isNameChar_of_isNameStart hs)
  simp [not_isWord_of_isWhiteSpace h] at this

theorem not_isDecimalDigit_of_isWhiteSpace (h : isWhiteSpace c = true) :
    isDecimalDigit c = false := by
  rw [Bool.eq_false_iff]
  intro hd
  have := isWord_of_isDecimalDigit hd
  simp [not_isWord_of_isWhiteSpace h] at this

/-- No operator starts like a lexeme of another kind or like white space. -/
theorem operator_head {text : List Char} (h : c :: text ∈ operators) :
    isNameStart c = false ∧ isDecimalDigit c = false ∧ isWhiteSpace c = false ∧ c ≠ '"' := by
  have hall : operators.all (·.head?.all fun c =>
      !isNameStart c && !isDecimalDigit c && !isWhiteSpace c && c != '"') = true := by
    decide +kernel
  have := List.all_eq_true.1 hall _ h
  simpa [and_assoc] using this

end

/-! Runs of characters. -/

section

variable {p : Char → Bool} {run rest : List Char}

theorem takeWhile_run (h : ∀ c ∈ run, p c = true) (hr : ∀ c ∈ rest.head?, p c = false) :
    (run ++ rest).takeWhile p = run := by
  rw [List.takeWhile_append_of_pos h]
  cases rest with
  | nil => simp
  | cons c rest => simp [hr c rfl]

theorem dropWhile_run (h : ∀ c ∈ run, p c = true) (hr : ∀ c ∈ rest.head?, p c = false) :
    (run ++ rest).dropWhile p = rest := by
  rw [List.dropWhile_append_of_pos h]
  cases rest with
  | nil => rfl
  | cons c rest => simp [hr c rfl]

theorem endsWord_iff : endsWord rest = true ↔ ∀ c ∈ rest.head?, isWord c = false := by
  cases rest with
  | nil => simp [endsWord]
  | cons c rest => simp [endsWord]

end

/-! What is found is a lexeme. -/

/-- A lexeme at the head of a text is spelled like its kind and ends where it may; white space is
white space. -/
def Found (c : Char) (rest : List Char) (lexeme : Lexeme) : Prop :=
  ∃ after, rest = lexeme.tail ++ after ∧
    match lexeme.kind with
    | none => Blank (c :: lexeme.tail)
    | some kind => Spells kind (c :: lexeme.tail) ∧ Ends kind (c :: lexeme.tail) after.head?

section

variable {c : Char} {rest : List Char} {lexeme : Lexeme}

theorem name?_found (hc : isNameStart c = true) (h : name? c rest = some lexeme) :
    Found c rest lexeme := by
  simp only [name?] at h
  split at h
  · next hends =>
    cases h
    refine ⟨rest.dropWhile isNameChar, List.takeWhile_append_dropWhile.symm, ?_⟩
    have hends := endsWord_iff.1 hends
    by_cases hr : String.ofList (c :: rest.takeWhile isNameChar) ∈ reserved
    · rw [if_pos hr]
      exact ⟨.keyword hr, hends⟩
    · rw [if_neg hr]
      refine ⟨.identifier (isNameStart_iff.1 hc) (fun d hd => ?_) hr, hends⟩
      exact isNameChar_iff.1 (List.mem_takeWhile_imp hd)
  · cases h

theorem digits_cons {digits : List Char} (hc : isDecimalDigit c = true)
    (h : ∀ d ∈ digits, isDecimalDigit d = true) : Digits (c :: digits) :=
  ⟨List.cons_ne_nil c digits, List.forall_mem_cons.2 ⟨hc, h⟩⟩

theorem fraction?_found {fraction : List Char} (h : fraction? rest = some fraction) :
    ∃ digits after, fraction = '.' :: digits ∧ Digits digits ∧ rest = fraction ++ after ∧
      endsWord after = true := by
  unfold fraction? at h
  split at h
  · next rest =>
    simp only [Bool.or_eq_true, List.isEmpty_iff, Bool.not_eq_true'] at h
    -- no digits after the point, or a word that goes on after them, make no fraction
    split at h
    · cases h
    · next hn =>
      cases h
      rw [not_or, Bool.not_eq_false] at hn
      refine ⟨_, rest.dropWhile isDecimalDigit, rfl, ⟨hn.1, fun d hd => ?_⟩, ?_, hn.2⟩
      · exact List.mem_takeWhile_imp hd
      · rw [List.cons_append, List.takeWhile_append_dropWhile]
  · cases h

theorem number?_found (hc : isDecimalDigit c = true) (h : number? rest = some lexeme) :
    Found c rest lexeme := by
  have hdigits : ∀ d ∈ rest.takeWhile isDecimalDigit, isDecimalDigit d = true :=
    fun d hd => List.mem_takeWhile_imp hd
  have hrest : rest = rest.takeWhile isDecimalDigit ++ rest.dropWhile isDecimalDigit :=
    List.takeWhile_append_dropWhile.symm
  simp only [number?] at h
  split at h
  · next fraction hf =>
    cases h
    obtain ⟨digits, after, rfl, hd, ha, hends⟩ := fraction?_found hf
    refine ⟨after, ?_, .float (digits_cons hc hdigits) hd, endsWord_iff.1 hends⟩
    rw [List.append_assoc, ← ha]
    exact hrest
  · split at h
    · next hends =>
      cases h
      exact ⟨_, hrest, .integer (digits_cons hc hdigits), endsWord_iff.1 hends⟩
    · cases h

/-- What is left of a text from its first quote on. -/
theorem dropWhile_quote (h : (rest.takeWhile (· != '"')).length < rest.length) :
    ∃ after, rest.dropWhile (· != '"') = '"' :: after := by
  have hlen := congrArg List.length (List.takeWhile_append_dropWhile (p := (· != '"')) (l := rest))
  rw [List.length_append] at hlen
  have hhead := List.head?_dropWhile_not (· != '"') rest
  cases hd : rest.dropWhile (· != '"') with
  | nil =>
    rw [hd, List.length_nil] at hlen
    omega
  | cons c after =>
    rw [hd] at hhead
    obtain rfl : c = '"' := by simpa using hhead
    exact ⟨after, rfl⟩

theorem string?_found (h : string? rest = some lexeme) : Found '"' rest lexeme := by
  simp only [string?] at h
  split at h
  · next hl =>
    cases h
    obtain ⟨after, ha⟩ := dropWhile_quote hl
    refine ⟨after, ?_, .string fun hq => ?_, trivial⟩
    · rw [List.append_assoc, List.singleton_append, ← ha, List.takeWhile_append_dropWhile]
    · simpa using List.mem_takeWhile_imp hq
  · cases h

/-- An operator that would merge with `=` makes a longer one with it. -/
theorem merging_pair (h : [c] ∈ merging) : (c, '=') ∈ doubleOperators := by
  simp only [merging, List.mem_cons, List.cons.injEq, and_true, List.not_mem_nil, or_false] at h
  rcases h with rfl | rfl | rfl | rfl <;> simp [doubleOperators]

/-- An operator that makes a longer one with a character does so with `=` only. -/
theorem merging_of_pair {d : Char} (h : (c, d) ∈ doubleOperators) (hs : c ∈ singleOperators) :
    d = '=' ∧ [c] ∈ merging := by
  simp only [doubleOperators, List.mem_cons, Prod.mk.injEq, List.not_mem_nil, or_false] at h
  rcases h with ⟨rfl, rfl⟩ | ⟨rfl, rfl⟩ | ⟨rfl, rfl⟩ | ⟨rfl, rfl⟩ | ⟨rfl, rfl⟩ | ⟨rfl, rfl⟩ <;>
    simp [singleOperators, merging] at hs ⊢

theorem operator?_found (h : operator? c rest = some lexeme) : Found c rest lexeme := by
  unfold operator? at h
  split at h
  · next hd =>
    cases h
    cases rest with
    | nil => simp at hd
    | cons d rest =>
      have hop : [c, d] ∈ operators := by
        have hpair : (c, d) ∈ doubleOperators := by simpa using hd
        simpa [operators, doubleOperators] using hpair
      exact ⟨rest, rfl, .operator hop, fun hm => absurd hm (by simp [merging])⟩
  split at h
  · next hd hs =>
    cases h
    have hop : [c] ∈ operators := by simpa [operators, singleOperators] using hs
    -- pairs are tried first, so before `=` the pair would have been found
    refine ⟨rest, rfl, .operator hop, fun hm hnext => hd ?_⟩
    rw [hnext, Option.any_some, decide_eq_true_eq]
    exact merging_pair hm
  · cases h

theorem lexeme?_found (h : lexeme? c rest = some lexeme) : Found c rest lexeme := by
  unfold lexeme? at h
  split at h
  · next hc => exact name?_found hc h
  split at h
  · next hc => exact number?_found hc h
  split at h
  · next hc =>
    cases h
    refine ⟨_, List.takeWhile_append_dropWhile.symm, fun d hd => ?_⟩
    rcases List.mem_cons.1 hd with rfl | hd
    · exact hc
    · exact List.mem_takeWhile_imp hd
  split at h
  · next hc =>
    subst hc
    exact string?_found h
  · exact operator?_found h

end

/-! A lexeme is found. -/

section

variable {c : Char} {tail after : List Char}

/-- Reserved words are made of the characters of names. -/
theorem reserved_letters (h : String.ofList (c :: tail) ∈ reserved) :
    isNameStart c = true ∧ ∀ d ∈ tail, isNameChar d = true := by
  have hall : reserved.all (fun word =>
      word.toList.head?.all isNameStart && word.toList.tail.all isNameChar) = true := by
    decide +kernel
  have := List.all_eq_true.1 hall _ h
  simpa using this

/-- A run of word characters stops where a word may end. -/
theorem stops_of_endsWord {p : Char → Bool} (hp : ∀ d, p d = true → isWord d = true)
    (he : ∀ d ∈ after.head?, isWord d = false) : ∀ d ∈ after.head?, p d = false := by
  intro d hd
  rw [Bool.eq_false_iff]
  intro h
  have := he d hd
  simp [hp d h] at this

theorem lexeme?_name (hc : isNameStart c = true) (ht : ∀ d ∈ tail, isNameChar d = true)
    (he : ∀ d ∈ after.head?, isWord d = false) :
    lexeme? c (tail ++ after) =
      some ⟨some (if String.ofList (c :: tail) ∈ reserved then .keyword else .identifier),
        tail⟩ := by
  have hstop := stops_of_endsWord (fun _ => isWord_of_isNameChar) he
  rw [lexeme?, if_pos hc]
  simp only [name?, takeWhile_run ht hstop, dropWhile_run ht hstop]
  rw [if_pos (endsWord_iff.2 he)]

theorem lexeme?_digit {rest : List Char} (hc : isDecimalDigit c = true) :
    lexeme? c rest = number? rest := by
  rw [lexeme?, if_neg (by simp [not_isNameStart_of_isDecimalDigit hc]), if_pos hc]

theorem number?_integer (ht : ∀ d ∈ tail, isDecimalDigit d = true)
    (he : ∀ d ∈ after.head?, isWord d = false) (hp : after.head? ≠ some '.') :
    number? (tail ++ after) = some ⟨some .integer, tail⟩ := by
  have hstop := stops_of_endsWord (fun _ => isWord_of_isDecimalDigit) he
  have hf : fraction? after = none := by
    unfold fraction?
    split
    · simp at hp
    · rfl
  simp only [number?, takeWhile_run ht hstop, dropWhile_run ht hstop, hf]
  rw [if_pos (endsWord_iff.2 he)]

theorem number?_float {whole fraction : List Char}
    (hw : ∀ d ∈ whole, isDecimalDigit d = true) (hf : Digits fraction)
    (he : ∀ d ∈ after.head?, isWord d = false) :
    number? (whole ++ '.' :: fraction ++ after) = some ⟨some .float, whole ++ '.' :: fraction⟩ := by
  -- the point ends the first run of digits, the end of the word the second
  have hpoint : ∀ d ∈ ('.' :: (fraction ++ after)).head?, isDecimalDigit d = false := by
    rintro _ ⟨⟩
    rfl
  have hstop := stops_of_endsWord (fun _ => isWord_of_isDecimalDigit) he
  have hfraction : fraction? ('.' :: (fraction ++ after)) = some ('.' :: fraction) := by
    simp only [fraction?, takeWhile_run hf.2 hstop, dropWhile_run hf.2 hstop]
    rw [if_neg (by simp [hf.1, endsWord_iff.2 he])]
  rw [List.append_assoc, List.cons_append]
  simp only [number?, takeWhile_run hw hpoint, dropWhile_run hw hpoint, hfraction]

theorem string?_of_quote {inner : List Char} (h : '"' ∉ inner) :
    string? (inner ++ ['"'] ++ after) = some ⟨some .string, inner ++ ['"']⟩ := by
  have hi : ∀ d ∈ inner, (d != '"') = true := by
    intro d hd
    rw [bne_iff_ne]
    rintro rfl
    exact h hd
  have hbody : (inner ++ ['"'] ++ after).takeWhile (· != '"') = inner := by
    rw [List.append_assoc]
    exact takeWhile_run hi (by simp)
  simp only [string?, hbody]
  rw [if_pos (by simp)]

theorem operator?_of_ends (h : c :: tail ∈ operators)
    (he : c :: tail ∈ merging → after.head? ≠ some '=') :
    operator? c (tail ++ after) = some ⟨some .operator, tail⟩ := by
  match tail with
  | [] =>
    have hs : c ∈ singleOperators := by simpa [operators, singleOperators] using h
    have hd : ¬after.head?.any (fun d => (c, d) ∈ doubleOperators) = true := by
      rw [Option.any_eq_true]
      rintro ⟨d, hd, hpair⟩
      obtain ⟨rfl, hm⟩ := merging_of_pair (by simpa using hpair) hs
      exact he hm hd
    rw [operator?, List.nil_append, if_neg hd, if_pos hs]
  | [d] =>
    have hd : (c, d) ∈ doubleOperators := by simpa [operators, doubleOperators] using h
    rw [operator?, List.singleton_append, List.head?_cons, Option.any_some,
      if_pos (by simpa using hd)]
    rfl
  | d :: e :: _ => simp [operators] at h

/-- A lexeme that ends where it may is found; an integer also wants no point behind it. -/
theorem lexeme?_of_spells {kind : Kind} (h : Spells kind (c :: tail))
    (he : Ends kind (c :: tail) after.head?) (hp : kind = .integer → after.head? ≠ some '.') :
    lexeme? c (tail ++ after) = some ⟨some kind, tail⟩ := by
  generalize htext : c :: tail = text at h he
  cases h with
  | keyword hr =>
    subst htext
    obtain ⟨hc, ht⟩ := reserved_letters hr
    rw [lexeme?_name hc ht he, if_pos hr]
  | identifier hfirst hothers hr =>
    cases htext
    rw [lexeme?_name (isNameStart_iff.2 hfirst) (fun d hd => isNameChar_iff.2 (hothers d hd)) he,
      if_neg hr]
  | integer hd =>
    subst htext
    have hd := List.forall_mem_cons.1 hd.2
    rw [lexeme?_digit hd.1, number?_integer hd.2 he (hp rfl)]
  | @float whole fraction hw hf =>
    obtain ⟨first, whole, rfl⟩ := List.exists_cons_of_ne_nil hw.1
    cases htext
    have hw := List.forall_mem_cons.1 hw.2
    rw [lexeme?_digit hw.1]
    exact number?_float hw.2 hf he
  | operator ho =>
    subst htext
    obtain ⟨hs, hd, hb, hq⟩ := operator_head ho
    rw [lexeme?, if_neg (by simp [hs]), if_neg (by simp [hd]), if_neg (by simp [hb]), if_neg hq]
    exact operator?_of_ends ho he
  | string hi =>
    cases htext
    exact string?_of_quote hi

/-- White space is found up to its end. -/
theorem lexeme?_blank (h : Blank (c :: tail)) (he : ∀ d ∈ after.head?, isWhiteSpace d = false) :
    lexeme? c (tail ++ after) = some ⟨none, tail⟩ := by
  obtain ⟨hc, ht⟩ := List.forall_mem_cons.1 h
  rw [lexeme?, if_neg (by simp [not_isNameStart_of_isWhiteSpace hc]),
    if_neg (by simp [not_isDecimalDigit_of_isWhiteSpace hc]), if_pos hc, takeWhile_run ht he]

end

end MiniC.Token
