import MiniC.Proofs.Text.Code
import MiniC.Text.Quoted

/-!
Reading quoted text again. Every character that is not written as itself is escaped by a backslash
and the character after it, and a code point in hexadecimal ends with its brace.
-/

namespace MiniC.Text

theorem digitChar_inj {m n : Nat} (hm : m < 16) (hn : n < 16) (h : m.digitChar = n.digitChar) :
    m = n := by
  have hall : ∀ i j : Fin 16, i.val.digitChar = j.val.digitChar → i = j := by decide
  exact Fin.mk.inj (hall ⟨m, hm⟩ ⟨n, hn⟩ h)

/-- Numbers are told by their digits in hexadecimal. -/
theorem toDigits_inj {m n : Nat} (h : Nat.toDigits 16 m = Nat.toDigits 16 n) : m = n := by
  induction m using Nat.strongRecOn generalizing n with
  | ind m ih =>
    have hlen := congrArg List.length h
    have hm₁ : 0 < (Nat.toDigits 16 (m / 16)).length := Nat.length_toDigits_pos
    have hn₁ : 0 < (Nat.toDigits 16 (n / 16)).length := Nat.length_toDigits_pos
    rcases Nat.lt_or_ge m 16 with hm | hm <;> rcases Nat.lt_or_ge n 16 with hn | hn
    · rw [Nat.toDigits_of_lt_base hm, Nat.toDigits_of_lt_base hn] at h
      exact digitChar_inj hm hn (List.cons.inj h).1
    · -- one digit against at least two
      rw [Nat.toDigits_of_lt_base hm, Nat.toDigits_of_base_le (by decide) hn] at hlen
      simp only [List.length_append, List.length_singleton] at hlen
      omega
    · rw [Nat.toDigits_of_base_le (by decide) hm, Nat.toDigits_of_lt_base hn] at hlen
      simp only [List.length_append, List.length_singleton] at hlen
      omega
    · rw [Nat.toDigits_of_base_le (by decide) hm, Nat.toDigits_of_base_le (by decide) hn] at h
      obtain ⟨hinit, hlast⟩ := List.append_inj' h rfl
      have hdiv : m / 16 = n / 16 := ih (m / 16) (by omega) hinit
      have hmod : m % 16 = n % 16 := digitChar_inj (by omega) (by omega) (List.cons.inj hlast).1
      omega

theorem not_mem_toDigits {c : Char} (hc : ∀ i : Nat, i.digitChar ≠ c) (n : Nat) :
    c ∉ Nat.toDigits 16 n := by
  induction n using Nat.strongRecOn with
  | ind n ih =>
    rcases Nat.lt_or_ge n 16 with hn | hn
    · rw [Nat.toDigits_of_lt_base hn]
      simpa using (hc n).symm
    · rw [Nat.toDigits_of_base_le (by decide) hn]
      simpa using ⟨ih (n / 16) (by omega), (hc (n % 16)).symm⟩

/-- The character that is escaped by a backslash and this one. -/
def unescape (escape : Char) : Char :=
  if escape = '0' then '\x00'
  else if escape = 't' then '\t'
  else if escape = 'r' then '\r'
  else if escape = 'n' then '\n'
  else escape

/-- The ways to write a character between quotes. -/
inductive Quotes (c : Char) : List Char → Prop where
  | plain : c ≠ '\\' → c ≠ '\n' → Quotes c [c]
  | escape {e : Char} : unescape e = c → e ≠ 'u' → e ≠ '\n' → Quotes c ['\\', e]
  | code : Quotes c (codeEscape c)

theorem quotedChar_quotes (c : Char) : Quotes c (quotedChar c) := by
  unfold quotedChar
  split
  · next h => exact h ▸ .escape (by decide) (by decide) (by decide)
  split
  · next h => exact h ▸ .escape (by decide) (by decide) (by decide)
  split
  · next h => exact h ▸ .escape (by decide) (by decide) (by decide)
  split
  · next h => exact h ▸ .escape (by decide) (by decide) (by decide)
  next hline =>
  split
  · next h =>
    simp only [Bool.or_eq_true, decide_eq_true_eq] at h
    rcases h with rfl | rfl
    · exact .escape (by decide) (by decide) (by decide)
    · exact .escape (by decide) (by decide) (by decide)
  next hescape =>
  split
  · exact .code
  · have hne : c ≠ '"' ∧ c ≠ '\\' := by simpa using hescape
    exact .plain hne.2 hline

/-- A character is told by how it is written. -/
theorem Quotes.inj {c c' : Char} {text text' rest rest' : List Char} (h : Quotes c text)
    (h' : Quotes c' text') (heq : text ++ rest = text' ++ rest') : c = c' ∧ rest = rest' := by
  cases h with
  | plain hc =>
    cases h' with
    | plain => exact List.cons.inj heq
    | escape | code => exact absurd (List.cons.inj heq).1 hc
  | @escape e he hu =>
    cases h' with
    | plain hc' => exact absurd (List.cons.inj heq).1.symm hc'
    | @escape e' he' =>
      obtain ⟨rfl, hrest⟩ := List.cons.inj (List.cons.inj heq).2
      exact ⟨he.symm.trans he', hrest⟩
    | code => exact absurd (List.cons.inj (List.cons.inj heq).2).1 hu
  | code =>
    cases h' with
    | plain hc' => exact absurd (List.cons.inj heq).1.symm hc'
    | escape _ hu' => exact absurd (List.cons.inj (List.cons.inj heq).2).1.symm hu'
    | code =>
      -- the digits end with the brace
      have hbrace (n : Nat) : '\x7d' ∉ Nat.toDigits 16 n :=
        not_mem_toDigits (fun _ => Nat.digitChar_ne _ rfl) n
      simp only [codeEscape, List.append_assoc, List.cons_append, List.nil_append,
        List.cons.injEq, true_and] at heq
      obtain ⟨hdigits, hrest⟩ := split_first (hbrace _) (hbrace _) heq
      exact ⟨Char.toNat_inj.1 (toDigits_inj hdigits), hrest⟩

theorem quotedChar_delimits : Delimits (fun _ => True) quotedChar :=
  fun c c' _ _ _ _ => (quotedChar_quotes c).inj (quotedChar_quotes c')

theorem Quotes.ne_nil {c : Char} {text : List Char} (h : Quotes c text) : text ≠ [] := by
  cases h <;> exact List.cons_ne_nil _ _

/-- A text is told by how it is quoted. -/
theorem quoted_inj {text text' : String} (h : quoted text = quoted text') : text = text' := by
  have hlist : text.toList.flatMap quotedChar = text'.toList.flatMap quotedChar := by
    have h := List.cons.inj (String.ofList_injective h)
    exact (List.append_inj' h.2 rfl).1
  refine String.toList_inj.1 (quotedChar_delimits.flatMap_inj ?_ ?_ ?_ hlist)
  · exact fun c => (quotedChar_quotes c).ne_nil
  · exact fun _ _ => trivial
  · exact fun _ _ => trivial

theorem Quotes.newline_not_mem {c : Char} {text : List Char} (h : Quotes c text) :
    '\n' ∉ text := by
  cases h with
  | plain _ hc => simpa using hc.symm
  | escape _ _ he => simpa using he.symm
  | code =>
    have hdigits := not_mem_toDigits (c := '\n') (fun _ => Nat.digitChar_ne _ rfl) c.toNat
    simpa [codeEscape] using hdigits

/-- Quoted text stays on one line. -/
theorem newline_not_mem_quoted (text : String) : '\n' ∉ (quoted text).toList := by
  have hchars (c : Char) : '\n' ∉ quotedChar c := (quotedChar_quotes c).newline_not_mem
  simp [quoted, hchars]

end MiniC.Text
