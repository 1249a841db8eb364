import MiniC.Proofs.Token.Loop
import MiniC.Proofs.Token.Place

/-!
Why a scan fails. The character that is told begins no lexeme, whatever rule is tried on it, and the
text before it scans on its own to the tokens that had been made.
-/

namespace MiniC.Token

open Text Source

/-- The rule of a kind applies before the character `next`, or at the end of the text: words and
numbers are not cut out of a longer word, and nothing else is asked. -/
def Applies : Kind → (next : Option Char) → Prop
  | .keyword, next | .identifier, next | .integer, next | .float, next =>
    ∀ c ∈ next, isWord c = false
  | .operator, _ | .string, _ => True

section

variable {c : Char} {tail after : List Char}

/-- Digits at the end of a word begin a number, be it with the fraction that goes on after them. -/
theorem exists_number? (ht : ∀ d ∈ tail, isDecimalDigit d = true)
    (he : ∀ d ∈ after.head?, isWord d = false) :
    ∃ lexeme, number? (tail ++ after) = some lexeme := by
  have hstop := stops_of_endsWord (fun _ => isWord_of_isDecimalDigit) he
  simp only [number?, takeWhile_run ht hstop, dropWhile_run ht hstop]
  cases fraction? after with
  | none => exact ⟨_, if_pos (endsWord_iff.2 he)⟩
  | some fraction => exact ⟨_, rfl⟩

/-- An operator begins an operator, be it a longer one. -/
theorem exists_operator? (h : c :: tail ∈ operators) :
    ∃ lexeme, operator? c (tail ++ after) = some lexeme := by
  by_cases he : c :: tail ∈ merging ∧ after.head? = some '='
  · obtain ⟨hm, hnext⟩ := he
    obtain rfl : tail = [] := by
      have hall : merging.all (·.length = 1) = true := by decide
      simpa using List.all_eq_true.1 hall _ hm
    rw [operator?, List.nil_append, hnext, Option.any_some,
      if_pos (decide_eq_true (merging_pair hm))]
    exact ⟨_, rfl⟩
  · rw [not_and] at he
    exact ⟨_, operator?_of_ends h he⟩

/-- Where a lexeme stands and its rule applies, a lexeme is found, though it may be a longer one. -/
theorem exists_lexeme? {kind : Kind} (h : Spells kind (c :: tail))
    (ha : Applies kind after.head?) : ∃ lexeme, lexeme? c (tail ++ after) = some lexeme := by
  cases kind with
  | integer =>
    cases h with
    | integer hd =>
      obtain ⟨hc, ht⟩ := List.forall_mem_cons.1 hd.2
      rw [lexeme?_digit hc]
      exact exists_number? ht ha
  | operator =>
    cases h with
    | operator ho =>
      obtain ⟨hs, hd, hb, hq⟩ := operator_head ho
      rw [lexeme?, if_neg (by simp [hs]), if_neg (by simp [hd]), if_neg (by simp [hb]), if_neg hq]
      exact exists_operator? ho
  | keyword | identifier | float | string => exact ⟨_, lexeme?_of_spells h ha (by simp)⟩

end

variable {file source : String}

/-- Errors of the scan are exact. If the scan of a source of less than four gigabytes fails, then it
is at a character that is told by itself, by the number of bytes before it and by the number of
characters before it. Neither white space nor a lexeme of any kind begins there where its rule
applies; and what stands before it scans on its own, to the tokens that the scan had made when it
came there. -/
theorem scan_error_exact {e : Diagnostic} (hsize : source.utf8ByteSize < 4294967296)
    (h : scan file source = .error e) :
    ∃ before c after offset tokens,
      source.toList = before ++ c :: after ∧
      e.cause = .unrecognised (String.singleton c) offset ∧ offset.toNat = before.length ∧
      e.position.offset.toNat = byteSize before ∧ e.position.file = file ∧
      byteSize before < source.utf8ByteSize ∧
      (String.Pos.Raw.mk (byteSize before)).IsValid source ∧
      isWhiteSpace c = false ∧
      (∀ kind lexeme rest, c :: after = lexeme ++ rest → Spells kind lexeme →
        ¬Applies kind rest.head?) ∧
      Scanning.Reaches file (.start source.toList) ⟨before, tokens, c :: after⟩ ∧
      scan file (String.ofList before) = .ok tokens := by
  obtain ⟨before, tokens, c, after, htext, hl, hreach, rfl⟩ := reaches_of_scan_error h
  have hbytes : byteSize before < source.utf8ByteSize := by
    have hc := c.utf8Size_pos
    rw [← byteSize_toList, htext, byteSize_append, byteSize]
    omega
  have hchars : before.length < 4294967296 := by
    have hle := length_le_byteSize before
    omega
  refine ⟨before, c, after, _, tokens, htext, rfl, UInt32.toNat_ofNat_of_lt' hchars,
    Position.toNat_ofBytes file (by omega), rfl, hbytes, isValid_byteSize htext,
    not_isWhiteSpace_of_lexeme? hl, fun kind lexeme rest hrest hspells happlies => ?_, hreach, ?_⟩
  · obtain ⟨d, tail, rfl, -⟩ := hspells.head
    rw [List.cons_append, List.cons.injEq] at hrest
    obtain ⟨rfl, rfl⟩ := hrest
    obtain ⟨lexeme, hsome⟩ := exists_lexeme? hspells happlies
    rw [hl] at hsome
    cases hsome
  · -- the scan of the text before the character is the same rounds, with nothing after them
    have hclear : Clear [] := by simp [Clear]
    have hend := hreach.outcome_start hclear
    rw [List.append_nil] at hend
    rw [← Scanning.outcome_start, String.toList_ofList, hend]
    simp [Scanning.outcome, scanFrom, Except.map]

/-- The fraction of the number runs into a word, so an integer ends before the point. -/
theorem scan_error_exact_fraction :
    let source := "\"é\" 1.5x"
    let e : Diagnostic := ⟨.unrecognised "." 5, ⟨6, "f"⟩⟩
    source.utf8ByteSize < 4294967296 ∧ scan "f" source = .error e ∧
      ∃ before after tokens, source.toList = before ++ '.' :: after ∧ before.length = 5 ∧
        byteSize before = 6 ∧
        Scanning.Reaches "f" (.start source.toList) ⟨before, tokens, '.' :: after⟩ ∧
        scan "f" (String.ofList before) = .ok tokens := by
  intro source e
  have hsize : source.utf8ByteSize < 4294967296 := by decide
  have hscan : scan "f" source = .error e := by decide +kernel
  obtain ⟨before, c, after, offset, tokens, htext, hcause, hchars, hbytes, -, -, -, -, -, hreach,
    hbefore⟩ := scan_error_exact hsize hscan
  obtain ⟨htoken, rfl⟩ := Cause.unrecognised.inj hcause
  obtain rfl : '.' = c := String.singleton_inj.1 htoken
  exact ⟨hsize, hscan, before, after, tokens, htext, hchars.symm, hbytes.symm, hreach, hbefore⟩

end MiniC.Token
