import MiniC.Proofs.Source.Row
import MiniC.Proofs.Token.Scan

/-!
Where tokens stand in their source. A scan finds each token at the byte that is told, and one behind
the other.
-/

namespace MiniC.Token

open Text Source

/-! Only strings hold white space, and no lexeme starts or ends with it. -/

theorem not_isWhiteSpace_of_isWord {c : Char} (h : isWord c = true) : isWhiteSpace c = false := by
  rw [Bool.eq_false_iff]
  intro hs
  rw [not_isWord_of_isWhiteSpace hs] at h
  cases h

theorem not_isWhiteSpace_of_lexeme? {c : Char} {rest : List Char} (h : lexeme? c rest = none) :
    isWhiteSpace c = false := by
  rw [Bool.eq_false_iff]
  intro hs
  simp [lexeme?, not_isNameStart_of_isWhiteSpace hs, not_isDecimalDigit_of_isWhiteSpace hs, hs] at h

namespace Spells

variable {kind : Kind} {text : List Char}

theorem not_isWhiteSpace (h : Spells kind text) (hk : kind ≠ .string) :
    ∀ c ∈ text, isWhiteSpace c = false := by
  have hdigits {digits : List Char} (hd : Digits digits) : ∀ c ∈ digits, isWhiteSpace c = false :=
    fun c hc => not_isWhiteSpace_of_isWord (isWord_of_isDecimalDigit (hd.2 c hc))
  cases h with
  | keyword hr =>
    have hall : reserved.all (·.toList.all fun c => !isWhiteSpace c) = true := by decide
    simpa using List.all_eq_true.1 hall _ hr
  | identifier hfirst hothers _ =>
    intro c hc
    have hname : Letter c ∨ Figure c := by
      rcases List.mem_cons.1 hc with rfl | hc
      · exact .inl hfirst
      · exact hothers c hc
    exact not_isWhiteSpace_of_isWord (isWord_of_isNameChar (isNameChar_iff.2 hname))
  | float hw hf =>
    intro c hc
    rcases List.mem_append.1 hc with hc | hc
    · exact hdigits hw c hc
    rcases List.mem_cons.1 hc with rfl | hc
    · decide
    · exact hdigits hf c hc
  | integer hd => exact hdigits hd
  | operator ho =>
    have hall : operators.all (·.all fun c => !isWhiteSpace c) = true := by decide
    simpa using List.all_eq_true.1 hall text ho
  | string _ => exact absurd rfl hk

theorem newline_not_mem (h : Spells kind text) (hk : kind ≠ .string) : '\n' ∉ text := by
  intro hmem
  exact absurd (h.not_isWhiteSpace hk '\n' hmem) (by decide)

theorem last (h : Spells kind text) : ∃ c, text.getLast? = some c ∧ isWhiteSpace c = false := by
  by_cases hk : kind = .string
  · subst hk
    cases h with
    | string _ => exact ⟨'"', by simp [List.getLast?_cons], by decide⟩
  · obtain ⟨first, tail, rfl, -⟩ := h.head
    have hne := List.cons_ne_nil first tail
    exact ⟨(first :: tail).getLast hne, List.getLast?_eq_some_getLast hne,
      h.not_isWhiteSpace hk _ (List.getLast_mem hne)⟩

end Spells

/-- A token stands between these parts of a text. -/
structure Stands (file : String) (token : Token) (text before after : List Char) : Prop where
  text : text = before ++ (token.lexeme.toList ++ after)
  start : token.span.start = .ofBytes (byteSize before) file
  stop : token.span.stop = .ofBytes (byteSize (before ++ token.lexeme.toList)) file
  spells : Spells token.kind token.lexeme.toList

variable {file source : String} {tokens : List Token} {token : Token}

/-- More text before it moves a token. -/
theorem Piece.stands {p : Piece} (h : Spells p.kind p.lexeme) (before after : List Char) :
    (p.token file (byteSize before)).Stands file (before ++ (p.lexeme ++ after)) before after where
  text := by simp [token]
  start := rfl
  stop := by simp [token, byteSize_append]
  spells := by simpa [token] using h

theorem Piece.Stand.mem_tokens {pieces : List Piece} (h : Stand pieces) {before : List Char}
    (ht : token ∈ Piece.tokens file (byteSize before) pieces) :
    ∃ between after, token.Stands file (before ++ pieces.flatMap Piece.text) (before ++ between)
      after := by
  induction h generalizing before with
  | nil => cases ht
  | @cons p pieces hs hg ha h ih =>
    rcases List.mem_cons.1 ht with rfl | ht
    · refine ⟨[], p.gap ++ pieces.flatMap Piece.text, ?_⟩
      simpa [Piece.text] using Piece.stands hs before (p.gap ++ pieces.flatMap Piece.text)
    · rw [← byteSize_append] at ht
      obtain ⟨between, after, hst⟩ := ih ht
      exact ⟨p.text ++ between, after, by simpa using hst⟩

/-- Only white space stands after the last token. -/
theorem Piece.Stand.getLast?_tokens {pieces : List Piece} (h : Stand pieces) {before : List Char}
    (ht : (Piece.tokens file (byteSize before) pieces).getLast? = some token) :
    ∃ between after, token.Stands file (before ++ pieces.flatMap Piece.text) (before ++ between)
      after ∧ Blank after := by
  induction h generalizing before with
  | nil => cases ht
  | @cons p pieces hs hg ha h ih =>
    cases pieces with
    | nil =>
      obtain rfl : p.token file (byteSize before) = token := by simpa [Piece.tokens] using ht
      exact ⟨[], p.gap, by simpa [Piece.text] using Piece.stands hs before p.gap, hg⟩
    | cons q pieces =>
      rw [Piece.tokens, ← byteSize_append] at ht
      obtain ⟨between, after, hst, hblank⟩ := ih (by simpa [Piece.tokens] using ht)
      exact ⟨p.text ++ between, after, by simpa using hst, hblank⟩

/-- Each token that a scan gives stands in the source. -/
theorem scan_stands (h : scan file source = .ok tokens) (ht : token ∈ tokens) :
    ∃ before after, token.Stands file source.toList before after := by
  obtain ⟨l, hv, htext, rfl⟩ := ((scan_eq_ok_iff file source).1 tokens).1 h
  obtain ⟨between, after, hst⟩ := hv.pieces.mem_tokens ht
  rw [← htext]
  exact ⟨_, after, hst⟩

theorem scan_stands_last (h : scan file source = .ok tokens) (ht : tokens.getLast? = some token) :
    ∃ before after, token.Stands file source.toList before after ∧ Blank after := by
  obtain ⟨l, hv, htext, rfl⟩ := ((scan_eq_ok_iff file source).1 tokens).1 h
  obtain ⟨between, after, hst, hblank⟩ := hv.pieces.getLast?_tokens ht
  rw [← htext]
  exact ⟨_, after, hst, hblank⟩

/-- Pieces make tokens that follow one another. -/
theorem Piece.Stand.row {pieces : List Piece} (h : Stand pieces) {low bytes : Nat}
    (hlow : low ≤ bytes) (hsize : bytes + byteSize (pieces.flatMap Piece.text) < 4294967296) :
    Row low ((Piece.tokens file bytes pieces).map Token.span)
      (bytes + byteSize (pieces.flatMap Piece.text)) := by
  induction h generalizing low bytes with
  | nil => exact .nil (by omega)
  | @cons p pieces hs _ _ _ ih =>
    obtain ⟨c, tail, hl, -⟩ := hs.head
    have hpos : 0 < byteSize p.lexeme := byteSize_pos (by simp [hl])
    rw [List.flatMap_cons, byteSize_append] at hsize ⊢
    have htext : byteSize p.text = byteSize p.lexeme + byteSize p.gap := byteSize_append ..
    have hstart : (Position.ofBytes bytes file).offset.toNat = bytes :=
      Position.toNat_ofBytes file (by omega)
    have hstop : (Position.ofBytes (bytes + byteSize p.lexeme) file).offset.toNat =
        bytes + byteSize p.lexeme :=
      Position.toNat_ofBytes file (by omega)
    rw [Piece.tokens, List.map_cons, ← Nat.add_assoc]
    refine .cons ?_ ?_ ?_
    · simp only [token, hstart, hlow]
    · simp only [token, hstart, hstop]
      omega
    · simp only [token, hstop]
      exact ih (by omega) (by omega)

/-- The tokens of a source of less than four gigabytes follow one another. -/
theorem scan_row (hsize : source.utf8ByteSize < 4294967296) (h : scan file source = .ok tokens) :
    Row 0 (tokens.map Token.span) source.utf8ByteSize := by
  obtain ⟨l, hv, htext, rfl⟩ := ((scan_eq_ok_iff file source).1 tokens).1 h
  rw [← byteSize_toList, ← htext, Layout.text, byteSize_append] at hsize ⊢
  exact hv.pieces.row (Nat.zero_le _) hsize

end MiniC.Token
