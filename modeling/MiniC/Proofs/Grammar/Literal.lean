import MiniC.Proofs.Grammar.Run
import MiniC.Proofs.Number.Read
import MiniC.Proofs.Token.Place

/-!
Literals mean what is written. The parser turns a lexeme into a value without a look at the rules by
which the scan found it: it takes all quotes off a string, and reads digits of which the scan allows
more than have a value. Here the two are put together on every lexeme that a scan can give.
-/

namespace MiniC

/-- The cursor behind a token that it had ahead. -/
def Cursor.past (cursor : Cursor) (token : Token) (rest : List Token) : Cursor :=
  { cursor with behind := token :: cursor.behind, ahead := rest }

namespace Token.Spells

variable {text : List Char}

theorem quoted (h : Spells .string text) : ∃ inner, text = '"' :: inner ++ ['"'] ∧ '"' ∉ inner := by
  cases h with
  | string hquote => exact ⟨_, rfl, hquote⟩

theorem digits (h : Spells .integer text) : Digits text := by
  cases h with
  | integer hdigits => exact hdigits

theorem fraction (h : Spells .float text) :
    ∃ whole fraction, text = whole ++ '.' :: fraction ∧ Digits whole ∧ Digits fraction := by
  cases h with
  | float hw hf => exact ⟨_, _, rfl, hw, hf⟩

end Token.Spells

namespace Grammar

open Number Text Token

variable {token : Token} {rest : List Token} {cursor : Cursor}

/-- A number that cannot be read, reported at the start of its token. -/
def refusal (token : Token) : Diagnostic :=
  ⟨.badNumber token.lexeme, token.span.start⟩

/-! A literal is consumed, whether it can be read or not. -/

theorem primary_literal (hk : token.kind ∈ [Kind.integer, .float, .string])
    (ha : cursor.ahead = token :: rest) (group : Parse Expr) :
    primary group cursor = match atom? token with
      | some expr => .ok expr (cursor.past token rest)
      | none => .error (refusal token) (cursor.past token rest) := by
  have hatom : primary group cursor = atom cursor := by
    rw [primary, Parse.bind_run, Parse.peek_cons ha]
    simp only [List.mem_cons, List.not_mem_nil, or_false] at hk
    rcases hk with hk | hk | hk <;> simp only [hk]
  have hadvance : Parse.advance cursor = .ok token (cursor.past token rest) := by
    simp only [Parse.advance, Parse.get_bind_run, ha]
    rfl
  rw [hatom, atom, Parse.bind_run, hadvance]
  cases hvalue : atom? token <;> simp [hvalue, refusal]

theorem primary_eq_ok_iff (hk : token.kind ∈ [Kind.integer, .float, .string])
    (ha : cursor.ahead = token :: rest) {group : Parse Expr} {expr : Expr} :
    primary group cursor = .ok expr (cursor.past token rest) ↔ atom? token = some expr := by
  rw [primary_literal hk ha]
  cases atom? token <;> simp

theorem primary_eq_refusal_iff (hk : token.kind ∈ [Kind.integer, .float, .string])
    (ha : cursor.ahead = token :: rest) {group : Parse Expr} :
    primary group cursor = .error (refusal token) (cursor.past token rest) ↔
      atom? token = none := by
  rw [primary_literal hk ha]
  cases atom? token <;> simp

/-! Quotes. -/

theorem dropWhile_quote {inner : List Char} (h : '"' ∉ inner) (hne : inner ≠ [])
    (rest : List Char) : ('"' :: (inner ++ rest)).dropWhile (· == '"') = inner ++ rest := by
  cases inner with
  | nil => exact absurd rfl hne
  | cons c inner =>
    have hc : c ≠ '"' := ne_of_mem_of_not_mem List.mem_cons_self h
    simp [hc]

/-- All quotes at the ends are taken off. As none stands between them, that is one on each side, or
both of an empty string at once. -/
theorem stripQuotes_quoted {lexeme : String} {inner : List Char}
    (hl : lexeme.toList = '"' :: inner ++ ['"']) (h : '"' ∉ inner) :
    stripQuotes lexeme = String.ofList inner := by
  rw [stripQuotes, hl]
  by_cases hne : inner = []
  · rw [hne]
    rfl
  · have hfront := dropWhile_quote h hne ['"']
    have hback := dropWhile_quote (mt List.mem_reverse.1 h) (mt List.reverse_eq_nil_iff.1 hne) []
    rw [List.append_nil] at hback
    simp only [List.cons_append, hfront, List.reverse_append, List.reverse_singleton,
      List.nil_append, hback, List.reverse_reverse]

/-- Every literal of a source stands for what is written: a string for the text between its quotes,
an integer for the number that its digits write, and a fraction for the binary number nearest to it.
An integer is refused exactly if it has a digit outside ASCII or does not fit, and a fraction
exactly if it has such a digit. -/
theorem primary_reads_literal {file source : String} {tokens : List Token}
    (hscan : scan file source = .ok tokens) (hmem : token ∈ tokens)
    (ha : cursor.ahead = token :: rest) (group : Parse Expr) :
    (token.kind = .string → ∃ inner, token.lexeme.toList = '"' :: inner ++ ['"'] ∧
      primary group cursor = .ok (.string (.ofList inner) token.span) (cursor.past token rest)) ∧
    (token.kind = .integer →
      ((∃ value : Int64, value.toInt = decimal token.lexeme.toList ∧
          primary group cursor = .ok (.integer value token.span) (cursor.past token rest)) ↔
        Ascii token.lexeme.toList ∧ decimal token.lexeme.toList ≤ 2 ^ 63 - 1) ∧
      (primary group cursor = .error (refusal token) (cursor.past token rest) ↔
        ¬(Ascii token.lexeme.toList ∧ decimal token.lexeme.toList ≤ 2 ^ 63 - 1))) ∧
    (token.kind = .float → ∃ whole fraction, Digits whole ∧ Digits fraction ∧
      token.lexeme.toList = whole ++ '.' :: fraction ∧
      (primary group cursor =
          .ok (.float (.ofBits false (Decimal.ofFigures whole fraction).bits) token.span)
            (cursor.past token rest) ↔
        Ascii token.lexeme.toList) ∧
      (primary group cursor = .error (refusal token) (cursor.past token rest) ↔
        ∃ c ∈ token.lexeme.toList, isDecimalDigit c = true ∧ 0x80 ≤ c.toNat)) := by
  obtain ⟨before, after, hstands⟩ := scan_stands hscan hmem
  have hspells := hstands.spells
  refine ⟨fun hk => ?string, fun hk => ?integer, fun hk => ?float⟩
  case string =>
    obtain ⟨inner, hl, hquote⟩ := (hk ▸ hspells).quoted
    refine ⟨inner, hl, (primary_eq_ok_iff (by simp [hk]) ha).2 ?_⟩
    simp only [atom?, hk, stripQuotes_quoted hl hquote]
  case integer =>
    have hdigits := (hk ▸ hspells).digits
    have hvalue : atom? token = (readInt64? token.lexeme).map (.integer · token.span) := by
      simp only [atom?, hk]
    rw [primary_eq_refusal_iff (by simp [hk]) ha, hvalue, Option.map_eq_none_iff]
    refine ⟨?_, readInt64?_eq_none_iff hdigits⟩
    rw [← exists_readInt64?_iff hdigits]
    simp [primary_eq_ok_iff (by simp [hk]) ha, hvalue]
  case float =>
    obtain ⟨whole, fraction, hl, hw, hf⟩ := (hk ▸ hspells).fraction
    refine ⟨whole, fraction, hw, hf, hl, ?_⟩
    have hvalue : atom? token = (Binary64.read? token.lexeme).map (.float · token.span) := by
      simp only [atom?, hk]
    rw [primary_eq_ok_iff (by simp [hk]) ha, primary_eq_refusal_iff (by simp [hk]) ha, hvalue,
      Binary64.read?_fraction hw hf hl, hl, ← not_ascii_fraction_iff hw hf]
    by_cases hascii : Ascii (whole ++ '.' :: fraction)
    · simp [hascii]
    · simp [hascii]

/-- The empty string, leading zeros, the least number that does not fit, and a digit outside
ASCII. -/
theorem primary_reads_literal_edges :
    ∃ empty zeros large foreign : Token,
      scan "f" "\"\" 0042 9223372036854775808 \u0663.5" = .ok [empty, zeros, large, foreign] ∧
      primary (group 0) (.start "f" [empty]) =
        .ok (.string "" empty.span) (.past (.start "f" [empty]) empty []) ∧
      (∃ value : Int64, value.toInt = 42 ∧ primary (group 0) (.start "f" [zeros]) =
        .ok (.integer value zeros.span) (.past (.start "f" [zeros]) zeros [])) ∧
      primary (group 0) (.start "f" [large]) =
        .error (refusal large) (.past (.start "f" [large]) large []) ∧
      primary (group 0) (.start "f" [foreign]) =
        .error (refusal foreign) (.past (.start "f" [foreign]) foreign []) := by
  let empty : Token := ⟨.string, "\"\"", .ofBytes 0 "f", .ofBytes 2 "f"⟩
  let zeros : Token := ⟨.integer, "0042", .ofBytes 3 "f", .ofBytes 7 "f"⟩
  let large : Token := ⟨.integer, "9223372036854775808", .ofBytes 8 "f", .ofBytes 27 "f"⟩
  let foreign : Token := ⟨.float, "\u0663.5", .ofBytes 28 "f", .ofBytes 32 "f"⟩
  have hscan : scan "f" "\"\" 0042 9223372036854775808 \u0663.5" =
      .ok [empty, zeros, large, foreign] := by
    decide +kernel
  have hahead (token : Token) : (Cursor.start "f" [token]).ahead = [token] := rfl
  have hreads (token : Token) (hmem : token ∈ [empty, zeros, large, foreign]) :=
    primary_reads_literal hscan hmem (hahead token) (group 0)
  obtain ⟨inner, hinner, hempty⟩ := (hreads empty (by simp)).1 rfl
  obtain rfl : inner = [] := by
    simpa [empty, List.append_eq_cons_iff] using hinner
  have hfits : Ascii zeros.lexeme.toList ∧ decimal zeros.lexeme.toList ≤ 2 ^ 63 - 1 := by
    decide +kernel
  obtain ⟨value, hvalue, hzeros⟩ := ((hreads zeros (by simp)).2.1 rfl).1.2 hfits
  have hwhole : decimal zeros.lexeme.toList = 42 := by decide +kernel
  have htoInt : value.toInt = 42 := by
    rw [hvalue, hwhole]
    rfl
  have hlong : ¬(Ascii large.lexeme.toList ∧ decimal large.lexeme.toList ≤ 2 ^ 63 - 1) := by
    decide +kernel
  have hlarge := ((hreads large (by simp)).2.1 rfl).2.2 hlong
  have hdigit : ∃ c ∈ foreign.lexeme.toList, isDecimalDigit c = true ∧ 0x80 ≤ c.toNat :=
    ⟨'\u0663', by decide +kernel, by decide +kernel, by decide⟩
  obtain ⟨whole, fraction, -, -, -, -, hforeign⟩ := (hreads foreign (by simp)).2.2 rfl
  exact ⟨empty, zeros, large, foreign, hscan, hempty, ⟨value, htoInt, hzeros⟩, hlarge,
    hforeign.2 hdigit⟩

end Grammar

end MiniC
