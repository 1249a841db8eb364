import MiniC.Command
import MiniC.Proofs.Grammar.Language
import MiniC.Proofs.Text.Code
import MiniC.Proofs.Token.Place

/-!
Reading a list of tokens again. Each token is printed as the name of its kind and its lexeme as it
is spelled, so the text of a string may break the line and look like further tokens. But the kind is
known before the lexeme starts, and tells where it ends: a string at its next quote, and every other
lexeme at the end of the line.
-/

namespace MiniC

open Text

namespace Token

theorem Kind.name_inj {kind kind' : Kind} (h : kind.name = kind'.name) : kind = kind' := by
  revert h
  cases kind <;> cases kind' <;> decide

theorem Kind.blank_not_mem_name (kind : Kind) : ' ' ∉ kind.name.toList := by
  cases kind <;> decide

/-- Among lexemes of one kind, a line break after them tells where they end. -/
theorem lexeme_delimits (kind : Kind) : Delimits (Spells kind) fun text => text ++ ['\n'] := by
  intro text text' rest rest' h h' heq
  simp only [List.append_assoc, List.singleton_append] at heq
  by_cases hk : kind = .string
  · subst hk
    cases h with
    | string hquote =>
      cases h' with
      | string hquote' =>
        simp only [List.cons_append, List.append_assoc, List.nil_append] at heq
        -- behind the opening quote, the closing one is the first
        obtain ⟨rfl, hbreak⟩ := split_first hquote hquote' (List.cons.inj heq).2
        exact ⟨rfl, (List.cons.inj hbreak).2⟩
  · exact split_first (h.newline_not_mem hk) (h'.newline_not_mem hk) heq

end Token

namespace Terminal

/-- The line of a token, or the lines if its lexeme has several. -/
def line (t : Terminal) : List Char :=
  t.1.name.toList ++ ' ' :: (t.2.toList ++ ['\n'])

/-- A kind with a lexeme of this kind. -/
def Spelled (t : Terminal) : Prop :=
  Token.Spells t.1 t.2.toList

theorem line_delimits : Delimits Spelled line := by
  rintro ⟨kind, lexeme⟩ ⟨kind', lexeme'⟩ rest rest' h h' heq
  simp only [line, List.append_assoc, List.cons_append] at heq
  obtain ⟨hname, hline⟩ := split_first kind.blank_not_mem_name kind'.blank_not_mem_name heq
  obtain rfl : kind = kind' := Token.Kind.name_inj (String.toList_inj.1 hname)
  have hsplit := Token.lexeme_delimits kind h h' (by simpa using hline)
  exact ⟨Prod.ext rfl (String.toList_inj.1 hsplit.1), hsplit.2⟩

theorem line_ne_nil (t : Terminal) : line t ≠ [] := by
  simp [line]

theorem spelled_of_scan {file source : String} {ts : List Token}
    (h : Token.scan file source = .ok ts) : ∀ t ∈ ts.map Token.terminal, Spelled t := by
  intro t ht
  obtain ⟨token, hmem, rfl⟩ := List.mem_map.1 ht
  obtain ⟨before, after, hstands⟩ := Token.scan_stands h hmem
  exact hstands.spells

end Terminal

namespace Command

open Token

variable {file file' source source' : String} {ts ts' : List Token}

theorem listTokens_toList (h : scan file source = .ok ts) :
    (listTokens file source).out.toList = (ts.map Token.terminal).flatMap Terminal.line := by
  have hline (token : Token) : (token.listing ++ "\n").toList = Terminal.line token.terminal := by
    simp [listing, terminal, Terminal.line]
  simp only [listTokens, h, Output.printed, String.toList_join, List.flatMap_map, hline]

/-- A list of tokens can be read again. Sources for which the same is printed have tokens of the
same kinds and lexemes in the same order, even if strings look like further tokens. -/
theorem terminals_of_listTokens (h : scan file source = .ok ts) (h' : scan file' source' = .ok ts')
    (hout : (listTokens file source).out = (listTokens file' source').out) :
    ts.map Token.terminal = ts'.map Token.terminal := by
  have hlines := congrArg String.toList hout
  rw [listTokens_toList h, listTokens_toList h'] at hlines
  exact Terminal.line_delimits.flatMap_inj Terminal.line_ne_nil (Terminal.spelled_of_scan h)
    (Terminal.spelled_of_scan h') hlines

/-- A string whose second line looks like a number, and a number right behind it or set apart. -/
theorem terminals_of_listTokens_lines :
    let printed := "STRING \"1\nINTEGER 2\"\nINTEGER 3\n"
    ∃ ts ts', scan "f" "\"1\nINTEGER 2\"3" = .ok ts ∧ scan "g" "\"1\nINTEGER 2\"\n 3" = .ok ts' ∧
      (listTokens "f" "\"1\nINTEGER 2\"3").out = printed ∧
      (listTokens "g" "\"1\nINTEGER 2\"\n 3").out = printed ∧
      ts.map Token.terminal = ts'.map Token.terminal := by
  intro printed
  let ts : List Token := [⟨.string, "\"1\nINTEGER 2\"", .ofBytes 0 "f", .ofBytes 13 "f"⟩,
    ⟨.integer, "3", .ofBytes 13 "f", .ofBytes 14 "f"⟩]
  let ts' : List Token := [⟨.string, "\"1\nINTEGER 2\"", .ofBytes 0 "g", .ofBytes 13 "g"⟩,
    ⟨.integer, "3", .ofBytes 15 "g", .ofBytes 16 "g"⟩]
  have hscan : scan "f" "\"1\nINTEGER 2\"3" = .ok ts := by decide +kernel
  have hscan' : scan "g" "\"1\nINTEGER 2\"\n 3" = .ok ts' := by decide +kernel
  have hout : (listTokens "f" "\"1\nINTEGER 2\"3").out = printed := by decide +kernel
  have hout' : (listTokens "g" "\"1\nINTEGER 2\"\n 3").out = printed := by decide +kernel
  exact ⟨ts, ts', hscan, hscan', hout, hout',
    terminals_of_listTokens hscan hscan' (hout.trans hout'.symm)⟩

end Command

end MiniC
