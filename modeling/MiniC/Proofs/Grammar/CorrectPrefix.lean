import MiniC.Proofs.Grammar.Interleaving
import MiniC.Proofs.Grammar.Parting
import MiniC.Proofs.Grammar.Viable

/-!
Where syntax errors are reported. The parser stops at the first token that no program goes on with:
the tokens it has used can be completed to a program, and with the token it reports they cannot. At
the end of its tokens it stops only if they are no program yet.

The grammar has no limit on nesting here, so the tokens before a nesting error can be completed too.
-/

namespace MiniC

open MiniC.Language Grammar

/-- Tokens that make up a program, of whatever demand. -/
def Sentence (tokens : List Token) : Prop :=
  Derivable Language.Program (tokens.map Token.terminal)

/-- Tokens that some program starts with. -/
def Viable (tokens : List Token) : Prop :=
  ∃ more, Derivable Language.Program (tokens.map Token.terminal ++ more)

/-- A diagnostic that is neither early nor late: what it says of the tokens `used` and of those that
are `left`. -/
inductive CorrectPrefix : Diagnostic → (used left : List Token) → Prop where
  | unexpected {used token left} : Viable used → ¬Viable (used ++ [token]) →
      CorrectPrefix ⟨.unexpected token.lexeme, token.span.start⟩ used (token :: left)
  | unexpectedDetailed {message used token left} : Viable used → ¬Viable (used ++ [token]) →
      CorrectPrefix ⟨.unexpectedDetailed token.lexeme message, token.span.start⟩ used
        (token :: left)
  | endOfInput {expected position used} : Viable used → ¬Sentence used →
      CorrectPrefix ⟨.endOfInput expected, position⟩ used []
  | tooDeep {position used left} : Viable used →
      CorrectPrefix ⟨.tooDeep maxDepth, position⟩ used left
  | badNumber {used token left} : Viable used → token.Unreadable →
      CorrectPrefix ⟨.badNumber token.lexeme, token.span.start⟩ (used ++ [token]) left

namespace Language

theorem Derivable.program_append {text text' : List Terminal} (h : Derivable Program text)
    (h' : Derivable Program text') : Derivable Program (text ++ text') := by
  obtain ⟨body, demand, ⟨hi⟩⟩ := h
  obtain ⟨body', demand', ⟨hi'⟩⟩ := h'
  rw [← List.flatMap_append]
  refine ⟨_, _, .mk fun item hm => ?_⟩
  rcases List.mem_append.1 hm with hm | hm
  · exact hi item hm
  · exact hi' item hm

end Language

/-- A statement that can be completed after whole statements. -/
theorem viable_append {before good : List Token} {more : List Terminal}
    (hbefore : Sentence before) (h : Derivable Statement (good.map Token.terminal ++ more)) :
    Viable (before ++ good) := by
  obtain ⟨stmt, demand, h⟩ := h
  have hone : Derivable Language.Program (good.map Token.terminal ++ more) :=
    ⟨_, _, by simpa using Language.Program.cons h .nil⟩
  refine ⟨more, ?_⟩
  rw [List.map_append, List.append_assoc]
  exact Derivable.program_append hbefore hone

/-- What has been used since the start is what lies behind. -/
theorem Cursor.Moved.of_start {file : String} {tokens used : List Token} {c : Cursor}
    (h : (Cursor.start file tokens).Moved used c) :
    c.behind.reverse = used ∧ tokens = used ++ c.ahead := by
  refine ⟨?_, h.ahead⟩
  rw [h.behind]
  simp [Cursor.start]

/-- A report is correct if no program goes on with a token that it complains of, and none ends where
it misses one. -/
theorem Diagnostic.Reports.correctPrefix {e : Diagnostic} {used good left : List Token}
    (h : e.Reports used good left) (hgood : Viable good)
    (htoken : ∀ token rest, left = token :: rest → e.cause ≠ .tooDeep maxDepth →
      ¬Viable (used ++ [token]))
    (hend : ∀ expected position, left = [] → e = ⟨.endOfInput expected, position⟩ →
      ¬Sentence used) :
    CorrectPrefix e used left := by
  cases h with
  | unexpected => exact .unexpected hgood (htoken _ _ rfl (by simp))
  | unexpectedDetailed => exact .unexpectedDetailed hgood (htoken _ _ rfl (by simp))
  | endOfInput => exact .endOfInput hgood (hend _ _ rfl rfl)
  | tooDeep => exact .tooDeep hgood
  | badNumber hn => exact .badNumber hgood hn

section

variable {file : String} {used left : List Token} {token : Token} {stmts : List Stmt}
  {c c' : Cursor} {failure : Diagnostic}

/-- A token that the parser stops at, other than for its nesting, is in no program after the tokens
before it. -/
theorem not_viable_of_error
    (hc : Completes maxDepth (.start file (used ++ token :: left)) stmts c)
    (hs : statement .standard maxDepth c = .error failure c') (ha : c'.ahead = token :: left)
    (hsuffix : c'.ahead <:+ c.ahead) (hdeep : failure.cause ≠ .tooDeep maxDepth) :
    ¬Viable (used ++ [token]) := by
  rintro ⟨more, body, demand, hprogram⟩
  -- a run over such a program, with levels for its demand, parts from this one after the token
  have hpart : Parting left (spell more) (.start file (used ++ token :: left))
      (.start file (used ++ token :: spell more)) :=
    .start file ⟨used ++ [token], by simp, by simp⟩
  have hlong : ∀ {ahead : List Token}, token :: left <:+ ahead → ¬ahead <:+ left := by
    intro ahead hbefore hafter
    have hle := (hbefore.trans hafter).length_le
    simp only [List.length_cons] at hle
    omega
  obtain ⟨d, hc', hpart'⟩ := hpart.completes hc (fun _ => hlong (ha ▸ hsuffix)) demand
  obtain ⟨d', hs'⟩ := hpart'.statement_error hs demand (by
    rintro (⟨hpast, -⟩ | ⟨-, hcause⟩)
    · exact hlong (ha ▸ List.suffix_refl _) hpast
    · exact hdeep hcause)
  have hne : d.ahead ≠ [] := by
    obtain ⟨shared, hcs, hds⟩ := hpart'.ahead
    cases shared with
    | nil => exact absurd ⟨[], hcs⟩ (hlong (ha ▸ hsuffix))
    | cons t shared => simp [hds]
  -- but that run completes the whole program
  have htext : (used ++ token :: spell more).map Token.terminal =
      (used ++ [token]).map Token.terminal ++ more := by
    simp [map_terminal_spell]
  rw [← htext] at hprogram
  obtain ⟨stmts', d₁, hc₁, hdone, -⟩ := Language.Program.completes (maxDepth + demand)
    (c := .start file (used ++ token :: spell more)) hprogram
  obtain ⟨hstop, -⟩ := hdone (Nat.le_add_left demand maxDepth)
  obtain ⟨-, -, heq⟩ := hc'.unique (.failed hne hs') hc₁ hstop
  cases heq

/-- A run that meets the end of its tokens has not read a program. -/
theorem not_sentence_of_endOfInput {expected : String} {position : Position}
    {tokens : List Token}
    (h : Program.parseUntyped file tokens = .error ⟨.endOfInput expected, position⟩) :
    ¬Sentence tokens := by
  rintro ⟨body, demand, hprogram⟩
  by_cases hfit : demand ≤ maxDepth
  · obtain ⟨p, hp, -⟩ : ∃ p, Program.parseUntyped file tokens = .ok p ∧ _ :=
      parseUntyped_of_derived hprogram hfit
    cases hp.symm.trans h
  · obtain ⟨position', hp⟩ : ∃ position', Program.parseUntyped file tokens =
        .error ⟨.tooDeep maxDepth, position'⟩ :=
      parseUntyped_tooDeep hprogram (Nat.lt_of_not_le hfit)
    cases hp.symm.trans h

end

/-- Syntax errors keep to the correct prefix: a run that fails has stopped at a cursor for which its
diagnostic is neither early nor late. -/
theorem parseUntyped_error_correctPrefix {file : String} {tokens : List Token} {e : Diagnostic}
    (h : Program.parseUntyped file tokens = .error e) :
    ∃ c, FailsAt .none () file tokens e c ∧ tokens = c.behind.reverse ++ c.ahead ∧
      CorrectPrefix e c.behind.reverse c.ahead := by
  obtain ⟨stmts, c, hc, hstop⟩ := Program.exists_completes_of_error h
  cases hstop with
  | @failed failure c' hn hs =>
    have hfails := topLevel_error rfl hc (visitAll_none stmts) hn hs (Nat.le_refl tokens.length)
    obtain ⟨before, demand, hm, hprogram, -⟩ := hc.reads
    obtain ⟨used, good, more, hm', hreports, hstmt⟩ :=
      (statement_parses .standard maxDepth).error c hs
    have hsuffix : c'.ahead <:+ c.ahead := ⟨used, hm'.ahead.symm⟩
    obtain ⟨hbehind, htokens⟩ := (hm.trans hm').of_start
    refine ⟨c', hfails, hbehind ▸ htokens, ?_⟩
    rw [hbehind]
    apply (hreports.prepend before).correctPrefix (viable_append ⟨_, _, hprogram⟩ hstmt)
    · intro token rest ha hdeep
      rw [htokens, ha] at hc
      exact not_viable_of_error hc hs ha hsuffix hdeep
    · intro expected position ha he
      rw [ha, List.append_nil] at htokens
      rw [he] at h
      exact htokens ▸ not_sentence_of_endOfInput h

/-- In `\x7b x = y y` the second name is reported, after four tokens of a program that goes on with
a semicolon or an operator. -/
theorem parseUntyped_error_correctPrefix_block :
    let tokens := spell [operator "\x7b", (.identifier, "x"), operator "=", (.identifier, "y"),
      (.identifier, "y")]
    let e : Diagnostic := ⟨.unexpectedDetailed "y" "expected `;`", .null⟩
    Program.parseUntyped "f" tokens = .error e ∧
      ∃ c, FailsAt .none () "f" tokens e c ∧ tokens = c.behind.reverse ++ c.ahead ∧
        CorrectPrefix e c.behind.reverse c.ahead := by
  intro tokens e
  have h : Program.parseUntyped "f" tokens = .error e := by rfl
  exact ⟨h, parseUntyped_error_correctPrefix h⟩

end MiniC
