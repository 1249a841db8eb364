import MiniC.Proofs.Grammar.OriginStatement
import MiniC.Proofs.Token.Loop
import MiniC.Proofs.Token.Place
import MiniC.Proofs.Typing.Annotation

/-!
Where errors are located: at the start of a token, at the end of the last one, or, if the text does
not scan, at a character. So all of them lie in the source, between characters.
-/

namespace MiniC

open MiniC.Language Grammar Source

theorem Cause.Semantic.final {cause : Cause} (h : cause.Semantic) :
    cause.token? = none ∧ ¬cause.Unfinished := by
  cases cause <;> simp_all [Cause.Semantic, Cause.kind, Cause.token?, Cause.Unfinished]

theorem Grammar.Visit.check_points : Visit.check.Points := by
  intro scopes stmt e h
  rw [Visit.check] at h
  split at h
  · cases h
  · next hc =>
    cases h
    obtain ⟨hs, hnode⟩ := Stmt.check_error hc 0
    exact ⟨hs.final.1, hs.final.2, hnode⟩

namespace Program

variable {file source : String} {file? : Option String} {ts : List Token} {e : Diagnostic}

theorem parse_located (h : parse file ts = .error e) :
    ∃ c, FailsAt .check .fresh file ts e c ∧ c.Among ts ∧ e.Located ts c ∧ ts ≠ [] :=
  program_located Visit.check_points h

end Program

/-- A place of a token: the start of one, or the end of the last. -/
theorem Diagnostic.Located.place {ts : List Token} {c : Cursor} {e : Diagnostic}
    (h : e.Located ts c) (hc : c.Among ts) (hne : ts ≠ []) :
    ((∃ token ∈ ts, e.position = token.span.start ∧
        ∀ lexeme, e.cause.token? = some lexeme → token.lexeme = lexeme) ∧
      ¬(e.cause.Unfinished ∧ c.ahead = [])) ∨
    (e.cause.Unfinished ∧ c.ahead = [] ∧
      ∃ token, ts.getLast? = some token ∧ e.position = token.span.stop) := by
  cases h with
  | @token cause token ht hname hfinal =>
    exact .inl ⟨⟨token, ht, rfl, hname⟩, fun hend => hfinal hend.1 hend.2⟩
  | @ended cause hu ha =>
    right
    refine ⟨hu, ha, ?_⟩
    have hlast := hc.getLast? ha
    cases hb : c.behind with
    | nil =>
      rw [hb] at hlast
      exact absurd (List.getLast?_eq_none_iff.1 hlast) hne
    | cons token behind =>
      rw [hb] at hlast
      exact ⟨token, hlast, by simp [Cursor.previousEnd, hb]⟩

namespace Program

variable {file source : String} {file? : Option String} {ts : List Token} {e : Diagnostic}

/-- What stands at the place of an error, which parts a source text in two: the character that no
lexeme begins with, a token, which the cause may name, or nothing but white space if the tokens have
ended too early. -/
inductive FoundAt (file source : String) (e : Diagnostic) (before after : List Char) : Prop where
  | character {c : Char} {more : List Char} : Token.scan file source = .error e →
      e.cause.token? = some (String.singleton c) → after = c :: more →
      Text.isWhiteSpace c = false → FoundAt file source e before after
  | token {ts : List Token} {c : Cursor} {token : Token} {rest : List Char} :
      Token.scan file source = .ok ts → FailsAt .check .fresh file ts e c →
      ¬(e.cause.Unfinished ∧ c.ahead = []) → token ∈ ts → e.position = token.span.start →
      (∀ lexeme, e.cause.token? = some lexeme → token.lexeme = lexeme) →
      after = token.lexeme.toList ++ rest → Token.Spells token.kind token.lexeme.toList →
      FoundAt file source e before after
  | ended {ts : List Token} {c : Cursor} {last : Char} : Token.scan file source = .ok ts →
      FailsAt .check .fresh file ts e c → e.cause.Unfinished → c.ahead = [] →
      before.getLast? = some last → Text.isWhiteSpace last = false → Token.Blank after →
      FoundAt file source e before after

/-- An error of a source text lies between two characters of it. -/
theorem exists_foundAt (h : ofSource file source = .error e) :
    ∃ before after, source.toList = before ++ after ∧
      e.position = .ofBytes (byteSize before) file ∧ FoundAt file source e before after := by
  cases hs : Token.scan file source with
  | error e' =>
    rw [ofSource, hs] at h
    cases h
    obtain ⟨before, -, c, after, htext, hc, -, rfl⟩ := Token.reaches_of_scan_error hs
    exact ⟨before, c :: after, htext, rfl,
      .character hs rfl rfl (Token.not_isWhiteSpace_of_lexeme? hc)⟩
  | ok ts =>
    rw [ofSource, hs] at h
    obtain ⟨c, hf, hc, hl, hne⟩ := parse_located h
    rcases hl.place hc hne with ⟨⟨token, ht, hpos, hname⟩, hfinal⟩ | ⟨hu, ha, token, ht, hpos⟩
    · obtain ⟨before, after, hst⟩ := Token.scan_stands hs ht
      exact ⟨before, _, hst.text, hpos.trans hst.start,
        .token hs hf hfinal ht hpos hname rfl hst.spells⟩
    · obtain ⟨before, after, hst, hblank⟩ := Token.scan_stands_last hs ht
      obtain ⟨last, hlast, hw⟩ := hst.spells.last
      refine ⟨before ++ token.lexeme.toList, after, ?_, hpos.trans hst.stop,
        .ended hs hf hu ha ?_ hw hblank⟩
      · rw [hst.text, List.append_assoc]
      · rw [List.getLast?_append, hlast, Option.some_or]

/-- Every error is located in the input. The error of a list of tokens points to the start of one of
them, or, if it is only that more of them should follow and it was met with none left, to the end of
the last; errors of types and names always point to the start of a token. So an error of a source
text of less than four gigabytes, lexical or not, points into the text, between characters, and
names its file. -/
theorem error_located :
    (∀ file ts e, parse file ts = .error e →
      ∃ c, FailsAt .check .fresh file ts e c ∧ ts = c.behind.reverse ++ c.ahead ∧
        ((∃ token ∈ ts, e.position = token.span.start) ∨
          (e.cause.Unfinished ∧ c.ahead = [] ∧
            ∃ token, ts.getLast? = some token ∧ e.position = token.span.stop)) ∧
        (e.cause.Semantic → ∃ token ∈ ts, e.position = token.span.start)) ∧
    (∀ file? source e, source.utf8ByteSize < 4294967296 → ofText file? source = .error e →
      e.position.offset.toNat ≤ source.utf8ByteSize ∧
        (String.Pos.Raw.mk e.position.offset.toNat).IsValid source ∧
        e.position.file = file?.getD "shell") := by
  constructor
  · intro file ts e h
    obtain ⟨c, hf, hc, hl, hne⟩ := parse_located h
    refine ⟨c, hf, hc, ?_⟩
    rcases hl.place hc hne with ⟨⟨token, ht, hpos, -⟩, -⟩ | hend
    · exact ⟨.inl ⟨token, ht, hpos⟩, fun _ => ⟨token, ht, hpos⟩⟩
    · exact ⟨.inr hend, fun hs => absurd hend.1 hs.final.2⟩
  · intro file? source e hsize h
    obtain ⟨before, after, htext, hpos, -⟩ := exists_foundAt h
    have htotal := byteSize_toList source
    rw [htext, byteSize_append] at htotal
    rw [hpos, Position.toNat_ofBytes _ (by omega)]
    exact ⟨by omega, isValid_byteSize htext, rfl⟩

/-- A declaration without its semicolon: the error points to the end of its last token, which is
that of the text. -/
theorem error_located_declaration :
    let span (start stop : UInt32) : Span := ⟨⟨start, "shell"⟩, ⟨stop, "shell"⟩⟩
    let ts : List Token := [⟨.keyword, "int", span 0 3⟩, ⟨.identifier, "x", span 4 5⟩]
    let e : Diagnostic := ⟨.endOfInput "`;`", ⟨5, "shell"⟩⟩
    parse "shell" ts = .error e ∧
      (∃ c, FailsAt .check .fresh "shell" ts e c ∧ ts = c.behind.reverse ++ c.ahead) ∧
      ofText none "int x" = .error e ∧ (String.Pos.Raw.mk 5).IsValid "int x" := by
  intro span ts e
  have hscan : Token.scan "shell" "int x" = .ok ts := by decide +kernel
  have hparse : parse "shell" ts = .error e := by rfl
  have htext : ofText none "int x" = .error e := by
    show ofSource "shell" "int x" = .error e
    rw [ofSource, hscan]
    exact hparse
  obtain ⟨c, hfails, hamong, -⟩ := error_located.1 "shell" ts e hparse
  exact ⟨hparse, ⟨c, hfails, hamong⟩, htext,
    (error_located.2 none "int x" e (by decide) htext).2.1⟩

end Program

end MiniC
