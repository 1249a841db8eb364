import MiniC.Command
import MiniC.Proofs.Grammar.ErrorPlace
import MiniC.Proofs.Source.Line

/-!
Where the caret of a report points. The source is cut around the line of the error and, in this
line, around the place of the error; what is shown is the line without its indent and without the
white space at its end.
-/

namespace MiniC

open Grammar Source Text

namespace Report

/-- A text cut around a line and around a place in what is shown of the line. -/
structure Cut (text : List Char) where
  /-- The lines before. -/
  earlier : List Char
  indent : List Char
  /-- What is shown before the place. -/
  lead : List Char
  /-- What is shown from the place on. -/
  rest : List Char
  /-- The white space at the end of the line. -/
  trail : List Char
  later : List Char
  text_eq : text = earlier ++ (indent ++ (lead ++ rest) ++ trail ++ later)
  earlier_ends : EndsLine earlier
  is_line : IsLine (indent ++ (lead ++ rest) ++ trail) later
  indent_all : ∀ c ∈ indent, isIndent c = true
  indent_ends : ∀ c ∈ (lead ++ rest ++ trail).head?, isIndent c = false
  trail_all : ∀ c ∈ trail, isWhiteSpace c = true
  trail_starts : ∀ c ∈ (lead ++ rest).getLast?, isWhiteSpace c = false

namespace Cut

variable {text : List Char} (cut : Cut text)

/-- The whole line. -/
def line : List Char :=
  cut.indent ++ (cut.lead ++ cut.rest) ++ cut.trail

/-- The line as a report shows it, without the white space around it. -/
def shown : List Char :=
  cut.lead ++ cut.rest

/-- The number of the line. -/
def number : Nat :=
  1 + cut.earlier.count '\n'

/-- The number of bytes before the place. -/
def offset : Nat :=
  byteSize (cut.earlier ++ cut.indent ++ cut.lead)

end Cut

theorem isWhiteSpace_of_isIndent {c : Char} (h : isIndent c = true) : isWhiteSpace c = true := by
  have hc : c = ' ' ∨ c = '\t' := by simpa [isIndent] using h
  rcases hc with rfl | rfl <;> decide

/-- Blanks and tabs are one byte each. -/
theorem byteSize_indent {indent : List Char} (h : ∀ c ∈ indent, isIndent c = true) :
    byteSize indent = indent.length := by
  induction indent with
  | nil => rfl
  | cons c indent ih =>
    obtain ⟨hc, hrest⟩ := List.forall_mem_cons.1 h
    have hc : c = ' ' ∨ c = '\t' := by simpa [isIndent] using hc
    have hsize : c.utf8Size = 1 := by rcases hc with rfl | rfl <;> decide
    rw [byteSize, hsize, ih hrest, List.length_cons, Nat.add_comm]

/-- Trimming takes the white space at the end away, and no more. -/
theorem trimEnd_append {shown trail : List Char} (ht : ∀ c ∈ trail, isWhiteSpace c = true)
    (hs : ∀ c ∈ shown.getLast?, isWhiteSpace c = false) : trimEnd (shown ++ trail) = shown := by
  have hrest : ∀ c ∈ shown.reverse.head?, isWhiteSpace c = false := by
    rwa [List.head?_reverse]
  rw [trimEnd, List.reverse_append, Token.dropWhile_run (by simpa using ht) hrest,
    List.reverse_reverse]

namespace Cut

/-- A newline belongs to the white space at the end of its line. -/
theorem trail_ne_nil {text : List Char} (cut : Cut text) (h : cut.line.getLast? = some '\n') :
    cut.trail ≠ [] := by
  intro hnil
  rw [line, hnil, List.append_nil, List.getLast?_append, Option.or_eq_some_iff] at h
  rcases h with hshown | ⟨-, hindent⟩
  · exact absurd (cut.trail_starts _ hshown) (by decide)
  · exact absurd (cut.indent_all _ (List.mem_of_getLast? hindent)) (by decide)

/-- The line that holds the place, and where in it. -/
theorem lineAt_eq {source : String} (cut : Cut source.toList) {position : UInt32}
    (h : position.toNat = cut.offset) : lineAt source position =
      ⟨cut.number, String.ofList cut.line, cut.indent.length + byteSize cut.lead⟩ := by
  have hindent := byteSize_indent cut.indent_all
  have hplace : position.toNat =
      byteSize cut.earlier + (cut.indent.length + byteSize cut.lead) := by
    simp only [h, offset, byteSize_append, hindent, Nat.add_assoc]
  have hline : byteSize cut.line = cut.indent.length + byteSize cut.lead + byteSize cut.rest +
      byteSize cut.trail := by
    simp only [line, byteSize_append, hindent, Nat.add_assoc]
  refine Source.lineAt_eq cut.text_eq cut.earlier_ends cut.is_line hplace ?_ fun hlast => ?_
  · show _ ≤ byteSize cut.line
    omega
  · show _ < byteSize cut.line
    have htrail := byteSize_pos (cut.trail_ne_nil hlast)
    omega

/-- What the report shows: the line without its indent and the white space at its end, and below it
as many dashes as there are bytes of it before the place. -/
theorem report_eq {source : String} (cut : Cut source.toList) {e : Diagnostic}
    (h : e.position.offset.toNat = cut.offset) (name : String) :
    e.report name source =
      let number := toString cut.number
      let bar := String.ofList (List.replicate (number.length + 1) ' ') ++ "|"
      e.header ++ "\n" ++ "-> " ++ name ++ "\n" ++ bar ++ "\n" ++
        number ++ " | " ++ String.ofList cut.shown ++ "\n" ++
        bar ++ " " ++ String.ofList (List.replicate (byteSize cut.lead) '-') ++ "^\n" := by
  have hline : cut.line = cut.indent ++ (cut.shown ++ cut.trail) := List.append_assoc ..
  have htake : cut.line.takeWhile isIndent = cut.indent := by
    rw [hline]
    exact Token.takeWhile_run cut.indent_all cut.indent_ends
  have hdrop : cut.line.dropWhile isIndent = cut.shown ++ cut.trail := by
    rw [hline]
    exact Token.dropWhile_run cut.indent_all cut.indent_ends
  have htrim : trimEnd (cut.shown ++ cut.trail) = cut.shown :=
    trimEnd_append cut.trail_all cut.trail_starts
  simp only [Diagnostic.report, cut.lineAt_eq h, String.toList_ofList, htake, hdrop, htrim,
    Nat.add_sub_cancel_left]

end Cut

theorem exists_indent (text : List Char) :
    ∃ indent rest, text = indent ++ rest ∧ (∀ c ∈ indent, isIndent c = true) ∧
      ∀ c ∈ rest.head?, isIndent c = false := by
  refine ⟨_, _, List.takeWhile_append_dropWhile.symm, fun c hc => List.mem_takeWhile_imp hc, ?_⟩
  intro c hc
  have hhead := List.head?_dropWhile_not isIndent text
  rw [Option.mem_def.1 hc] at hhead
  simpa using hhead

theorem exists_trail (text : List Char) :
    ∃ shown trail, text = shown ++ trail ∧ (∀ c ∈ trail, isWhiteSpace c = true) ∧
      ∀ c ∈ shown.getLast?, isWhiteSpace c = false := by
  refine ⟨trimEnd text, (text.reverse.takeWhile isWhiteSpace).reverse, ?_, ?_, ?_⟩
  · rw [trimEnd, ← List.reverse_append, List.takeWhile_append_dropWhile, List.reverse_reverse]
  · intro c hc
    exact List.mem_takeWhile_imp (List.mem_reverse.1 hc)
  · intro c hc
    have hhead := List.head?_dropWhile_not isWhiteSpace text.reverse
    rw [trimEnd, List.getLast?_reverse] at hc
    rw [Option.mem_def.1 hc] at hhead
    simpa using hhead

/-- A place before a character that is not white space, or after the last such character. -/
def Visible (before after : List Char) : Prop :=
  (∃ c more, after = c :: more ∧ isWhiteSpace c = false) ∨
    (Token.Blank after ∧ ∃ c, before.getLast? = some c ∧ isWhiteSpace c = false)

section

variable {earlier indent lead rest trail later : List Char}

/-- What is not white space at the place is shown. -/
theorem shown_of_starts (hl : IsLine (rest ++ trail) later)
    (ht : ∀ c ∈ trail, isWhiteSpace c = true) {c : Char} {more : List Char}
    (h : rest ++ trail ++ later = c :: more) (hc : isWhiteSpace c = false) :
    ∃ shown, rest = c :: shown := by
  cases rest with
  | cons d shown =>
    cases h
    exact ⟨shown, rfl⟩
  | nil =>
    cases trail with
    | nil =>
      rw [hl.later_eq_nil rfl] at h
      cases h
    | cons d trail =>
      cases h
      rw [ht c List.mem_cons_self] at hc
      cases hc

/-- Nothing is shown of white space up to the end. -/
theorem shown_of_blank (hr : ∀ c ∈ rest.getLast?, isWhiteSpace c = false)
    (h : Token.Blank (rest ++ trail ++ later)) : rest = [] := by
  cases hlast : rest.getLast? with
  | none => exact List.getLast?_eq_none_iff.1 hlast
  | some c =>
    have hc := h c (by simp [List.mem_of_getLast? hlast])
    rw [hr c hlast] at hc
    cases hc

/-- What is not white space before the place is shown. -/
theorem lead_of_last (he : EndsLine earlier) (hi : ∀ c ∈ indent, isIndent c = true) {c : Char}
    (h : (earlier ++ (indent ++ lead)).getLast? = some c) (hc : isWhiteSpace c = false) :
    lead.getLast? = some c := by
  rw [← List.append_assoc, List.getLast?_append, Option.or_eq_some_iff, List.getLast?_append,
    Option.or_eq_some_iff] at h
  rcases h with h | ⟨-, h | ⟨-, h⟩⟩
  · exact h
  · rw [isWhiteSpace_of_isIndent (hi c (List.mem_of_getLast? h))] at hc
    cases hc
  · rw [he c h] at hc
    exact absurd hc (by decide)

end

/-- A text can be cut at such a place. -/
theorem Visible.exists_cut {text before after : List Char} (htext : text = before ++ after)
    (h : Visible before after) :
    ∃ cut : Cut text, cut.earlier ++ cut.indent ++ cut.lead = before ∧
      cut.rest ++ cut.trail ++ cut.later = after ∧
      (∀ c more, after = c :: more → isWhiteSpace c = false → ∃ shown, cut.rest = c :: shown) ∧
      (Token.Blank after → cut.rest = []) := by
  subst htext
  obtain ⟨earlier, part, rfl, he, hpart⟩ := exists_endsLine before
  obtain ⟨tail, later, rfl, hl⟩ := exists_isLine after
  have hline := hl.prepend hpart
  obtain ⟨indent, lead, rfl, hindent, hlead⟩ := exists_indent part
  obtain ⟨rest, trail, rfl, htrail, hrest⟩ := exists_trail tail
  have hends : (∀ c ∈ (lead ++ rest ++ trail).head?, isIndent c = false) ∧
      ∀ c ∈ (lead ++ rest).getLast?, isWhiteSpace c = false := by
    rcases h with ⟨c, more, heq, hc⟩ | ⟨hblank, c, hlast, hc⟩
    · obtain ⟨shown, rfl⟩ := shown_of_starts hl htrail heq hc
      constructor
      · cases lead with
        | cons d lead => exact hlead
        | nil =>
          rintro d ⟨⟩
          rw [Bool.eq_false_iff]
          intro hd
          rw [isWhiteSpace_of_isIndent hd] at hc
          cases hc
      · rw [List.getLast?_append, List.getLast?_cons, Option.some_or, ← List.getLast?_cons]
        exact hrest
    · have hlead' := lead_of_last he hindent hlast hc
      obtain rfl := shown_of_blank hrest hblank
      constructor
      · cases lead with
        | nil => cases hlead'
        | cons d lead => exact hlead
      · rw [List.append_nil, hlead']
        rintro d ⟨⟩
        exact hc
  refine ⟨⟨earlier, indent, lead, rest, trail, later, ?_, he, ?_, hindent, hends.1, htrail,
    hends.2⟩, ?_, rfl, fun c more => shown_of_starts hl htrail, shown_of_blank hrest⟩
  · simp only [List.append_assoc]
  · simpa only [List.append_assoc] using hline
  · exact List.append_assoc ..

end Report

open Report

variable {name source : String} {e : Diagnostic}

/-- Every error is found at a visible place. -/
theorem Program.FoundAt.visible {before after : List Char}
    (h : FoundAt name source e before after) : Visible before after := by
  cases h with
  | character _ _ hafter hc => exact .inl ⟨_, _, hafter, hc⟩
  | token _ _ _ _ _ _ hafter hs =>
    obtain ⟨c, tail, hl, hc, -⟩ := hs.head
    rw [hl] at hafter
    exact .inl ⟨c, _, hafter, hc⟩
  | ended _ _ _ _ hlast hc hblank => exact .inr ⟨hblank, _, hlast, hc⟩

/-- The loop over statements stops at one place. -/
theorem Grammar.FailsAt.unique {σ : Type} {visit : Visit σ} {state : σ} {file : String}
    {ts : List Token} {c c' : Cursor} (h : FailsAt visit state file ts e c)
    (h' : FailsAt visit state file ts e c') : c = c' := by
  cases Eq.trans (Eq.symm h) h'
  rfl

/-- The caret points at the error. The commands print the report of an error of a source text of
less than four gigabytes. The source can be cut around the line and the place of the error so that
what is shown of the line is the line without its indent and the white space at its end; that the
place lies behind the indent; that both rows have their bar in the same column; and that as many
dashes lead to the caret as there are bytes shown before the place. What is shown from there on
starts with the character that no lexeme begins with, or with the token that the error points to,
which is the one that its cause names; it is nothing if the error is only that the tokens have
ended. -/
theorem Report.caret_points (hsize : source.utf8ByteSize < 4294967296)
    (h : Token.scan name source = .error e ∨ Program.ofSource name source = .error e) :
    (Token.scan name source = .error e →
      Command.listTokens name source = .failed (e.report name source)) ∧
    (Program.ofSource name source = .error e →
      Command.showTree name source = .failed (e.report name source)) ∧
    ∃ cut : Cut source.toList, e.position.offset.toNat = cut.offset ∧
      lineAt source e.position.offset =
        ⟨cut.number, String.ofList cut.line, cut.indent.length + byteSize cut.lead⟩ ∧
      (e.report name source =
        let number := toString cut.number
        let bar := String.ofList (List.replicate (number.length + 1) ' ') ++ "|"
        e.header ++ "\n" ++ "-> " ++ name ++ "\n" ++ bar ++ "\n" ++
          number ++ " | " ++ String.ofList cut.shown ++ "\n" ++
          bar ++ " " ++ String.ofList (List.replicate (byteSize cut.lead) '-') ++ "^\n") ∧
      (Token.scan name source = .error e → ∃ c more, cut.rest = c :: more ∧
        e.cause.token? = some (String.singleton c)) ∧
      ∀ ts c, Token.scan name source = .ok ts → FailsAt .check .fresh name ts e c →
        (e.cause.Unfinished ∧ c.ahead = [] → cut.rest = []) ∧
        (¬(e.cause.Unfinished ∧ c.ahead = []) → cut.rest ≠ [] ∧
          ∃ token ∈ ts, e.position = token.span.start ∧
            (∀ lexeme, e.cause.token? = some lexeme → token.lexeme = lexeme) ∧
            ∃ after, cut.rest ++ cut.trail ++ cut.later = token.lexeme.toList ++ after) := by
  have hsource : Program.ofSource name source = .error e := by
    rcases h with h | h
    · rw [Program.ofSource, h]
      rfl
    · exact h
  obtain ⟨before, after, htext, hpos, hfound⟩ := Program.exists_foundAt hsource
  obtain ⟨cut, hbefore, hafter, hstarts, hblank⟩ := hfound.visible.exists_cut htext
  have hoffset : e.position.offset.toNat = cut.offset := by
    have htotal := byteSize_toList source
    rw [htext, byteSize_append] at htotal
    rw [hpos, Position.toNat_ofBytes _ (by omega), Cut.offset, hbefore]
  refine ⟨fun h => by rw [Command.listTokens, h], fun h => by rw [Command.showTree, h], cut,
    hoffset, cut.lineAt_eq hoffset, cut.report_eq hoffset name, ?_, ?_⟩
  · intro hscan
    cases hfound with
    | character _ hname hc hw =>
      obtain ⟨shown, hshown⟩ := hstarts _ _ hc hw
      exact ⟨_, shown, hshown, hname⟩
    | token hs | ended hs => cases hscan.symm.trans hs
  · intro ts c hscan hfails
    cases hfound with
    | character hs => cases hscan.symm.trans hs
    | token hs hf hfinal ht hplace hname hlexeme hspells =>
      cases hscan.symm.trans hs
      obtain rfl := hfails.unique hf
      refine ⟨fun hend => absurd hend hfinal, fun _ => ⟨?_, _, ht, hplace, hname, _,
        hafter.trans hlexeme⟩⟩
      obtain ⟨d, tail, hl, hw, -⟩ := hspells.head
      rw [hl] at hlexeme
      obtain ⟨shown, hshown⟩ := hstarts _ _ hlexeme hw
      simp [hshown]
    | ended hs hf hu ha _ _ hb =>
      cases hscan.symm.trans hs
      obtain rfl := hfails.unique hf
      exact ⟨fun _ => hblank hb, fun hfinal => absurd ⟨hu, ha⟩ hfinal⟩

/-- An indented declaration without its semicolon: five bytes are shown, and the caret stands after
them. -/
theorem Report.caret_points_declaration :
    let source := "  int x \n"
    let e : Diagnostic := ⟨.endOfInput "`;`", ⟨7, "f"⟩⟩
    Program.ofSource "f" source = .error e ∧
      e.report "f" source = e.header ++ "\n-> f\n  |\n1 | int x\n  | -----^\n" ∧
      ∃ cut : Cut source.toList, cut.offset = 7 ∧
        Command.showTree "f" source = .failed (e.report "f" source) := by
  intro source e
  let span (start stop : UInt32) : Span := ⟨⟨start, "f"⟩, ⟨stop, "f"⟩⟩
  let ts : List Token := [⟨.keyword, "int", span 2 5⟩, ⟨.identifier, "x", span 6 7⟩]
  have hscan : Token.scan "f" source = .ok ts := by decide +kernel
  have hsource : Program.ofSource "f" source = .error e := by
    rw [Program.ofSource, hscan]
    rfl
  obtain ⟨-, hprinted, cut, hoffset, -⟩ := caret_points (by decide) (.inr hsource)
  exact ⟨hsource, by decide +kernel, cut, hoffset.symm, hprinted hsource⟩

end MiniC
