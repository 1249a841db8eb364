import MiniC.Proofs.Token.Scan
import Mathlib.Logic.Relation

/-!
The scan as a loop. Each round takes a lexeme off the text ahead, until the text ends or no lexeme
begins there. What has been scanned stays the same when the text goes on in another way, as long as
it goes on with white space or not at all.
-/

namespace MiniC.Token

open Text Source

/-- White space is passed over, also before more of it. -/
theorem scanFrom_gap {file : String} {bytes chars : Nat} {gap : List Char} (h : Blank gap)
    (after : List Char) :
    scanFrom file 0 bytes chars (gap ++ after) =
      scanFrom file 0 (bytes + byteSize gap) (chars + gap.length) after := by
  have hlead : Blank (after.takeWhile isWhiteSpace) := fun c hc => List.mem_takeWhile_imp hc
  have hstop : ∀ c ∈ (after.dropWhile isWhiteSpace).head?, isWhiteSpace c = false := by
    intro c hc
    have hhead := List.head?_dropWhile_not isWhiteSpace after
    rw [hc] at hhead
    exact hhead
  rw [← List.takeWhile_append_dropWhile (p := isWhiteSpace) (l := after), ← List.append_assoc,
    scanFrom_blank (blank_append h hlead) hstop, scanFrom_blank hlead hstop, byteSize_append,
    List.length_append, Nat.add_assoc, Nat.add_assoc]

theorem ne_point_of_lexeme? {c : Char} {rest : List Char} {lexeme : Lexeme}
    (h : lexeme? c rest = some lexeme) : c ≠ '.' := by
  obtain ⟨kind, tail⟩ := lexeme
  obtain ⟨after, -, hfound⟩ := lexeme?_found h
  cases kind with
  | none =>
    rintro rfl
    exact absurd (hfound '.' List.mem_cons_self) (by decide)
  | some kind =>
    obtain ⟨d, others, hd, -, hpoint⟩ := hfound.1.head
    cases hd
    exact hpoint

/-- The same lexeme is found before another text if it may end there too. -/
theorem lexeme?_before {c : Char} {tail after after' : List Char} {kind : Kind}
    (h : lexeme? c (tail ++ after) = some ⟨some kind, tail⟩)
    (hends : Ends kind (c :: tail) after.head? → Ends kind (c :: tail) after'.head?)
    (hpoint : after'.head? ≠ some '.') :
    lexeme? c (tail ++ after') = some ⟨some kind, tail⟩ := by
  obtain ⟨rest, hrest, hspells, hended⟩ := lexeme?_found h
  obtain rfl : after = rest := List.append_cancel_left hrest
  exact lexeme?_of_spells hspells (hends hended) fun _ => hpoint

/-- A text that is empty or starts with white space. -/
def Clear (text : List Char) : Prop :=
  ∀ c ∈ text.head?, isWhiteSpace c = true

theorem Clear.ends {rest : List Char} (h : Clear rest) (kind : Kind) (lexeme : List Char) :
    Ends kind lexeme rest.head? := by
  cases hrest : rest.head? with
  | none => exact ends_none
  | some c => exact ends_of_isWhiteSpace (h c hrest)

theorem Clear.ne_point {rest : List Char} (h : Clear rest) : rest.head? ≠ some '.' := by
  intro hrest
  exact absurd (h '.' hrest) (by decide)

/-- How far a scan has come: the text behind it, the tokens made of it, and the text ahead. -/
structure Scanning where
  behind : List Char
  tokens : List Token
  ahead : List Char

namespace Scanning

/-- The start of a text. -/
def start (text : List Char) : Scanning :=
  ⟨[], [], text⟩

/-- One round takes a lexeme off the text ahead, and makes it a token unless it is white space. -/
inductive Step (file : String) : Scanning → Scanning → Prop where
  | space {behind tokens c tail after} : lexeme? c (tail ++ after) = some ⟨none, tail⟩ →
      Step file ⟨behind, tokens, c :: (tail ++ after)⟩ ⟨behind ++ c :: tail, tokens, after⟩
  | token {behind tokens kind c tail after} :
      lexeme? c (tail ++ after) = some ⟨some kind, tail⟩ →
      Step file ⟨behind, tokens, c :: (tail ++ after)⟩
        ⟨behind ++ c :: tail,
          tokens ++ [Piece.token file (byteSize behind) ⟨kind, c :: tail, []⟩], after⟩

/-- Any number of rounds. -/
abbrev Reaches (file : String) : Scanning → Scanning → Prop :=
  Relation.ReflTransGen (Step file)

/-- No lexeme begins ahead. -/
inductive Stuck : Scanning → Prop where
  | intro {behind tokens c after} : lexeme? c after = none → Stuck ⟨behind, tokens, c :: after⟩

/-- What a scan comes to from here. -/
def outcome (file : String) (s : Scanning) : Except Diagnostic (List Token) :=
  (scanFrom file 0 (byteSize s.behind) s.behind.length s.ahead).map (s.tokens ++ ·)

variable {file : String} {s s' : Scanning}

theorem outcome_start (source : String) :
    (start source.toList).outcome file = scan file source := by
  rw [outcome, scan]
  cases hscan : scanFrom file 0 0 0 source.toList with
  | error e => simp [start, byteSize, hscan, Except.map]
  | ok tokens => simp [start, byteSize, hscan, Except.map]

/-- White space ahead makes no difference. -/
theorem outcome_gap {behind gap : List Char} (h : Blank gap) (tokens : List Token)
    (after : List Char) :
    outcome file ⟨behind, tokens, gap ++ after⟩ = outcome file ⟨behind ++ gap, tokens, after⟩ := by
  simp only [outcome, scanFrom_gap h, byteSize_append, List.length_append]

/-- A round does not change what the scan comes to. -/
theorem Step.outcome_eq (h : Step file s s') : s.outcome file = s'.outcome file := by
  cases h with
  | space hl => simp only [outcome, scanFrom_space hl, byteSize_append, List.length_append]
  | @token behind tokens kind c tail after hl =>
    simp only [outcome, scanFrom_token [] hl, byteSize_append, List.length_append]
    cases scanFrom file 0 (byteSize behind + byteSize (c :: tail))
      (behind.length + (c :: tail).length) after with
    | error e => rfl
    | ok rest => simp [bind, Except.bind, Except.map, pure, Except.pure]

theorem Reaches.outcome_eq (h : Reaches file s s') : s.outcome file = s'.outcome file := by
  induction h with
  | refl => rfl
  | tail _ hstep ih => exact ih.trans hstep.outcome_eq

/-- From everywhere the loop comes to the end of the text or gets stuck. -/
theorem exists_reaches (file : String) (s : Scanning) :
    ∃ s', Reaches file s s' ∧ (s'.ahead = [] ∨ s'.Stuck) := by
  obtain ⟨behind, tokens, ahead⟩ := s
  -- by induction on the length of the text ahead, as each round takes a lexeme off it
  induction hn : ahead.length using Nat.strongRecOn generalizing behind tokens ahead with
  | ind n ih =>
    subst hn
    cases ahead with
    | nil => exact ⟨_, .refl, .inl rfl⟩
    | cons c rest =>
      cases hl : lexeme? c rest with
      | none => exact ⟨_, .refl, .inr (.intro hl)⟩
      | some lexeme =>
        obtain ⟨kind, tail⟩ := lexeme
        obtain ⟨after, rfl, -⟩ := lexeme?_found hl
        have hlt : after.length < (c :: (tail ++ after)).length := by
          rw [List.length_cons, List.length_append]
          omega
        cases kind with
        | none =>
          obtain ⟨s', hreach, hend⟩ := ih _ hlt (behind ++ c :: tail) tokens after rfl
          exact ⟨s', .head (.space hl) hreach, hend⟩
        | some kind =>
          obtain ⟨s', hreach, hend⟩ := ih _ hlt (behind ++ c :: tail) _ after rfl
          exact ⟨s', .head (.token hl) hreach, hend⟩

/-- Between two places of the loop lies a text. Where it stands before nothing or before white
space, a scan comes through it with the same tokens. -/
theorem Reaches.exists_text (h : Reaches file s s') :
    ∃ text, s.ahead = text ++ s'.ahead ∧ s'.behind = s.behind ++ text ∧
      text.head? ≠ some '.' ∧ ∀ rest, Clear rest →
        outcome file ⟨s.behind, s.tokens, text ++ rest⟩ =
          outcome file ⟨s'.behind, s'.tokens, rest⟩ := by
  induction h using Relation.ReflTransGen.head_induction_on with
  | refl => exact ⟨[], rfl, by simp, by simp, fun rest _ => rfl⟩
  | head hstep _ ih =>
    obtain ⟨text, hahead, hbehind, hpoint, hrun⟩ := ih
    cases hstep with
    | @space behind tokens c tail after hl =>
      have hblank : Blank (c :: tail) := by
        obtain ⟨rest, -, hblank⟩ := lexeme?_found hl
        exact hblank
      refine ⟨c :: tail ++ text, by simp [← hahead], by simp [hbehind], ?_, fun rest hrest => ?_⟩
      · simpa using ne_point_of_lexeme? hl
      · rw [List.append_assoc, outcome_gap hblank]
        exact hrun rest hrest
    | @token behind tokens kind c tail after hl =>
      refine ⟨c :: tail ++ text, by simp [← hahead], by simp [hbehind], ?_, fun rest hrest => ?_⟩
      · simpa using ne_point_of_lexeme? hl
      -- the lexeme is followed by what it was followed by before, or by nothing that it runs into
      have hl' : lexeme? c (tail ++ (text ++ rest)) = some ⟨some kind, tail⟩ := by
        cases text with
        | nil => exact lexeme?_before hl (fun _ => hrest.ends kind _) hrest.ne_point
        | cons d text =>
          have hahead : after = d :: (text ++ s'.ahead) := hahead
          exact lexeme?_before hl (fun hends => by simpa [hahead] using hends) hpoint
      have hstep' : Step file ⟨behind, tokens, c :: (tail ++ (text ++ rest))⟩ _ := .token hl'
      rw [List.append_assoc, List.cons_append, hstep'.outcome_eq]
      exact hrun rest hrest

/-- What has been scanned of a text is scanned to the same tokens with another text after it. -/
theorem Reaches.outcome_start {text behind ahead rest : List Char} {tokens : List Token}
    (h : Reaches file (start text) ⟨behind, tokens, ahead⟩) (hrest : Clear rest) :
    outcome file (start (behind ++ rest)) = outcome file ⟨behind, tokens, rest⟩ := by
  obtain ⟨between, -, hbehind, -, hrun⟩ := h.exists_text
  obtain rfl : behind = between := hbehind
  exact hrun rest hrest

theorem Stuck.outcome_eq {behind : List Char} {tokens : List Token} {c : Char} {after : List Char}
    (h : lexeme? c after = none) :
    outcome file ⟨behind, tokens, c :: after⟩ =
      .error ⟨.unrecognised (String.singleton c) (UInt32.ofNat behind.length),
        .ofBytes (byteSize behind) file⟩ := by
  simp [outcome, scanFrom, h, Except.map]

/-- Where the scan of a source comes to its end. -/
theorem exists_end (file source : String) :
    ∃ behind tokens ahead, source.toList = behind ++ ahead ∧
      Reaches file (start source.toList) ⟨behind, tokens, ahead⟩ ∧
      scan file source = outcome file ⟨behind, tokens, ahead⟩ ∧
      (ahead = [] ∨ Stuck ⟨behind, tokens, ahead⟩) := by
  obtain ⟨⟨behind, tokens, ahead⟩, hreach, hend⟩ := exists_reaches file (start source.toList)
  obtain ⟨text, hahead, hbehind, -, -⟩ := hreach.exists_text
  have hbehind : behind = text := hbehind
  refine ⟨behind, tokens, ahead, hbehind ▸ hahead, hreach, ?_, hend⟩
  rw [← outcome_start]
  exact hreach.outcome_eq

end Scanning

open Scanning

variable {file source : String} {tokens : List Token}

/-- A scan that succeeds has come to the end of the text. -/
theorem reaches_of_scan (h : scan file source = .ok tokens) :
    Reaches file (start source.toList) ⟨source.toList, tokens, []⟩ := by
  obtain ⟨behind, made, ahead, htext, hreach, hscan, hend⟩ := exists_end file source
  rw [h] at hscan
  rcases hend with rfl | hstuck
  · have hmade : tokens = made := by simpa [outcome, scanFrom, Except.map] using hscan
    have hbehind : source.toList = behind := htext.trans (List.append_nil behind)
    rwa [← hmade, ← hbehind] at hreach
  · cases hstuck with
    | intro hl => cases hscan.trans (Stuck.outcome_eq hl)

/-- A scan that fails has got stuck, and tells where. -/
theorem reaches_of_scan_error {e : Diagnostic} (h : scan file source = .error e) :
    ∃ before tokens c after, source.toList = before ++ c :: after ∧ lexeme? c after = none ∧
      Reaches file (start source.toList) ⟨before, tokens, c :: after⟩ ∧
      e = ⟨.unrecognised (String.singleton c) (UInt32.ofNat before.length),
        .ofBytes (byteSize before) file⟩ := by
  obtain ⟨behind, made, ahead, htext, hreach, hscan, hend⟩ := exists_end file source
  rw [h] at hscan
  rcases hend with rfl | hstuck
  · cases hscan
  · cases hstuck with
    | @intro _ _ c after hl =>
      rw [Stuck.outcome_eq hl] at hscan
      exact ⟨behind, made, c, after, htext, hl, hreach, Except.error.inj hscan⟩

end MiniC.Token
