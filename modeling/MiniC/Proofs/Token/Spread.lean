import MiniC.Proofs.Grammar.Language
import MiniC.Proofs.Token.Scan

/-!
Lexemes spread out. A lexeme ends where white space starts, so lexemes that have been scanned from
one text are scanned again when they are written with white space between them, and they make tokens
of the same terminals.
-/

namespace MiniC.Token

open Source

/-- Lexemes written one after the other, each followed by white space, which only the last may do
without. -/
inductive Spread : List String → List Char → Prop where
  | nil : Spread [] []
  | last {lexeme gap} : Blank gap → Spread [lexeme] (lexeme.toList ++ gap)
  | cons {lexeme gap lexemes text} : Blank gap → gap ≠ [] → Spread lexemes text →
      Spread (lexeme :: lexemes) (lexeme.toList ++ gap ++ text)

theorem blank_newline : Blank ['\n'] := by
  intro c hc
  rw [List.mem_singleton.1 hc]
  decide

/-- Lexemes can be written each on a line of its own. -/
theorem Spread.lines (lexemes : List String) :
    Spread lexemes (lexemes.flatMap fun lexeme => lexeme.toList ++ ['\n']) := by
  induction lexemes with
  | nil => exact .nil
  | cons lexeme lexemes ih => exact .cons blank_newline (List.cons_ne_nil _ _) ih

namespace Piece

/-- What the grammar sees of a piece. -/
def terminal (p : Piece) : Terminal :=
  (p.kind, String.ofList p.lexeme)

theorem map_terminal_tokens (file : String) (bytes : Nat) (pieces : List Piece) :
    (tokens file bytes pieces).map Token.terminal = pieces.map terminal := by
  induction pieces generalizing bytes with
  | nil => rfl
  | cons p pieces ih =>
    rw [tokens, List.map_cons, List.map_cons, ih]
    rfl

/-- Pieces that stand somewhere also stand when they are spread out. -/
theorem Stand.spread {pieces : List Piece} {lexemes : List String} {text : List Char}
    (h : Stand pieces) (hs : Spread lexemes text)
    (hl : pieces.map (fun p => String.ofList p.lexeme) = lexemes) :
    ∃ pieces', Stand pieces' ∧ pieces'.flatMap Piece.text = text ∧
      pieces'.map terminal = pieces.map terminal := by
  induction hs generalizing pieces with
  | nil =>
    obtain rfl := List.map_eq_nil_iff.1 hl
    exact ⟨[], .nil, rfl, rfl⟩
  | @last lexeme gap hgap =>
    obtain ⟨p, rfl, rfl⟩ := List.map_eq_singleton_iff.1 hl
    cases h with
    | cons hspells _ _ _ =>
      refine ⟨[⟨p.kind, p.lexeme, gap⟩], .cons hspells hgap (by simp) .nil, ?_, rfl⟩
      simp [Piece.text]
  | @cons lexeme gap lexemes text hgap hne hs ih =>
    obtain ⟨p, rest, rfl, rfl, hrest⟩ := List.map_eq_cons_iff.1 hl
    cases h with
    | cons hspells _ _ hstand =>
      obtain ⟨pieces', hstand', htext, hterminals⟩ := ih hstand hrest
      -- white space keeps the pieces apart
      have hstand'' : Stand (⟨p.kind, p.lexeme, gap⟩ :: pieces') :=
        .cons hspells hgap (fun q _ hnil => absurd hnil hne) hstand'
      refine ⟨_, hstand'', ?_, ?_⟩
      · simp [Piece.text, htext]
      · rw [List.map_cons, List.map_cons, hterminals]
        rfl

end Piece

/-- A text that scans does so again with its lexemes spread out. -/
theorem scan_spread {file file' source source' : String} {ts : List Token}
    {lead text : List Char} (h : scan file source = .ok ts) (hlead : Blank lead)
    (hs : Spread (ts.map Token.lexeme) text) (hsource : source'.toList = lead ++ text) :
    ∃ ts', scan file' source' = .ok ts' ∧ ts'.map Token.terminal = ts.map Token.terminal := by
  obtain ⟨l, hv, -, rfl⟩ := exists_layout h
  have hterminals := Piece.map_terminal_tokens file (0 + byteSize l.lead) l.pieces
  have hlexemes : l.pieces.map (fun p => String.ofList p.lexeme) =
      (Piece.tokens file (0 + byteSize l.lead) l.pieces).map Token.lexeme := by
    have := congrArg (List.map Prod.snd) hterminals
    simpa [Function.comp_def, Piece.terminal, Token.terminal] using this.symm
  obtain ⟨pieces', hstand, rfl, hsame⟩ := hv.pieces.spread hs hlexemes
  refine ⟨Piece.tokens file' (byteSize lead) pieces', ?_, ?_⟩
  · rw [scan, hsource, scanFrom_blank hlead fun c hc => (hstand.head c hc).1, hstand.scanFrom,
      Nat.zero_add]
  · rw [hterminals, Piece.map_terminal_tokens, hsame]

end MiniC.Token
