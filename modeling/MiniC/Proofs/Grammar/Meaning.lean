import MiniC.Proofs.Grammar.Interleaving
import MiniC.Proofs.Grammar.LockstepStatement
import MiniC.Proofs.Token.Spread
import MiniC.Proofs.Typing.Placement
import MiniC.Tree.Node

/-!
Layout and meaning. Where tokens stand shows in the spans and in the places of errors, and nowhere
else: tokens with the same terminals make the same tree with the same types and ids, or the same
error. So does a source text whose lexemes are written out again with white space between them, as
it scans to tokens with the same terminals.
-/

namespace MiniC

open Grammar Token

/-- Forgets a place. -/
def nowhere (_ : Position) : Position := .null

/-- What is left of a result without its places. -/
def meaning : Except Diagnostic Program → Except Cause Program
  | .ok p => .ok (p.relabel (.move nowhere))
  | .error e => .error e.cause

namespace Comparison

/-- Compares runs over tokens with the same terminals. -/
def layout : Comparison where
  spare := 0
  left := { place := nowhere }
  right := { place := nowhere }
  near _ c d := c.ahead.map Token.terminal = d.ahead.map Token.terminal ∧ c.nextId = d.nextId
  past _ := False
  loose := False
  near_fresh h := h
  facing := by
    rintro c d ⟨hahead, hid⟩
    right
    cases ha : c.ahead with
    | nil =>
      rw [ha, List.map_nil, eq_comm, List.map_eq_nil_iff] at hahead
      exact .ended ha hahead rfl
    | cons t rest =>
      rw [ha, List.map_cons, eq_comm, List.map_eq_cons_iff] at hahead
      obtain ⟨t', rest', hd, ht, hrest⟩ := hahead
      exact .token ha hd (Marks.token_eq_iff.2 ⟨ht.symm, rfl, rfl⟩) ⟨hrest.symm, hid⟩
  previousEnd _ := rfl
  past_of_suffix h _ := h
  loose_of_past h _ := h
  left_eq_right _ := rfl
  noElse _ h _ := h.elim

theorem layout_countsIds : layout.CountsIds := by
  rintro c d ⟨hahead, hid⟩
  exact ⟨hid, hahead, by rw [hid]⟩

end Comparison

section Tokens

variable {file file' : String} {ts ts' : List Token} {stmts : List Stmt} {c : Cursor}
  {stop : Except Diagnostic Unit}

/-- The meaning of a program, by the statements that are completed and what stops the parser. -/
theorem meaning_parseUntyped (hc : Completes maxDepth (.start file ts) stmts c)
    (hstop : Stops maxDepth c stop) :
    meaning (Program.parseUntyped file ts) =
      match stop.mapError (Diagnostic.move nowhere) with
      | .ok () => .ok ⟨relabelAll (.move nowhere) stmts, .null⟩
      | .error e => .error e.cause := by
  rw [parseUntyped_eq hc hstop]
  cases stop <;> rfl

/-- The meaning of a checked program can be found without the places of its statements. -/
theorem meaning_parse (hc : Completes maxDepth (.start file ts) stmts c)
    (hstop : Stops maxDepth c stop) :
    meaning (Program.parse file ts) =
      match checkAll Scopes.fresh (relabelAll (.move nowhere) stmts) with
      | ⟨_, _, .error e⟩ => .error e.cause
      | ⟨stmts, _, .ok ()⟩ =>
        match stop.mapError (Diagnostic.move nowhere) with
        | .ok () => .ok ⟨stmts, .null⟩
        | .error e => .error e.cause := by
  rw [Program.parse_eq hc hstop, checkAll_move]
  rcases checkAll Scopes.fresh stmts with ⟨stmts', scopes, e | _⟩
  · rfl
  · cases stop <;> rfl

/-- Tokens with the same terminals mean the same. -/
theorem meaning_of_terminals (h : ts.map Token.terminal = ts'.map Token.terminal) :
    meaning (Program.parse file ts) = meaning (Program.parse file' ts') ∧
      meaning (Program.parseUntyped file ts) = meaning (Program.parseUntyped file' ts') := by
  obtain ⟨stmts, c, stop, hc, hstop⟩ := exists_completes maxDepth (.start file ts)
  have hnear : Comparison.layout.near .fresh (.start file ts) (.start file' ts') := ⟨h, rfl⟩
  obtain ⟨stmts', c', hc', hview, hn⟩ :=
    Comparison.completes_alike Comparison.layout_countsIds hc hnear False.elim
  obtain ⟨stop', hstop', hstops⟩ :=
    Comparison.stops_alike Comparison.layout_countsIds rfl (fun _ => id) hstop hn
  have hstmts : relabelAll (.move nowhere) stmts = relabelAll (.move nowhere) stmts' := hview
  have hstops : stop.mapError (Diagnostic.move nowhere) =
      stop'.mapError (Diagnostic.move nowhere) := hstops
  constructor
  · rw [meaning_parse hc hstop, meaning_parse hc' hstop', hstmts, hstops]
  · rw [meaning_parseUntyped hc hstop, meaning_parseUntyped hc' hstop', hstmts, hstops]

end Tokens

theorem ofSource_of_scan {file source : String} {ts : List Token}
    (h : scan file source = .ok ts) : Program.ofSource file source = Program.parse file ts := by
  rw [Program.ofSource, h]
  rfl

/-- Layout never changes meaning. Tokens with the same terminals, wherever they stand, come to the
same with and without types; and a source text that scans comes to the same as its lexemes written
out with white space between them. -/
theorem meaning_of_layout :
    (∀ (file file' : String) (ts ts' : List Token),
      ts.map Token.terminal = ts'.map Token.terminal →
      meaning (Program.parse file ts) = meaning (Program.parse file' ts') ∧
        meaning (Program.parseUntyped file ts) = meaning (Program.parseUntyped file' ts')) ∧
    (∀ (file file' source source' : String) (ts : List Token) (lead text : List Char),
      scan file source = .ok ts → Blank lead → Spread (ts.map Token.lexeme) text →
      source'.toList = lead ++ text →
      ∃ ts', scan file' source' = .ok ts' ∧ ts'.map Token.terminal = ts.map Token.terminal ∧
        meaning (Program.ofSource file' source') = meaning (Program.ofSource file source)) := by
  constructor
  · intro file file' ts ts' h
    exact meaning_of_terminals h
  · intro file file' source source' ts lead text hscan hlead hspread hsource
    obtain ⟨ts', hscan', hsame⟩ := scan_spread hscan hlead hspread hsource
    refine ⟨ts', hscan', hsame, ?_⟩
    rw [ofSource_of_scan hscan, ofSource_of_scan hscan']
    exact (meaning_of_terminals hsame).1

/-- A declaration and an assignment in a block, written without needless blanks, and the same in
another file with each lexeme on a line of its own: the same outline, types included, and one block
with the id 1. -/
theorem meaning_of_layout_assignment :
    let span (start stop : UInt32) : Span := ⟨⟨start, "f"⟩, ⟨stop, "f"⟩⟩
    let ts : List Token := [⟨.keyword, "int", span 0 3⟩, ⟨.identifier, "x", span 4 5⟩,
      ⟨.operator, "=", span 5 6⟩, ⟨.integer, "1", span 6 7⟩, ⟨.operator, ";", span 7 8⟩,
      ⟨.operator, "\x7b", span 8 9⟩, ⟨.identifier, "x", span 9 10⟩, ⟨.operator, "=", span 10 11⟩,
      ⟨.identifier, "x", span 11 12⟩, ⟨.operator, "+", span 12 13⟩, ⟨.integer, "1", span 13 14⟩,
      ⟨.operator, ";", span 14 15⟩, ⟨.operator, "\x7d", span 15 16⟩]
    let outline := "Program(value=None, type=None)\n  VarDecl(value=x, type=int)\n" ++
      "    Literal(value=1, type=int)\n  Block(value=None, type=None)\n" ++
      "    Assignment(value=x, type=int)\n      BinaryOp(value=+, type=int)\n" ++
      "        Identifier(value=x, type=int)\n        Literal(value=1, type=int)\n"
    let source := "int x=1;\x7bx=x+1;\x7d"
    let lines := "\nint\nx\n=\n1\n;\n\x7b\nx\n=\nx\n+\n1\n;\n\x7d\n"
    scan "f" source = .ok ts ∧
      (Program.ofSource "f" source).map
        (fun p => (p.outline, (Node.program p).walk.filterMap (·.2.blockId?))) =
          .ok (outline, [1]) ∧
      ∃ ts', scan "g" lines = .ok ts' ∧ ts'.map Token.terminal = ts.map Token.terminal ∧
        meaning (Program.ofSource "g" lines) = meaning (Program.ofSource "f" source) := by
  intro span ts outline source lines
  have hscan : scan "f" source = .ok ts := by decide +kernel
  have hlines : lines.toList = ['\n'] ++
      (ts.map Token.lexeme).flatMap fun lexeme => lexeme.toList ++ ['\n'] := by decide +kernel
  exact ⟨hscan, by decide +kernel,
    meaning_of_layout.2 "f" "g" source lines ts _ _ hscan blank_newline (.lines _) hlines⟩

end MiniC
