import MiniC.Proofs.Grammar.BlockIds
import MiniC.Proofs.Grammar.Interleaving
import MiniC.Proofs.Grammar.Parting

/-!
Tokens one after the other. A program followed by more tokens, which do not go on with an `else`,
is read as before, and what follows is read as a program of its own, with its blocks counted on. So
programs concatenate, and what has been found wrong stays wrong: only an error at the end of the
tokens may be undone by more of them.
-/

namespace MiniC

open MiniC.Language Grammar

/-- Counts the ids of blocks on by so many. -/
def Relabel.shiftIds (count : Int32) : Relabel where
  id id := id + count

/-- Where the last token ends, or the start of the file if there is none. -/
def lastEnd (file : String) (tokens : List Token) : Position :=
  match tokens.getLast? with
  | none => .start file
  | some token => token.span.stop

/-- The same tokens are ahead, and the second run has counted so many blocks more. -/
structure Shifted (count : Int32) (c d : Cursor) : Prop where
  ahead : d.ahead = c.ahead
  nextId : d.nextId = c.nextId + count

namespace Comparison

/-- Compares a run with one that starts after other blocks. Before the first token the place where
the last token ended is not known. -/
def shift (count : Int32) : Comparison where
  spare := 0
  left := { id := fun id => id + count }
  right := {}
  near
    | .fresh, c, d => Shifted count c d ∧ (c.ahead = [] → c.previousEnd = d.previousEnd)
    | .moved, c, d => Shifted count c d ∧ c.previousEnd = d.previousEnd
  past _ := False
  loose := False
  near_fresh h := ⟨h.1, fun _ => h.2⟩
  facing := by
    rintro c d ⟨h, hend⟩
    right
    cases ha : c.ahead with
    | nil => exact .ended ha (h.ahead.trans ha) (hend ha)
    | cons token rest => exact .token ha (h.ahead.trans ha) rfl ⟨⟨rfl, h.nextId⟩, rfl⟩
  previousEnd h := h.2
  past_of_suffix h _ := h
  loose_of_past h _ := h
  left_eq_right h := h.elim
  noElse _ h _ := h.elim

theorem shift_countsIds (count : Int32) : (shift count).CountsIds := by
  rintro c d ⟨h, hend⟩
  refine ⟨h.nextId.symm, ⟨h.ahead, ?_⟩, hend⟩
  show d.nextId + 1 = c.nextId + 1 + count
  rw [h.nextId, Int32.add_assoc, Int32.add_assoc, Int32.add_comm count]

end Comparison

namespace Grammar

variable {levels : Nat} {c c' c'' d : Cursor} {stmts stmts' : List Stmt} {file : String}
  {ts ts₁ ts₂ : List Token} {count : Int32}

theorem Completes.append (h : Completes levels c stmts c') (h' : Completes levels c' stmts' c'') :
    Completes levels c (stmts ++ stmts') c'' := by
  induction h with
  | nil c => exact h'
  | cons hs _ ih => exact .cons hs (ih h')

/-- A run that has come to its last token ends where that token does. -/
theorem Completes.previousEnd (h : Completes levels (.start file ts) stmts c)
    (hc : c.ahead = []) : c.previousEnd = lastEnd file ts := by
  obtain ⟨used, demand, hm, -⟩ := h.reads
  have hused : ts = used := by
    have := hm.ahead
    rwa [hc, List.append_nil] at this
  have hbehind : c.behind = ts.reverse := by
    rw [hm.behind, hused]
    exact List.append_nil _
  have hfile : c.file = file := hm.file
  rw [Cursor.previousEnd, hbehind, hfile, lastEnd, ← List.head?_reverse]
  cases ts.reverse <;> rfl

/-- Statements that use up their tokens are completed when other tokens follow. -/
theorem Completes.before (h : Completes levels (.start file ts₁) stmts c) (hc : c.ahead = [])
    (hne : NoElse ts₂) :
    ∃ d, Completes levels (.start file (ts₁ ++ ts₂)) stmts d ∧ d.ahead = ts₂ ∧
      d.nextId = c.nextId := by
  have hpart : Parting [] ts₂ (.start file ts₁) (.start file (ts₁ ++ ts₂)) :=
    .start file ⟨ts₁, by simp, rfl⟩
  obtain ⟨d, hd, hpart⟩ := hpart.completes h (by simp [hne]) 0
  obtain ⟨shared, hshared, ha⟩ := hpart.ahead
  have hnil : shared = [] := by simpa [hc] using hshared
  exact ⟨d, hd, by simpa [hnil] using ha, hpart.nextId⟩

/-- After other blocks the same statements are completed, with their ids counted on. -/
theorem Completes.after (h : Completes maxDepth (.start file ts) stmts c) (hd : d.ahead = ts)
    (hid : d.nextId = 1 + count) (hts : ts ≠ []) :
    ∃ d', Completes maxDepth d (relabelAll (.shiftIds count) stmts) d' ∧
      (Comparison.shift count).near .fresh c d' := by
  have hnear : (Comparison.shift count).near .fresh (.start file ts) d :=
    ⟨⟨hd, hid⟩, fun ha => absurd ha hts⟩
  obtain ⟨stmts', d', hd', hview, hn⟩ :=
    Comparison.completes_alike (Comparison.shift_countsIds count) h hnear False.elim
  have hsame : relabelAll (.shiftIds count) stmts = stmts' :=
    hview.trans (relabelAll_keep stmts')
  exact ⟨d', hsame ▸ hd', hn⟩

/-- The run behind a program: all tokens are used up by statements in which no visit found an
error. -/
theorem program_ok {σ : Type} {visit : Visit σ} {state : σ} {p : Program}
    (h : program visit state file ts = .ok p) :
    ∃ stmts c visited, Completes maxDepth (.start file ts) stmts c ∧ c.ahead = [] ∧
      visitAll visit state stmts = .ok visited ∧ p = ⟨visited.1, c.spanFrom (.start file)⟩ := by
  obtain ⟨stmts, c, stop, hc, hstop⟩ := exists_completes maxDepth (.start file ts)
  rw [program_eq hc hstop] at h
  cases hv : visitAll visit state stmts with
  | error e =>
    rw [hv] at h
    cases h
  | ok visited =>
    rw [hv, ok_bind] at h
    cases hstop with
    | failed _ _ => cases h
    | done ha =>
      cases h
      exact ⟨stmts, c, visited, hc, ha, hv, rfl⟩

/-- What stops the parser does not depend on the blocks before. -/
theorem Stops.after {stop : Except Diagnostic Unit} (h : Stops maxDepth c stop)
    (hn : (Comparison.shift count).near .fresh c d) : Stops maxDepth d stop := by
  obtain ⟨stop', hstop, hsame⟩ :=
    Comparison.stops_alike (Comparison.shift_countsIds count) rfl (fun _ => id) h hn
  have heq : stop = stop' := by
    cases stop <;> cases stop' <;> exact hsame
  exact heq ▸ hstop

end Grammar

namespace Program

variable {file : String} {ts ts₁ ts₂ : List Token} {p p₁ p₂ : Program}

/-- The run behind a program without types has completed its statements. -/
theorem completes_of_ok (h : parseUntyped file ts = .ok p) :
    ∃ c, Completes maxDepth (.start file ts) p.body c ∧ c.ahead = [] := by
  obtain ⟨stmts, c, visited, hc, ha, hv, rfl⟩ := program_ok h
  cases (visitAll_none stmts).symm.trans hv
  exact ⟨c, hc, ha⟩

/-- The count after a program tells its blocks. -/
theorem numbered_of_completes {c : Cursor} (hc : Completes maxDepth (.start file ts) p.body c) :
    Numbered 1 p.blockIds c.nextId := by
  have h := hc.numbered 1
  simpa [blockIds, Node.walk, blockIds_cons, Node.blockId?, Cursor.start] using h

theorem numbered_untyped (h : parseUntyped file ts = .ok p) :
    ∃ next, Numbered 1 p.blockIds next := by
  obtain ⟨c, hc, -⟩ := completes_of_ok h
  exact ⟨c.nextId, numbered_of_completes hc⟩

/-- After a program that was parsed the parser stands before the tokens that follow it. -/
theorem completes_before (h : parseUntyped file ts₁ = .ok p₁) (hne : NoElse ts₂) :
    ∃ d, Completes maxDepth (.start file (ts₁ ++ ts₂)) p₁.body d ∧ d.ahead = ts₂ ∧
      d.nextId = 1 + Int32.ofNat p₁.blockIds.length := by
  obtain ⟨c, hc, ha⟩ := completes_of_ok h
  obtain ⟨d, hd, hahead, hid⟩ := hc.before ha hne
  exact ⟨d, hd, hahead, hid.trans (numbered_of_completes hc).stop_eq⟩

/-- Two programs make one. -/
theorem parseUntyped_append_ok (h₁ : parseUntyped file ts₁ = .ok p₁) (hne : NoElse ts₂)
    (h₂ : parseUntyped file ts₂ = .ok p₂) :
    parseUntyped file (ts₁ ++ ts₂) =
      .ok ⟨p₁.body ++ relabelAll (.shiftIds (Int32.ofNat p₁.blockIds.length)) p₂.body,
        ⟨.start file, lastEnd file (ts₁ ++ ts₂)⟩⟩ := by
  obtain ⟨d, hd, hahead, hid⟩ := completes_before h₁ hne
  obtain ⟨c, hc, ha⟩ := completes_of_ok h₂
  obtain ⟨d', hd', hdone⟩ : ∃ d', Completes maxDepth d
      (relabelAll (.shiftIds (Int32.ofNat p₁.blockIds.length)) p₂.body) d' ∧ d'.ahead = [] := by
    by_cases hts : ts₂ = []
    · -- no tokens are no statements
      subst hts
      have hbody : p₂.body = [] := ((Stops.done rfl).completes_nil hc).1
      exact ⟨d, by rw [hbody]; exact .nil d, hahead⟩
    · obtain ⟨d', hd', hn⟩ := hc.after hahead hid hts
      exact ⟨d', hd', hn.1.ahead.trans ha⟩
  have hwhole := hd.append hd'
  rw [parseUntyped_eq hwhole (.done hdone), ok_bind, Cursor.spanFrom, hwhole.previousEnd hdone]
  rfl

/-- An error in the tokens after a program is the error of them all. -/
theorem parseUntyped_append_error {e : Diagnostic} (h₁ : parseUntyped file ts₁ = .ok p₁)
    (hne : NoElse ts₂) (h₂ : parseUntyped file ts₂ = .error e) :
    parseUntyped file (ts₁ ++ ts₂) = .error e := by
  obtain ⟨d, hd, hahead, hid⟩ := completes_before h₁ hne
  obtain ⟨stmts, c, hc, hstop⟩ := exists_completes_of_error h₂
  have hts : ts₂ ≠ [] := by
    rintro rfl
    cases h₂
  obtain ⟨d', hd', hn⟩ := hc.after hahead hid hts
  rw [parseUntyped_eq (hd.append hd') (hstop.after hn)]
  rfl

/-- With fewer blocks than there are ids, counting on is adding. -/
theorem toInt_shifted {count : Nat} (h : parseUntyped file ts = .ok p)
    (hcount : count + p.blockIds.length < 2147483648) {id : Int32} (hid : id ∈ p.blockIds) :
    (id + Int32.ofNat count).toInt = id.toInt + count := by
  obtain ⟨next, hn⟩ := numbered_untyped h
  have hone : (1 : Int32).toInt = (1 : Nat) := rfl
  have hbounds := hn.toInt_mem hone (by omega) hid
  exact toInt_add_ofNat (by omega) (by omega)

/-- Programs concatenate: a program followed by other tokens, unless these go on with an `else`, is
read with what the other tokens come to by themselves, be it a program, whose blocks are counted on
after those of the first, or an error. With fewer than 2^31 blocks the count does not wrap. -/
theorem parseUntyped_append (h₁ : parseUntyped file ts₁ = .ok p₁) (hne : NoElse ts₂) :
    (∀ p₂, parseUntyped file ts₂ = .ok p₂ →
      parseUntyped file (ts₁ ++ ts₂) =
        .ok ⟨p₁.body ++ relabelAll (.shiftIds (Int32.ofNat p₁.blockIds.length)) p₂.body,
          ⟨.start file, lastEnd file (ts₁ ++ ts₂)⟩⟩ ∧
      (p₁.blockIds.length + p₂.blockIds.length < 2147483648 → ∀ id ∈ p₂.blockIds,
        (id + Int32.ofNat p₁.blockIds.length).toInt = id.toInt + p₁.blockIds.length)) ∧
    (∀ e, parseUntyped file ts₂ = .error e → parseUntyped file (ts₁ ++ ts₂) = .error e) := by
  constructor
  · intro p₂ h₂
    exact ⟨parseUntyped_append_ok h₁ hne h₂, fun hblocks id hid => toInt_shifted h₂ hblocks hid⟩
  · intro e h₂
    exact parseUntyped_append_error h₁ hne h₂

/-- An `if` before a block: the block is no part of the `if`, and its id follows that of the
branch. -/
theorem parseUntyped_append_block :
    let ts₁ := spell [keyword "if", operator "(", (.identifier, "x"), operator ")",
      operator "\x7b", operator "\x7d"]
    let ts₂ := spell [operator "\x7b", operator "\x7d"]
    let first : Stmt := .ifElse (.symbol "x" none .null) ⟨[], 1, .null⟩ none .null
    parseUntyped "f" ts₁ = .ok ⟨[first], ⟨.start "f", .null⟩⟩ ∧ NoElse ts₂ ∧
      parseUntyped "f" ts₂ = .ok ⟨[.block ⟨[], 1, .null⟩], ⟨.start "f", .null⟩⟩ ∧
      parseUntyped "f" (ts₁ ++ ts₂) =
        .ok ⟨[first, .block ⟨[], 2, .null⟩], ⟨.start "f", .null⟩⟩ := by
  intro ts₁ ts₂ first
  have h₁ : parseUntyped "f" ts₁ = .ok ⟨[first], ⟨.start "f", .null⟩⟩ := by rfl
  have h₂ : parseUntyped "f" ts₂ = .ok ⟨[.block ⟨[], 1, .null⟩], ⟨.start "f", .null⟩⟩ := by rfl
  have hne : NoElse ts₂ := by simp [NoElse, ts₂, spell, Token.terminal]
  exact ⟨h₁, hne, h₂, ((parseUntyped_append h₁ hne).1 _ h₂).1⟩

end Program

namespace Grammar

variable {σ : Type} {visit : Visit σ} {state : σ} {file : String} {ts₁ ts₂ : List Token}
  {p p₁ : Program} {e : Diagnostic}

theorem visitAll_append (visit : Visit σ) (state : σ) (stmts stmts' : List Stmt) :
    visitAll visit state (stmts ++ stmts') = do
      let before ← visitAll visit state stmts
      let after ← visitAll visit before.2 stmts'
      return (before.1 ++ after.1, after.2) := by
  induction stmts generalizing state with
  | nil =>
    simp only [List.nil_append, visitAll, ok_bind]
    cases visitAll visit state stmts' <;> rfl
  | cons stmt stmts ih =>
    simp only [List.cons_append, visitAll, ih, bind_assoc, pure_bind]

/-- An error is found again when more tokens follow, unless it was met at the end of the tokens and
only says that they end. -/
theorem program_append_error (h : program visit state file ts₁ = .error e) (hne : NoElse ts₂)
    (hfinal : ∀ c, FailsAt visit state file ts₁ e c → c.ahead = [] → ¬e.cause.Unfinished) :
    program visit state file (ts₁ ++ ts₂) = .error e := by
  obtain ⟨stmts, c, stop, hc, hstop⟩ := exists_completes maxDepth (.start file ts₁)
  have hpart : Parting [] ts₂ (.start file ts₁) (.start file (ts₁ ++ ts₂)) :=
    .start file ⟨ts₁, by simp, rfl⟩
  obtain ⟨d, hd, hpart⟩ := hpart.completes hc (by simp [hne]) 0
  rw [program_eq hc hstop] at h
  cases hv : visitAll visit state stmts with
  | error e' =>
    -- a visit found it, and the statements visited before are the same
    rw [hv] at h
    cases h
    obtain ⟨stmts', d', stop', hd', hstop'⟩ := exists_completes maxDepth d
    rw [program_eq (hd.append hd') hstop', visitAll_append, hv]
    rfl
  | ok visited =>
    rw [hv, ok_bind] at h
    cases hstop with
    | done ha => cases h
    | @failed failure c' hn hs =>
      obtain rfl : failure = e := Except.error.inj h
      have hfails : FailsAt visit state file ts₁ failure c' :=
        topLevel_error rfl hc hv hn hs (Nat.le_refl ts₁.length)
      have hnv : ¬(Comparison.parting [] ts₂ 0).Void failure c' := by
        rintro (⟨hpast, hl | hunfinished⟩ | ⟨hspare, -⟩)
        · simp [Comparison.parting, hne] at hl
        · exact hfinal c' hfails (List.suffix_nil.1 hpast) hunfinished
        · exact absurd hspare (Nat.lt_irrefl 0)
      obtain ⟨d', hs'⟩ := hpart.statement_error hs 0 hnv
      have hne' : d.ahead ≠ [] := by
        obtain ⟨shared, hshared, ha⟩ := hpart.ahead
        rw [List.append_nil] at hshared
        simp [ha, ← hshared, hn]
      rw [program_eq hd (.failed hne' hs'), hv]
      rfl

/-- The statements of a program come first when more tokens follow. -/
theorem program_append_prefix (h₁ : program visit state file ts₁ = .ok p₁) (hne : NoElse ts₂)
    (h : program visit state file (ts₁ ++ ts₂) = .ok p) : p₁.body <+: p.body := by
  obtain ⟨stmts, c, visited, hc, ha, hv, rfl⟩ := program_ok h₁
  obtain ⟨all, c', visited', hc', ha', hv', rfl⟩ := program_ok h
  -- the longer run completes the same statements and then others
  obtain ⟨d, hd, -, -⟩ := hc.before ha hne
  obtain ⟨others, d', stop, hd', hstop⟩ := exists_completes maxDepth d
  obtain ⟨rfl, -, -⟩ := hc'.unique (.done ha') (hd.append hd') hstop
  rw [visitAll_append, hv, ok_bind] at hv'
  cases hrest : visitAll visit visited.2 others with
  | error e =>
    rw [hrest] at hv'
    cases hv'
  | ok rest =>
    rw [hrest] at hv'
    cases hv'
    exact List.prefix_append _ _

end Grammar

namespace Program

/-- What has been found stands, whatever tokens follow, unless they go on with an `else`: an error
is found again, unless it is one of syntax that was met with no token left, and the statements of a
program, with their types, places and ids, start every program that it is continued to. -/
theorem parse_append_final {file : String} {ts₁ ts₂ : List Token} (hne : NoElse ts₂) :
    (∀ e, parse file ts₁ = .error e →
      (∀ c, FailsAt .check .fresh file ts₁ e c → c.ahead = [] → ¬e.cause.Unfinished) →
      parse file (ts₁ ++ ts₂) = .error e) ∧
    (∀ p₁ p, parse file ts₁ = .ok p₁ → parse file (ts₁ ++ ts₂) = .ok p → p₁.body <+: p.body) := by
  constructor
  · intro e h hfinal
    exact program_append_error h hne hfinal
  · intro p₁ p h₁ h
    exact program_append_prefix h₁ hne h

/-- A number that cannot be read, as the last token, is not made good by a token that follows; and a
declaration keeps its place before an assignment. -/
theorem parse_append_final_number :
    let ts₁ := spell [keyword "int", (.identifier, "x"), operator "=",
      (.integer, "9223372036854775808")]
    let ts₂ := spell [operator ";"]
    let e : Diagnostic := ⟨.badNumber "9223372036854775808", .null⟩
    let declaration := spell [keyword "int", (.identifier, "x"), operator ";"]
    let assignment := spell [(.identifier, "x"), operator "=", (.identifier, "x"), operator ";"]
    let declared : Stmt := .varDecl ⟨"x", .int, none, .null⟩
    let assigned : Stmt := .assign ⟨"x", .symbol "x" (some .int) .null, some .int, .null⟩
    NoElse ts₂ ∧ parse "f" ts₁ = .error e ∧ parse "f" (ts₁ ++ ts₂) = .error e ∧
      NoElse assignment ∧ parse "f" declaration = .ok ⟨[declared], ⟨.start "f", .null⟩⟩ ∧
      parse "f" (declaration ++ assignment) =
        .ok ⟨[declared, assigned], ⟨.start "f", .null⟩⟩ ∧
      [declared] <+: [declared, assigned] := by
  intro ts₁ ts₂ e declaration assignment declared assigned
  have hne : NoElse ts₂ := by simp [NoElse, ts₂, spell, Token.terminal]
  have h : parse "f" ts₁ = .error e := by rfl
  have hne' : NoElse assignment := by simp [NoElse, assignment, spell, Token.terminal]
  have h₁ : parse "f" declaration = .ok ⟨[declared], ⟨.start "f", .null⟩⟩ := by rfl
  have h₂ : parse "f" (declaration ++ assignment) =
      .ok ⟨[declared, assigned], ⟨.start "f", .null⟩⟩ := by rfl
  exact ⟨hne, h, (parse_append_final hne).1 e h fun _ _ _ hunfinished => hunfinished, hne', h₁, h₂,
    (parse_append_final hne').2 _ _ h₁ h₂⟩

end Program

end MiniC
