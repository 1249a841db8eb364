import MiniC.Proofs.Grammar.TopLevel

/-!
The parser and the grammar of programs. A list of tokens parses exactly when it is derived with a
demand within the limit on nesting, and then to the tree that is derived; a greater demand is
reported as such.
-/

namespace MiniC

open MiniC.Language Grammar

namespace Grammar

variable {levels : Nat} {c c' : Cursor} {stmts : List Stmt}

/-- Statements that are completed make up a program. -/
theorem Completes.reads (h : Completes levels c stmts c') :
    ∃ used demand, c.Moved used c' ∧
      Language.Program (used.map Token.terminal) (relabelAll .unplaced stmts) demand ∧
      demand ≤ levels := by
  induction h with
  | nil c => exact ⟨[], 0, .refl c, .nil, Nat.zero_le _⟩
  | cons hs _ ih =>
    obtain ⟨used, demand, hm, hd, hle⟩ := statement_reads .standard levels hs
    obtain ⟨used', demand', hm', hd', hle'⟩ := ih
    refine ⟨used ++ used', max demand demand', hm.trans hm', ?_, by omega⟩
    simp only [List.map_append, relabelAll]
    exact .cons hd hd'

/-- The parser stops because a program asks for more nesting than there are levels. -/
def StopsTooDeep (levels : Nat) (c : Cursor) : Prop :=
  ∃ position, Stops levels c (.error ⟨.tooDeep maxDepth, position⟩)

/-- A program that is all there is ahead is completed if it fits, and too deep otherwise. -/
theorem completes_items {items : List Item}
    (hi : ∀ item ∈ items, Statement item.text item.tree item.demand) :
    ∀ {c : Cursor}, c.ahead.map Token.terminal = items.flatMap Item.text →
      ∃ stmts c', Completes levels c stmts c' ∧
        (maxDemand items ≤ levels →
          Stops levels c' (.ok ()) ∧ relabelAll .unplaced stmts = items.map Item.tree) ∧
        (levels < maxDemand items → StopsTooDeep levels c') := by
  induction items with
  | nil =>
    intro c ht
    have ha : c.ahead = [] := by simpa using ht
    exact ⟨[], c, .nil c, fun _ => ⟨.done ha, rfl⟩, fun h => absurd h (Nat.not_lt_zero _)⟩
  | cons item items ih =>
    intro c ht
    have hitem := hi item List.mem_cons_self
    have hi' : ∀ item ∈ items, Statement item.text item.tree item.demand :=
      fun item hm => hi item (List.mem_cons_of_mem _ hm)
    obtain ⟨used, others, ha, hu, ho⟩ := List.map_eq_append_iff.1 ht
    have hne : NoElse (others ++ []) := noElse_items ho hi' (by simp [NoElse])
    rw [List.append_nil] at hne
    have htakes : (statement .standard levels).Takes c used (item.demand ≤ levels)
        (·.relabel .unplaced = item.tree) := hitem.accepts ha hu hne
    -- the first statement that does not fit stops the parser, whatever comes after it
    by_cases hfit : item.demand ≤ levels
    · obtain ⟨stmt, c₁, hrun, hm, hstmt⟩ := htakes.done hfit
      obtain ⟨stmts, c', hc, hdone, hdeep⟩ := ih hi' (hm.rest_eq ha ▸ ho)
      refine ⟨stmt :: stmts, c', .cons hrun hc, fun h => ?_, fun h => ?_⟩
      · obtain ⟨hstop, hstmts⟩ := hdone (by rw [maxDemand] at h; omega)
        exact ⟨hstop, by rw [relabelAll, hstmt, hstmts, List.map_cons]⟩
      · exact hdeep (by rw [maxDemand] at h; omega)
    · obtain ⟨failure, c₁, hrun, hcause⟩ := htakes.stopped hfit
      refine ⟨[], c, .nil c, fun h => ?_, fun _ => ⟨failure.position, ?_⟩⟩
      · rw [maxDemand] at h
        omega
      · have hne : c.ahead ≠ [] := by
          obtain ⟨first, others', htext, -⟩ := hitem.head
          obtain ⟨token, used, rfl, -⟩ := List.map_eq_cons_iff.1 (hu.trans htext)
          simp [ha]
        rw [← hcause]
        exact .failed hne hrun

end Grammar

/-- The statements that a program makes the parser complete, and what stops it then. -/
theorem Language.Program.completes (levels : Nat) {c : Cursor} {body : List Stmt} {demand : Nat}
    (h : Language.Program (c.ahead.map Token.terminal) body demand) :
    ∃ stmts c', Completes levels c stmts c' ∧
      (demand ≤ levels → Stops levels c' (.ok ()) ∧ relabelAll .unplaced stmts = body) ∧
      (levels < demand → StopsTooDeep levels c') := by
  generalize ht : c.ahead.map Token.terminal = text at h
  obtain ⟨hi⟩ := h
  exact completes_items hi ht

namespace Language

variable {file : String} {tokens : List Token} {text : List Terminal} {body body' : List Stmt}
  {demand demand' : Nat}

/-- Tokens that spell given terminals, at no place. -/
def spell (text : List Terminal) : List Token :=
  text.map fun terminal => ⟨terminal.1, terminal.2, .null⟩

theorem map_terminal_spell (text : List Terminal) : (spell text).map Token.terminal = text := by
  simp [spell, Token.terminal, Function.comp_def]

/-- Terminals are derived to one tree only, with one demand. -/
theorem Program.unique (h : Program text body demand) (h' : Program text body' demand') :
    body = body' ∧ demand = demand' := by
  have hle : ∀ {body body' demand demand'}, Program text body demand →
      Program text body' demand' → body = body' ∧ demand ≤ demand' := by
    intro body body' demand demand' h h'
    -- a run with `demand'` levels takes the second derivation, so it cannot be too deep
    rw [← map_terminal_spell text] at h h'
    let start : Cursor := .start "" (spell text)
    obtain ⟨stmts, c, hc, hdone, hdeep⟩ := Program.completes demand' (c := start) h
    obtain ⟨stmts', c', hc', hdone', -⟩ := Program.completes demand' (c := start) h'
    obtain ⟨hstop', rfl⟩ := hdone' (Nat.le_refl demand')
    have hfit : demand ≤ demand' := by
      refine Nat.le_of_not_lt fun hlt => ?_
      obtain ⟨position, hstop⟩ := hdeep hlt
      obtain ⟨-, -, heq⟩ := hc.unique hstop hc' hstop'
      cases heq
    obtain ⟨hstop, rfl⟩ := hdone hfit
    obtain ⟨rfl, -, -⟩ := hc.unique hstop hc' hstop'
    exact ⟨rfl, hfit⟩
  exact ⟨(hle h h').1, Nat.le_antisymm (hle h h').2 (hle h' h).2⟩

end Language

section

variable {file : String} {tokens : List Token} {body : List Stmt} {demand : Nat}

/-- What parses is derived. -/
theorem derived_of_parseUntyped {p : Program} (h : Program.parseUntyped file tokens = .ok p) :
    ∃ demand ≤ maxDepth, Language.Program (tokens.map Token.terminal)
      (relabelAll .unplaced p.body) demand := by
  obtain ⟨stmts, c, stop, hc, hstop⟩ := exists_completes maxDepth (.start file tokens)
  rw [parseUntyped_eq hc hstop] at h
  obtain ⟨used, demand, hm, hd, hle⟩ := hc.reads
  cases hstop with
  | failed _ _ => cases h
  | done ha =>
    cases h
    -- nothing is left, so the statements have used all the tokens
    have hused : tokens = used := by
      have := hm.ahead
      rwa [ha, List.append_nil] at this
    exact ⟨demand, hle, hused ▸ hd⟩

/-- What is derived parses, if it fits. -/
theorem parseUntyped_of_derived
    (h : Language.Program (tokens.map Token.terminal) body demand) (hfit : demand ≤ maxDepth) :
    ∃ p, Program.parseUntyped file tokens = .ok p ∧ p.relabel .unplaced = ⟨body, .null⟩ := by
  obtain ⟨stmts, c, hc, hdone, -⟩ :=
    Language.Program.completes maxDepth (c := .start file tokens) h
  obtain ⟨hstop, rfl⟩ := hdone hfit
  exact ⟨_, parseUntyped_eq hc hstop, rfl⟩

theorem parseUntyped_tooDeep
    (h : Language.Program (tokens.map Token.terminal) body demand) (hdeep : maxDepth < demand) :
    ∃ position, Program.parseUntyped file tokens = .error ⟨.tooDeep maxDepth, position⟩ := by
  obtain ⟨stmts, c, hc, -, hstop⟩ :=
    Language.Program.completes maxDepth (c := .start file tokens) h
  obtain ⟨position, hstop⟩ := hstop hdeep
  exact ⟨position, parseUntyped_eq hc hstop⟩

end

/-- The parser is the grammar: for every list of tokens it gives, up to places and ids, the tree
that is derived with a demand within the limit, if there is one; a program with a greater demand is
reported as too deep; and no list of tokens has two trees. -/
theorem parseUntyped_iff_derived (file : String) (tokens : List Token) :
    (∀ body, (∃ p, Program.parseUntyped file tokens = .ok p ∧
        p.relabel .unplaced = ⟨body, .null⟩) ↔
      ∃ demand ≤ maxDepth, Language.Program (tokens.map Token.terminal) body demand) ∧
    (∀ body demand, Language.Program (tokens.map Token.terminal) body demand →
      maxDepth < demand →
      ∃ position, Program.parseUntyped file tokens = .error ⟨.tooDeep maxDepth, position⟩) ∧
    (∀ body body' demand demand', Language.Program (tokens.map Token.terminal) body demand →
      Language.Program (tokens.map Token.terminal) body' demand' →
      body = body' ∧ demand = demand') := by
  refine ⟨fun body => ⟨?_, ?_⟩, fun body demand => parseUntyped_tooDeep,
    fun _ _ _ _ => Language.Program.unique⟩
  · rintro ⟨p, hp, hbody⟩
    obtain ⟨demand, hle, h⟩ := derived_of_parseUntyped hp
    cases hbody
    exact ⟨demand, hle, h⟩
  · rintro ⟨demand, hle, h⟩
    exact parseUntyped_of_derived h hle

end MiniC
