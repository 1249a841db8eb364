import MiniC.Proofs.Grammar.Counting
import MiniC.Proofs.Grammar.LockstepStatement

/-!
One token of lookahead. What a rule does depends on the tokens that it takes and on the one that it
stops at, so it does the same wherever these stand, whatever comes after them.
-/

namespace MiniC

open Grammar

namespace Parse

variable {α β : Type}

/-- Where a run ends, be it with a result or with a failure. -/
def ending : EStateM.Result Diagnostic Cursor α → Cursor
  | .ok _ c => c
  | .error _ c => c

/-- The same run before other tokens. -/
def before (rest : List Token) :
    EStateM.Result Diagnostic Cursor α → EStateM.Result Diagnostic Cursor α
  | .ok a c => .ok a { c with ahead := rest }
  | .error failure c => .error failure { c with ahead := rest }

/-- From `c` a rule takes these tokens, and it does the same wherever they stand before the token
that it has stopped at. -/
structure SeesOnly (rule : Parse α) (c : Cursor) (used : List Token) : Prop where
  moved : c.Moved used (ending (rule c))
  same : ∀ rest, rest.head? = (ending (rule c)).ahead.head? →
    rule { c with ahead := used ++ rest } = before rest (rule c)

/-- Wherever it starts, a rule sees only the tokens that it takes and the one that it stops at. -/
def OneAhead (rule : Parse α) : Prop :=
  ∀ c, ∃ used, rule.SeesOnly c used

/-- After the same tokens the lookahead is the same if that of the others is. -/
theorem head?_append_congr {used rest rest' : List Token} (h : rest.head? = rest'.head?) :
    (used ++ rest).head? = (used ++ rest').head? := by
  rw [List.head?_append, List.head?_append, h]

namespace OneAhead

variable {rule x : Parse α} {f : α → Parse β}

theorem pure (a : α) : (Pure.pure a : Parse α).OneAhead :=
  fun c => ⟨[], .refl c, fun _ _ => rfl⟩

theorem fail (d : Diagnostic) : (Parse.fail d : Parse α).OneAhead :=
  fun c => ⟨[], .refl c, fun _ _ => rfl⟩

theorem advance : Parse.advance.OneAhead := by
  rintro ⟨behind, ahead, nextId, file, depth⟩
  cases ahead with
  | nil =>
    refine ⟨[], .refl _, fun rest h => ?_⟩
    -- the run fails because nothing is ahead, so nothing may be ahead of the other
    obtain rfl : rest = [] := List.head?_eq_none_iff.1 h
    rfl
  | cons token tokens => exact ⟨[token], ⟨rfl, rfl, rfl⟩, fun rest _ => rfl⟩

theorem takeId : Parse.takeId.OneAhead :=
  fun _ => ⟨[], ⟨rfl, rfl, rfl⟩, fun _ _ => rfl⟩

theorem look {f : Cursor → Parse α} (hf : Looks f) (h : ∀ c, (f c).OneAhead) :
    (get >>= f).OneAhead := by
  intro c
  obtain ⟨used, hm, hsame⟩ := h c c
  refine ⟨used, hm, fun rest hr => ?_⟩
  have hhead : (used ++ rest).head? = c.ahead.head? := by
    rw [hm.ahead]
    exact head?_append_congr hr
  rw [get_bind_run, get_bind_run, hf c _ _ hhead]
  exact hsame rest hr

theorem bind (hx : x.OneAhead) (hf : ∀ a, (f a).OneAhead) : (x >>= f).OneAhead := by
  intro c
  obtain ⟨used, hm, hsame⟩ := hx c
  cases hrun : x c with
  | error failure c₁ =>
    rw [hrun] at hm hsame
    have hbind : (x >>= f) c = .error failure c₁ := by rw [bind_run, hrun]
    refine ⟨used, hbind ▸ hm, fun rest hr => ?_⟩
    rw [hbind] at hr ⊢
    rw [bind_run, hsame rest hr]
    rfl
  | ok a c₁ =>
    obtain ⟨used', hm', hsame'⟩ := hf a c₁
    rw [hrun] at hm hsame
    have hbind : (x >>= f) c = f a c₁ := by rw [bind_run, hrun]
    refine ⟨used ++ used', hbind ▸ hm.trans hm', fun rest hr => ?_⟩
    rw [hbind] at hr ⊢
    -- what the first part stops at is what the second part sees first
    have hhead : (used' ++ rest).head? = c₁.ahead.head? := by
      rw [hm'.ahead]
      exact head?_append_congr hr
    rw [List.append_assoc, bind_run, hsame _ hhead]
    exact hsame' rest hr

theorem nested (h : rule.OneAhead) : (nested rule).OneAhead := by
  intro c
  obtain ⟨used, hm, hsame⟩ := h c
  cases hrun : rule c with
  | ok a c' =>
    rw [hrun] at hm hsame
    have hnested : Parse.nested rule c = .ok a c' := nested_ok.2 hrun
    refine ⟨used, hnested ▸ hm, fun rest hr => ?_⟩
    rw [hnested] at hr ⊢
    exact nested_ok.2 (hsame rest hr)
  | error failure c' =>
    rw [hrun] at hm hsame
    have hnested := nested_error hrun
    refine ⟨used, hnested ▸ ⟨hm.behind, hm.ahead, hm.file⟩, fun rest hr => ?_⟩
    rw [hnested] at hr ⊢
    exact nested_error (hsame rest hr)

/-- A loop that is given fuel for the tokens ahead goes on in the same way when there are others,
for which it needs another amount. -/
theorem loop {table : Table} {levels : Nat}
    (h : ∀ fuel, (untilBrace (statement table levels) fuel).OneAhead) :
    (get >>= fun c => untilBrace (statement table levels) c.ahead.length).OneAhead := by
  intro c
  obtain ⟨used, hm, -⟩ := h c.ahead.length c
  refine ⟨used, hm, fun rest hr => ?_⟩
  let fuel := max c.ahead.length (used ++ rest).length
  have hfuel : untilBrace (statement table levels) c.ahead.length c =
      untilBrace (statement table levels) fuel c :=
    untilBrace_fuel (Nat.le_refl _) (Nat.le_max_left ..)
  obtain ⟨used', hm', hsame'⟩ := h fuel c
  rw [hfuel] at hm
  rw [get_bind_run, hfuel] at hr
  obtain rfl : used' = used := List.append_cancel_right (hm'.ahead.symm.trans hm.ahead)
  rw [get_bind_run, get_bind_run, hfuel, ← hsame' rest hr]
  exact untilBrace_fuel (Nat.le_refl _) (Nat.le_max_right ..)

theorem composed : Composed fun x _ => OneAhead x where
  pure := pure
  fail := fail
  advance := advance
  look := look
  bind := bind
  opening hbrace hf := hbrace.bind fun brace => takeId.bind (hf brace)
  loop := loop

theorem inherited : Inherited fun _ _ => OneAhead where
  composed _ := composed
  nested := nested

end OneAhead

end Parse

/-- How many tokens have been consumed. -/
def Cursor.index (c : Cursor) : Nat :=
  c.behind.length

/-- All tokens, from the first one on. -/
def Cursor.tokens (c : Cursor) : List Token :=
  c.behind.reverse ++ c.ahead

namespace Cursor.Moved

variable {c c' : Cursor} {used : List Token}

theorem tokens_eq (h : c.Moved used c') : c'.tokens = c.tokens := by
  simp [tokens, h.behind, h.ahead]

theorem index_eq (h : c.Moved used c') : c'.index = c.index + used.length := by
  simp [index, h.behind, Nat.add_comm]

end Cursor.Moved

namespace Session

/-- Two states that are the same, although they need not have the same tokens. -/
structure SameState (session other : Session) : Prop where
  index : other.cursor.index = session.cursor.index
  nextId : other.cursor.nextId = session.cursor.nextId
  file : other.cursor.file = session.cursor.file
  depth : other.depth = session.depth
  table : other.table = session.table

/-- The same state before other tokens. -/
def before (session : Session) (rest : List Token) : Session :=
  { session with cursor := { session.cursor with ahead := rest } }

/-- If the tokens of two states are the same up to some place, and so is the lookahead there, one
state is the other with the tokens beyond exchanged. -/
theorem SameState.eq_before {session other : Session} {used : List Token} {c' : Cursor}
    (h : session.SameState other) (hm : session.cursor.Moved used c')
    (htokens : ∀ i ≤ c'.index, other.cursor.tokens[i]? = session.cursor.tokens[i]?) :
    ∃ rest, other = session.before (used ++ rest) ∧ rest.head? = c'.ahead.head? := by
  rw [← hm.tokens_eq] at htokens
  have hpast : c'.tokens.take c'.index = c'.behind.reverse :=
    List.take_left' (List.length_reverse ..)
  have htake : other.cursor.tokens.take c'.index = session.cursor.behind.reverse ++ used := by
    have hsame : other.cursor.tokens.take c'.index = c'.tokens.take c'.index := by
      refine List.ext_getElem? fun i => ?_
      rw [List.getElem?_take, List.getElem?_take]
      split
      · exact htokens i (Nat.le_of_lt ‹_›)
      · rfl
    rw [hsame, hpast, hm.behind, List.reverse_append, List.reverse_reverse]
  have hall : other.cursor.behind.reverse ++ other.cursor.ahead =
      session.cursor.behind.reverse ++ (used ++ other.cursor.tokens.drop c'.index) := by
    rw [← List.append_assoc, ← htake, List.take_append_drop, Cursor.tokens]
  obtain ⟨hbehind, hahead⟩ := List.append_inj hall (by simpa [Cursor.index] using h.index)
  refine ⟨other.cursor.tokens.drop c'.index, ?_, ?_⟩
  · obtain ⟨⟨behind, ahead, nextId, file, depth⟩, table⟩ := other
    obtain ⟨-, rfl, rfl, hdepth, rfl⟩ := h
    obtain rfl : depth = session.cursor.depth := hdepth
    rw [List.reverse_inj] at hbehind
    cases hbehind
    exact congrArg (fun ahead => Session.mk ⟨_, ahead, _, _, _⟩ _) hahead
  · have hleft : c'.tokens.drop c'.index = c'.ahead := List.drop_left' (List.length_reverse ..)
    rw [List.head?_drop, htokens _ (Nat.le_refl _), ← List.head?_drop, hleft]

section

variable {α : Type} {session : Session} {rule : Parse α} {reply : α → Reply}

theorem run_ok {a : α} {c' : Cursor} (h : rule session.cursor = .ok a c') :
    session.run rule reply = (reply a, { session with cursor := c' }) := by
  rw [run, h]

theorem run_error {failure : Diagnostic} {c' : Cursor}
    (h : rule session.cursor = .error failure c') :
    session.run rule reply = (.failed failure, { session with cursor := c' }) := by
  rw [run, h]

variable {answer : Reply} {next : Session} (h : session.run rule reply = (answer, next))

include h

theorem run_cursor : next.cursor = Parse.ending (rule session.cursor) := by
  cases hrun : rule session.cursor with
  | ok a c' =>
    rw [run_ok hrun] at h
    cases h
    rfl
  | error failure c' =>
    rw [run_error hrun] at h
    cases h
    rfl

/-- A run gives the same answer before other tokens. -/
theorem run_before {used rest : List Token}
    (hsees : rule.SeesOnly session.cursor used) (hr : rest.head? = next.cursor.ahead.head?) :
    (session.before (used ++ rest)).run rule reply = (answer, next.before rest) := by
  have hsame := hsees.same rest (run_cursor h ▸ hr)
  cases hrun : rule session.cursor with
  | ok a c' =>
    rw [run_ok hrun] at h
    rw [hrun] at hsame
    cases h
    exact run_ok hsame
  | error failure c' =>
    rw [run_error hrun] at h
    rw [hrun] at hsame
    cases h
    exact run_error hsame

end

/-- Exactly one token of lookahead. A rule that ends at some place, with a result or with an error,
ends there too, and with the same, when other tokens are given, as long as they are the same before
that place and at it, where both may end as well. -/
theorem parse_looks_one_ahead {session other next : Session} {rule : Rule} {reply : Reply}
    (hsame : session.SameState other) (h : session.answer (.parse rule) = (reply, next))
    (htokens : ∀ i ≤ next.cursor.index, other.cursor.tokens[i]? = session.cursor.tokens[i]?) :
    ∃ next', other.answer (.parse rule) = (reply, next') ∧ next.SameState next' ∧
      next'.cursor.tokens = other.cursor.tokens := by
  have hrule := Parse.OneAhead.inherited.run session.table (maxDepth - session.depth) rule
  obtain ⟨used, hsees⟩ := hrule session.cursor
  have hrun := session.answer_parse rule ▸ h
  have hm : session.cursor.Moved used next.cursor := by
    rw [run_cursor hrun]
    exact hsees.moved
  obtain ⟨rest, rfl, hr⟩ := hsame.eq_before hm htokens
  have hother := (session.before (used ++ rest)).answer_parse rule
  refine ⟨next.before rest, hother.trans (run_before hrun hsees hr), ⟨rfl, rfl, rfl, rfl, rfl⟩, ?_⟩
  simp [before, Cursor.tokens, hm.behind]

/-- `x + y` is the same sum before `; )` and before `;` at the end of the tokens. -/
theorem parse_looks_one_ahead_sum :
    let name (text : String) : Token := ⟨.identifier, text, .null⟩
    let sign (text : String) : Token := ⟨.operator, text, .null⟩
    let session (more : List Token) : Session :=
      ⟨.start "" ([name "x", sign "+", name "y", sign ";"] ++ more), []⟩
    ∃ sum next next', next.cursor.index = 3 ∧ next'.cursor.index = 3 ∧
      (session [sign ")"]).answer (.parse (.atLevel .additive)) =
        (.parsed (.node (.expr sum)), next) ∧
      (session []).answer (.parse (.atLevel .additive)) =
        (.parsed (.node (.expr sum)), next') := by
  intro name sign session
  obtain ⟨sum, next, hindex, hrun⟩ : ∃ sum next, next.cursor.index = 3 ∧
      (session [sign ")"]).answer (.parse (.atLevel .additive)) =
        (.parsed (.node (.expr sum)), next) := ⟨_, _, rfl, rfl⟩
  have hsame : (session [sign ")"]).SameState (session []) := ⟨rfl, rfl, rfl, rfl, rfl⟩
  have htokens : ∀ i ≤ 3,
      (session []).cursor.tokens[i]? = (session [sign ")"]).cursor.tokens[i]? := by decide
  obtain ⟨next', hrun', hsame', -⟩ := parse_looks_one_ahead hsame hrun (hindex ▸ htokens)
  exact ⟨sum, next, next', hindex, hsame'.index.trans hindex, hrun, hrun'⟩

end Session

end MiniC
