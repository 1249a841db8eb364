import MiniC.Proofs.Grammar.BlockIds
import MiniC.Proofs.Grammar.Lookahead

/-!
The discipline of the parser's state. Whatever has been asked of a session before, a rule comes to
an end in it: it has taken tokens and given each block that it read an id, with the levels of
nesting closed again, or it has failed and taken nothing back.
-/

namespace MiniC

open Grammar

/-- From one place to another so many ids have been taken. They wrap, but up to the greatest of them
the count goes up. -/
structure Cursor.Took (c c' : Cursor) (count : Nat) : Prop where
  nextId : c'.nextId = c.nextId + Int32.ofNat count
  toInt : c.nextId.toInt + count < 2147483648 → c'.nextId.toInt = c.nextId.toInt + count

namespace Parse

variable {α β : Type}

/-- A run from one place to another has taken no more ids than tokens. -/
def Tally (c c' : Cursor) : Prop :=
  ∃ taken, c.index + taken ≤ c'.index ∧ c'.nextId = c.nextId + Int32.ofNat taken

/-- Wherever it starts, a rule takes no more ids than tokens. -/
def Tallies (rule : Parse α) : Prop :=
  ∀ c, Tally c (ending (rule c))

namespace Tally

variable {c c₁ c' : Cursor}

theorem refl (c : Cursor) : Tally c c :=
  ⟨0, Nat.le_refl _, (Int32.add_zero _).symm⟩

theorem trans (h : Tally c c₁) (h' : Tally c₁ c') : Tally c c' := by
  obtain ⟨taken, hindex, hid⟩ := h
  obtain ⟨taken', hindex', hid'⟩ := h'
  refine ⟨taken + taken', by omega, ?_⟩
  rw [hid', hid, Int32.ofNat_add, Int32.add_assoc]

end Tally

namespace Tallies

variable {rule x : Parse α} {f : α → Parse β}

theorem bind (hx : x.Tallies) (hf : ∀ a, (f a).Tallies) : (x >>= f).Tallies := by
  intro c
  have h := hx c
  rw [bind_run]
  cases hrun : x c with
  | error failure c₁ =>
    rw [hrun] at h
    exact h
  | ok a c₁ =>
    rw [hrun] at h
    exact Tally.trans h (hf a c₁)

theorem advance : Parse.advance.Tallies := by
  intro c
  rw [advance_run]
  cases c.ahead with
  | nil => exact .refl c
  | cons token rest => exact ⟨0, Nat.le_succ _, (Int32.add_zero c.nextId).symm⟩

theorem nested (h : rule.Tallies) : (nested rule).Tallies := by
  intro c
  have htally := h c
  rw [Parse.nested]
  cases hrun : rule c with
  | ok a c' =>
    rw [hrun] at htally
    exact htally
  | error failure c' =>
    rw [hrun] at htally
    exact htally

/-- The id of a block is taken after its brace. -/
theorem opening {f : Token → Int32 → Parse α}
    (hbrace : (expectOperator "\x7b").Tallies) (hf : ∀ brace id, (f brace id).Tallies) :
    (expectOperator "\x7b" >>= fun brace => takeId >>= f brace).Tallies := by
  intro c
  have h := hbrace c
  rw [bind_run]
  cases hrun : expectOperator "\x7b" c with
  | error failure c₁ =>
    rw [hrun] at h
    exact h
  | ok brace c₁ =>
    have hindex : c₁.index = c.index + 1 := (expectOperator_ok hrun).1.index_eq
    have hid : c₁.nextId = c.nextId := (Comparison.expectOperator_tracks _).keepsId hrun
    let c₂ : Cursor := { c₁ with nextId := c₁.nextId + 1 }
    have htaken : Tally c c₂ := ⟨1, Nat.le_of_eq hindex.symm, congrArg (· + 1) hid⟩
    exact htaken.trans (hf brace c₁.nextId c₂)

theorem composed : Composed fun x _ => Tallies x where
  pure _ c := .refl c
  fail _ c := .refl c
  advance := advance
  look _ h c := h c c
  bind := bind
  opening := opening
  loop h c := h c.ahead.length c

theorem inherited : Inherited fun _ _ => Tallies where
  composed _ := composed
  nested := nested

end Tallies

end Parse

/-! What a rule that succeeds has consumed and counted. -/

/-- The ids of the blocks of what a rule gives, in the order of its walk. -/
def Parsed.blockIds : Parsed → List Int32
  | .node tree => MiniC.blockIds tree.walk
  | .type _ _ => []

namespace Parse

variable {α : Type} {levels : Nat} {rule : Parse α} {ids : α → List Int32}

/-- A rule takes at least one token when it succeeds. -/
def Progresses (rule : Parse α) : Prop :=
  ∀ ⦃c a c'⦄, rule c = .ok a c' → c.index < c'.index

/-- When a rule succeeds it has taken a token and has counted the blocks of its result. -/
structure Earns (rule : Parse α) (ids : α → List Int32) : Prop where
  progress : rule.Progresses
  counted : ∀ ⦃c a c'⦄, rule c = .ok a c' → Numbered c.nextId (ids a) c'.nextId

namespace Earns

/-- A rule whose result is put into a larger one without blocks of its own. -/
theorem map (h : rule.Earns ids) {g : α → Parsed} (hg : ∀ a, (g a).blockIds = ids a) :
    (rule >>= fun a => Pure.pure (g a)).Earns Parsed.blockIds := by
  have hrun : ∀ ⦃c result c'⦄, (rule >>= fun a => Pure.pure (g a)) c = .ok result c' →
      ∃ a, rule c = .ok a c' ∧ result = g a := by
    intro c result c' hbind
    simp only [bind_ok, pure_ok] at hbind
    obtain ⟨a, c₁, ha, rfl, rfl⟩ := hbind
    exact ⟨a, ha, rfl⟩
  constructor
  · intro c result c' hbind
    obtain ⟨a, ha, -⟩ := hrun hbind
    exact h.progress ha
  · intro c result c' hbind
    obtain ⟨a, ha, rfl⟩ := hrun hbind
    rw [hg]
    exact h.counted ha

end Earns

end Parse

namespace Grammar

open Parse Comparison MiniC.Language

variable (table : Table) (levels : Nat)

end Grammar

/-! What requests keep to. -/

namespace Parse

variable {α β : Type}

/-- From a place where no more levels are open than may be, a rule comes to another one among the
same tokens. -/
def Lawful (rule : Parse α) : Prop :=
  ∀ c, c.depth ≤ maxDepth →
    (ending (rule c)).tokens = c.tokens ∧ (ending (rule c)).depth ≤ maxDepth

namespace Lawful

variable {rule x : Parse α} {f : α → Parse β}

theorem bind (hx : x.Lawful) (hf : ∀ a, (f a).Lawful) : (x >>= f).Lawful := by
  intro c hc
  have h := hx c hc
  rw [bind_run]
  cases hrun : x c with
  | error failure c₁ =>
    rw [hrun] at h
    exact h
  | ok a c₁ =>
    rw [hrun] at h
    obtain ⟨htokens, hdepth⟩ := hf a c₁ h.2
    exact ⟨htokens.trans h.1, hdepth⟩

/-- What a rule does at one place, if it opens no more levels than are left there. -/
theorem of_balanced {levels : Nat} {c : Cursor} (hsees : x.OneAhead) (hx : x.Balanced levels)
    (hlevels : c.depth + levels ≤ maxDepth) :
    (ending (x c)).tokens = c.tokens ∧ (ending (x c)).depth ≤ maxDepth := by
  obtain ⟨used, hm, -⟩ := hsees c
  refine ⟨hm.tokens_eq, ?_⟩
  cases hrun : x c with
  | ok a c' =>
    have := hx.ok hrun
    simp only [ending]
    omega
  | error failure c' =>
    have := hx.error hrun
    simp only [ending]
    omega

/-- What is composed of single steps opens no levels. -/
theorem of_composed (h : ∀ {R : {α : Type} → Parse α → Parse α → Prop}, Composed R → R x x) :
    x.Lawful :=
  fun _ hc => of_balanced (h OneAhead.composed) (h (Balanced.composed 0)) hc

theorem takeId : Parse.takeId.Lawful :=
  fun _ hc => of_balanced OneAhead.takeId (@Balanced.takeId 0) hc

theorem enter : Parse.enter.Lawful := by
  intro c hc
  rw [enter_run]
  split
  · exact ⟨rfl, hc⟩
  · exact ⟨rfl, by simp only [ending, Cursor.deeper_depth]; omega⟩

theorem exit (levels : Nat) : (Parse.exit levels).Lawful :=
  fun _ hc => ⟨rfl, Nat.le_trans (Nat.sub_le ..) hc⟩

theorem enterAll (levels : Nat) : (Session.enter levels).Lawful := by
  induction levels with
  | zero => exact fun c hc => ⟨rfl, hc⟩
  | succ levels ih => exact enter.bind fun _ => ih

/-- A rule opens no more levels than are left. -/
theorem parse (rule : Rule) (table : Table) : (rule.parse table).Lawful := by
  intro c hc
  rw [rule.parse_eq_run]
  exact of_balanced (OneAhead.inherited.run table _ rule) (Balanced.inherited.run table _ rule)
    (by omega)

end Lawful

end Parse

namespace Session

/-- The session after it has answered these requests, one after the other. -/
def after (session : Session) (requests : List Request) : Session :=
  requests.foldl (fun session request => (session.answer request).2) session

/-- A session on these tokens that has no more levels open than may be. -/
structure Holds (tokens : List Token) (session : Session) : Prop where
  tokens : session.cursor.tokens = tokens
  depth : session.depth ≤ maxDepth

namespace Holds

variable {tokens : List Token} {session : Session}

theorem start (file : String) (tokens : List Token) : (Session.start file tokens).Holds tokens :=
  ⟨rfl, Nat.zero_le _⟩

theorem run {α : Type} {rule : Parse α} {reply : α → Reply} (h : session.Holds tokens)
    (hrule : rule.Lawful) : (session.run rule reply).2.Holds tokens := by
  obtain ⟨htokens, hdepth⟩ := hrule session.cursor h.depth
  have hcursor : (session.run rule reply).2.cursor = Parse.ending (rule session.cursor) :=
    run_cursor rfl
  rw [← hcursor] at htokens hdepth
  exact ⟨htokens.trans h.tokens, hdepth⟩

/-- Every request leaves the tokens as they are and the limit on nesting kept. -/
theorem answer (h : session.Holds tokens) (request : Request) :
    (session.answer request).2.Holds tokens := by
  cases request with
  | current | atOperator | atKeyword | unexpected | previousEnd | spanFrom | lexemes => exact h
  | demand expected => exact h.run (.of_composed fun hR => hR.peek expected)
  | advance => exact h.run (.of_composed fun hR => hR.advance)
  | expectKind kind expected => exact h.run (.of_composed fun hR => hR.expectKind kind expected)
  | expectOperator lexeme => exact h.run (.of_composed fun hR => hR.expectOperator lexeme)
  | expectKeyword lexeme => exact h.run (.of_composed fun hR => hR.expectKeyword lexeme)
  | takeId => exact h.run .takeId
  | enter levels => exact h.run (.enterAll levels)
  | exit levels => exact h.run (.exit levels)
  | register => exact ⟨h.tokens, h.depth⟩
  | bind => exact ⟨h.tokens, h.depth⟩
  | parse rule => exact h.run (.parse rule session.table)

theorem after (h : session.Holds tokens) (requests : List Request) :
    (session.after requests).Holds tokens := by
  induction requests generalizing session with
  | nil => exact h
  | cons request requests ih => exact ih (h.answer request)

end Holds

/-- How a rule may end that is run in a session. If it succeeds it has taken a token and one id for
each block of its result, and as many levels are open as before. If it fails it has taken no more
ids than tokens, and nothing is taken back. -/
inductive Ends (session : Session) : Reply × Session → Prop where
  | parsed {result : Parsed} {next : Session} : session.cursor.index < next.cursor.index →
      next.depth = session.depth → session.cursor.Took next.cursor result.blockIds.length →
      Ends session (.parsed result, next)
  | failed {e : Diagnostic} {next : Session} {taken : Nat} :
      session.cursor.index + taken ≤ next.cursor.index → session.depth ≤ next.depth →
      session.cursor.Took next.cursor taken → Ends session (.failed e, next)

end Session

end MiniC
