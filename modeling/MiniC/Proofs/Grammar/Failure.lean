import MiniC.Proofs.Grammar.StatementReads

/-!
Failures of rules against the grammar. A rule that fails has used tokens that the text of some
derivation starts with, apart from a number that cannot be read, and its diagnostic tells what it
found where it stopped. So each rule is shown to read whole texts of its language or to fail after
part of one.
-/

namespace MiniC

open MiniC.Language Grammar Number

/-- A number token that stands for no value. -/
def Token.Unreadable (token : Token) : Prop :=
  (token.kind = .integer ∧ readInt64? token.lexeme = none) ∨
    (token.kind = .float ∧ Binary64.read? token.lexeme = none)

/-- What a diagnostic tells about a failure: of the `used` tokens the `good` ones fit, and the
others are left. Only an unreadable number is used without fitting. -/
inductive Diagnostic.Reports : Diagnostic → (used good left : List Token) → Prop where
  | unexpected {used token rest} :
      Reports ⟨.unexpected token.lexeme, token.span.start⟩ used used (token :: rest)
  | unexpectedDetailed {message used token rest} :
      Reports ⟨.unexpectedDetailed token.lexeme message, token.span.start⟩ used used
        (token :: rest)
  | endOfInput {expected position used} : Reports ⟨.endOfInput expected, position⟩ used used []
  | tooDeep {position used left} : Reports ⟨.tooDeep maxDepth, position⟩ used used left
  | badNumber {used token left} : token.Unreadable →
      Reports ⟨.badNumber token.lexeme, token.span.start⟩ (used ++ [token]) used left

namespace Diagnostic.Reports

variable {d : Diagnostic} {used good left : List Token}

/-- The report of a part is that of the whole, whose tokens before the part fit. -/
theorem prepend (h : d.Reports used good left) (before : List Token) :
    d.Reports (before ++ used) (before ++ good) left := by
  cases h with
  | unexpected => exact .unexpected
  | unexpectedDetailed => exact .unexpectedDetailed
  | endOfInput => exact .endOfInput
  | tooDeep => exact .tooDeep
  | badNumber hn =>
    rw [← List.append_assoc]
    exact .badNumber hn

end Diagnostic.Reports

theorem Cursor.endOfInput_reports {c : Cursor} (h : c.ahead = []) (expected : String) :
    (c.endOfInput expected).Reports [] [] c.ahead := by
  rw [h]
  exact .endOfInput

theorem Cursor.unexpected_reports (c : Cursor) (expected : String) :
    (c.unexpected expected).Reports [] [] c.ahead := by
  cases ha : c.ahead with
  | nil =>
    simp only [Cursor.unexpected, ha]
    exact .endOfInput
  | cons token rest =>
    simp only [Cursor.unexpected, ha]
    exact .unexpectedDetailed

namespace Parse

variable {α β : Type} {c c' : Cursor}

/-- Where a rule fails from `c`, the tokens that fit are the start of a text of `L`. -/
def FailsIn (rule : Parse α) (c : Cursor) (L : List Terminal → Prop) : Prop :=
  ∀ ⦃failure c'⦄, rule c = .error failure c' → ∃ used good more, c.Moved used c' ∧
    failure.Reports used good c'.ahead ∧ L (good.map Token.terminal ++ more)

/-- A rule for the texts of `L`: it reads one of them or fails after part of one. -/
structure Parses (rule : Parse α) (L : List Terminal → Prop) : Prop where
  ok : ∀ ⦃c a c'⦄, rule c = .ok a c' → ∃ used, c.Moved used c' ∧ L (used.map Token.terminal)
  error : ∀ c, rule.FailsIn c L

/-- A rule that takes the one token its result tells of, or fails before it. -/
structure Steps (rule : Parse α) (terminal : α → Terminal) : Prop where
  ok : ∀ ⦃c a c'⦄, rule c = .ok a c' →
    ∃ token, c.Moved [token] c' ∧ token.terminal = terminal a
  error : ∀ ⦃c failure c'⦄, rule c = .error failure c' →
    c' = c ∧ failure.Reports [] [] c.ahead

theorem error_bind {x : Parse α} {f : α → Parse β} {failure : Diagnostic} :
    (x >>= f) c = .error failure c' ↔
      x c = .error failure c' ∨ ∃ a c₁, x c = .ok a c₁ ∧ f a c₁ = .error failure c' := by
  rw [bind_run]
  cases x c with
  | ok a c₁ =>
    constructor
    · intro h
      exact .inr ⟨a, c₁, rfl, h⟩
    · rintro (hx | ⟨a, c₁, hx, h⟩)
      · cases hx
      · cases hx
        exact h
  | error failure' c₁ => simp

theorem advance_error {failure : Diagnostic} (h : advance c = .error failure c') :
    c' = c ∧ c.ahead = [] := by
  cases ha : c.ahead with
  | nil =>
    simp only [advance, get_bind_run, ha] at h
    cases h
    exact ⟨rfl, rfl⟩
  | cons token rest =>
    obtain ⟨c₁, hrun, -⟩ := advance_cons ha
    cases hrun.symm.trans h

theorem peek_error {expected : String} {failure : Diagnostic}
    (h : peek expected c = .error failure c') :
    c' = c ∧ c.ahead = [] ∧ failure = c.endOfInput expected := by
  cases ha : c.ahead with
  | nil =>
    simp only [peek, get_bind_run, ha] at h
    cases h
    exact ⟨rfl, rfl, rfl⟩
  | cons token rest => cases (peek_cons ha expected).symm.trans h

namespace FailsIn

variable {rule x : Parse α} {f : α → Parse β} {L M : List Terminal → Prop}

/-- A rule that fails where it starts. -/
theorem here {failure : Diagnostic} (hr : failure.Reports [] [] c.ahead)
    (hL : ∃ text, L text) : FailsIn (fun c => .error failure c : Parse α) c L := by
  intro failure' c' h
  cases h
  obtain ⟨text, ht⟩ := hL
  exact ⟨[], [], text, .refl c, hr, ht⟩

theorem unexpected {expected : String} (hL : ∃ text, L text) :
    (unexpected expected : Parse α).FailsIn c L := by
  intro failure c' h
  cases h
  obtain ⟨text, ht⟩ := hL
  exact ⟨[], [], text, .refl c, c.unexpected_reports expected, ht⟩

theorem tooDeep (hL : ∃ text, L text) : (Parse.tooDeep : Parse α).FailsIn c L := by
  intro failure c' h
  cases h
  obtain ⟨text, ht⟩ := hL
  exact ⟨[], [], text, .refl c, .tooDeep, ht⟩

theorem pure {a : α} : (Pure.pure a : Parse α).FailsIn c L := by
  intro failure c' h
  cases h

/-- A rule that only looks at where it has come. -/
theorem finish {g : Cursor → α} :
    (get >>= fun c => Pure.pure (g c) : Parse α).FailsIn c L := by
  intro failure c' h
  cases h

theorem mono (h : rule.FailsIn c L) (hL : ∀ text, L text → M text) : rule.FailsIn c M := by
  intro failure c' hr
  obtain ⟨used, good, more, hm, hrep, ht⟩ := h hr
  exact ⟨used, good, more, hm, hrep, hL _ ht⟩

theorem nested (h : rule.FailsIn c L) : (nested rule).FailsIn c L := by
  intro failure c' hr
  unfold Parse.nested at hr
  cases hrun : rule c with
  | ok a c₁ => simp [hrun] at hr
  | error failure₁ c₁ =>
    simp only [hrun, EStateM.Result.error.injEq] at hr
    obtain ⟨rfl, rfl⟩ := hr
    obtain ⟨used, good, more, hm, hrep, ht⟩ := h hrun
    exact ⟨used, good, more, ⟨hm.behind, hm.ahead, hm.file⟩, hrep, ht⟩

/-- A failure after tokens that were used. -/
theorem prepend {used : List Token} {text : List Terminal} (hm : c.Moved used c')
    (ht : used.map Token.terminal = text) (h : rule.FailsIn c' fun more => L (text ++ more))
    {failure : Diagnostic} {c'' : Cursor} (hr : rule c' = .error failure c'') :
    ∃ used good more, c.Moved used c'' ∧ failure.Reports used good c''.ahead ∧
      L (good.map Token.terminal ++ more) := by
  obtain ⟨used', good, more, hm', hrep, hL⟩ := h hr
  refine ⟨used ++ used', used ++ good, more, hm.trans hm', hrep.prepend used, ?_⟩
  rwa [List.map_append, ht, List.append_assoc]

/-- A sequence fails in its first part, whose texts can all be completed, or after it. -/
theorem bindFrom (hx : x.FailsIn c M)
    (hr : ∀ a c', x c = .ok a c' → ∃ used, c.Moved used c' ∧ M (used.map Token.terminal))
    (hM : ∀ text, M text → ∃ more, L (text ++ more))
    (hf : ∀ a c' text, M text → (f a).FailsIn c' fun more => L (text ++ more)) :
    (x >>= f).FailsIn c L := by
  intro failure c' h
  rcases error_bind.1 h with herr | ⟨a, c₁, hrun, herr⟩
  · obtain ⟨used, good, more, hm, hrep, ht⟩ := hx herr
    obtain ⟨more', ht'⟩ := hM _ ht
    exact ⟨used, good, more ++ more', hm, hrep, by simpa using ht'⟩
  · obtain ⟨used, hm, ht⟩ := hr a c₁ hrun
    exact prepend hm rfl (hf a c₁ _ ht) herr

theorem bind (hx : x.Parses M) (hM : ∀ text, M text → ∃ more, L (text ++ more))
    (hf : ∀ a c' text, M text → (f a).FailsIn c' fun more => L (text ++ more)) :
    (x >>= f).FailsIn c L :=
  bindFrom (hx.error c) (fun _ _ h => hx.ok h) hM hf

/-- A rule whose result is put into a larger one fails where the rule does. -/
theorem map {g : α → β} (h : rule.FailsIn c L) :
    (rule >>= fun a => Pure.pure (g a)).FailsIn c L := by
  intro failure c' hr
  rcases error_bind.1 hr with herr | ⟨_, _, _, hpure⟩
  · exact h herr
  · cases hpure

theorem step {terminal : α → Terminal} (hx : x.Steps terminal) (hL : ∃ text, L text)
    (hf : ∀ a c', (f a).FailsIn c' fun more => L (terminal a :: more)) :
    (x >>= f).FailsIn c L := by
  intro failure c' h
  rcases error_bind.1 h with h | ⟨a, c₁, hrun, h⟩
  · obtain ⟨rfl, hrep⟩ := hx.error h
    obtain ⟨text, ht⟩ := hL
    exact ⟨[], [], text, .refl c', hrep, ht⟩
  · obtain ⟨token, hm, ht⟩ := hx.ok hrun
    have ht' : [token].map Token.terminal = [terminal a] := by rw [List.map_singleton, ht]
    exact prepend hm ht' (hf a c₁) h

/-- The token that is ahead can always be taken. -/
theorem advance {f : Token → Parse β} {token : Token} {rest : List Token}
    (ha : c.ahead = token :: rest)
    (hf : ∀ c', (f token).FailsIn c' fun more => L (token.terminal :: more)) :
    (advance >>= f).FailsIn c L := by
  intro failure c' h
  obtain ⟨c₁, hrun, hm⟩ := advance_cons ha
  rw [bind_run, hrun] at h
  exact prepend hm rfl (hf c₁) h

theorem peek {f : Token → Parse β} {expected : String} (hL : ∃ text, L text)
    (hf : ∀ token rest, c.ahead = token :: rest → (f token).FailsIn c L) :
    (peek expected >>= f).FailsIn c L := by
  intro failure c' h
  rcases error_bind.1 h with herr | ⟨token, c₁, hrun, herr⟩
  · obtain ⟨rfl, ha, rfl⟩ := peek_error herr
    obtain ⟨text, ht⟩ := hL
    exact ⟨[], [], text, .refl c', c'.endOfInput_reports ha expected, ht⟩
  · obtain ⟨rfl, rest, ha⟩ := peek_ok hrun
    exact hf token rest ha herr

theorem takeId {f : Int32 → Parse β} (hf : ∀ id c', c.Moved [] c' → (f id).FailsIn c' L) :
    (takeId >>= f).FailsIn c L := by
  intro failure c' h
  rcases error_bind.1 h with herr | ⟨id, c₁, hrun, herr⟩
  · cases herr
  · exact prepend (takeId_ok hrun) rfl (hf id c₁ (takeId_ok hrun)) herr

theorem get {f : Cursor → Parse β} (h : (f c).FailsIn c L) : (get >>= f).FailsIn c L :=
  h

end FailsIn

theorem expectOperator_steps (lexeme : String) :
    (expectOperator lexeme).Steps fun _ => operator lexeme := by
  refine ⟨fun c token c' h => ?_, fun c failure c' h => ?_⟩
  · obtain ⟨hm, ht⟩ := expectOperator_ok h
    exact ⟨token, hm, ht⟩
  · simp only [expectOperator, get_bind_run] at h
    split at h
    · next hat => simp [Cursor.atOperator, (advance_error h).2] at hat
    · cases h
      exact ⟨rfl, c.unexpected_reports _⟩

theorem expectKeyword_steps (lexeme : String) :
    (expectKeyword lexeme).Steps fun _ => keyword lexeme := by
  refine ⟨fun c token c' h => ?_, fun c failure c' h => ?_⟩
  · obtain ⟨hm, ht⟩ := expectKeyword_ok h
    exact ⟨token, hm, ht⟩
  · simp only [expectKeyword, get_bind_run] at h
    split at h
    · next hat => simp [Cursor.atKeyword, (advance_error h).2] at hat
    · cases h
      exact ⟨rfl, c.unexpected_reports _⟩

theorem expectKind_steps (kind : Token.Kind) (expected : String) :
    (expectKind kind expected).Steps fun token => (kind, token.lexeme) := by
  refine ⟨fun c token c' h => ?_, fun c failure c' h => ?_⟩
  · obtain ⟨hm, hk⟩ := expectKind_ok h
    exact ⟨token, hm, by rw [Token.terminal, hk]⟩
  · rcases error_bind.1 h with herr | ⟨token, c₁, hrun, herr⟩
    · obtain ⟨rfl, ha, rfl⟩ := peek_error herr
      exact ⟨rfl, c'.endOfInput_reports ha expected⟩
    · obtain ⟨rfl, rest, ha⟩ := peek_ok hrun
      split at herr
      · cases (advance_error herr).2.symm.trans ha
      · cases herr
        exact ⟨rfl, c'.unexpected_reports expected⟩

end Parse

end MiniC
