import MiniC.Proofs.Grammar.Language
import MiniC.Proofs.Grammar.Levels

/-!
Runs of rules. `Cursor.Moved` says which tokens lie between two places of a cursor, the `_ok` lemmas
what a successful step has consumed, and `Parse.Takes` that a rule consumes given tokens unless the
limit on nesting stops it.
-/

namespace MiniC

/-- The tokens `used` lie between two places of a cursor. The ids taken on the way do not matter. -/
structure Cursor.Moved (before : Cursor) (used : List Token) (after : Cursor) : Prop where
  behind : after.behind = used.reverse ++ before.behind
  ahead : before.ahead = used ++ after.ahead
  file : after.file = before.file

namespace Cursor.Moved

variable {c c' c'' : Cursor} {used used' rest : List Token}

theorem refl (c : Cursor) : c.Moved [] c := ⟨rfl, rfl, rfl⟩

theorem trans (h : c.Moved used c') (h' : c'.Moved used' c'') : c.Moved (used ++ used') c'' := by
  refine ⟨?_, ?_, h'.file.trans h.file⟩
  · rw [h'.behind, h.behind, List.reverse_append, List.append_assoc]
  · rw [h.ahead, h'.ahead, List.append_assoc]

/-- What is left after the tokens that were used. -/
theorem rest_eq (h : c.Moved used c') (ha : c.ahead = used ++ rest) : c'.ahead = rest :=
  (List.append_cancel_left (ha.symm.trans h.ahead)).symm

end Cursor.Moved

namespace Token

theorem isOperator_iff {token : Token} {lexeme : String} :
    token.isOperator lexeme = true ↔ token.terminal = Language.operator lexeme := by
  simp [isOperator, is, terminal, Language.operator]

theorem isKeyword_iff {token : Token} {lexeme : String} :
    token.isKeyword lexeme = true ↔ token.terminal = Language.keyword lexeme := by
  simp [isKeyword, is, terminal, Language.keyword]

end Token

namespace Cursor

variable {c : Cursor} {token : Token} {rest : List Token} {lexeme : String}

theorem atOperator_iff (h : c.ahead = token :: rest) :
    c.atOperator lexeme = true ↔ token.terminal = Language.operator lexeme := by
  simp [atOperator, h, Token.isOperator_iff]

theorem atKeyword_iff (h : c.ahead = token :: rest) :
    c.atKeyword lexeme = true ↔ token.terminal = Language.keyword lexeme := by
  simp [atKeyword, h, Token.isKeyword_iff]

theorem exists_of_atKeyword (h : c.atKeyword lexeme = true) :
    ∃ token rest, c.ahead = token :: rest ∧ token.terminal = Language.keyword lexeme := by
  cases ha : c.ahead with
  | nil => simp [atKeyword, ha] at h
  | cons token rest => exact ⟨token, rest, rfl, (atKeyword_iff ha).1 h⟩

end Cursor

namespace Parse

variable {α β : Type} {c c' : Cursor}

@[simp] theorem pure_run (a : α) (c : Cursor) : (pure a : Parse α) c = .ok a c := rfl

@[simp] theorem fail_run (d : Diagnostic) (c : Cursor) :
    (fail d : Parse α) c = .error d c := rfl

@[simp] theorem unexpected_run (expected : String) (c : Cursor) :
    (unexpected expected : Parse α) c = .error (c.unexpected expected) c := rfl

theorem bind_run (x : Parse α) (f : α → Parse β) (c : Cursor) :
    (x >>= f) c = match x c with
      | .ok a c' => f a c'
      | .error failure c' => .error failure c' := by
  simp only [bind, EStateM.bind]
  cases x c <;> rfl

@[simp] theorem get_bind_run (f : Cursor → Parse β) (c : Cursor) : (get >>= f) c = f c c := rfl

theorem pure_ok {a b : α} : (pure a : Parse α) c = .ok b c' ↔ a = b ∧ c = c' := by
  rw [pure_run, EStateM.Result.ok.injEq]

/-- A sequence succeeds exactly when both parts do. -/
theorem bind_ok {x : Parse α} {f : α → Parse β} {b : β} :
    (x >>= f) c = .ok b c' ↔ ∃ a c₁, x c = .ok a c₁ ∧ f a c₁ = .ok b c' := by
  rw [bind_run]
  cases x c with
  | ok a c₁ =>
    constructor
    · intro h
      exact ⟨a, c₁, rfl, h⟩
    · rintro ⟨a, c₁, hx, h⟩
      cases hx
      exact h
  | error failure c₁ => simp

theorem nested_ok {rule : Parse α} {a : α} :
    nested rule c = .ok a c' ↔ rule c = .ok a c' := by
  unfold nested
  cases rule c <;> simp

/-- A failure passes through, with one more level open. -/
theorem nested_error {rule : Parse α} {e : Diagnostic} (h : rule c = .error e c') :
    nested rule c = .error e { c' with depth := c'.depth + 1 } := by
  rw [nested, h]

theorem peek_ok {expected : String} {token : Token} (h : peek expected c = .ok token c') :
    c' = c ∧ ∃ rest, c.ahead = token :: rest := by
  cases ha : c.ahead with
  | nil => simp [peek, ha] at h
  | cons t rest =>
    simp only [peek, get_bind_run, ha, pure_ok] at h
    obtain ⟨rfl, rfl⟩ := h
    exact ⟨rfl, rest, rfl⟩

theorem advance_run (c : Cursor) : advance c = match c.ahead with
    | [] => .error (c.endOfInput "more input") c
    | token :: rest => .ok token { c with behind := token :: c.behind, ahead := rest } := by
  simp only [advance, get_bind_run]
  cases c.ahead <;> rfl

theorem advance_ok {token : Token} (h : advance c = .ok token c') : c.Moved [token] c' := by
  cases ha : c.ahead with
  | nil => simp [advance, ha] at h
  | cons t rest =>
    simp only [advance, get_bind_run, ha] at h
    cases h
    exact ⟨rfl, ha, rfl⟩

theorem expectKind_ok {kind : Token.Kind} {expected : String} {token : Token}
    (h : expectKind kind expected c = .ok token c') : c.Moved [token] c' ∧ token.kind = kind := by
  rw [expectKind, bind_ok] at h
  obtain ⟨t, c₁, hp, h⟩ := h
  obtain ⟨rfl, rest, ha⟩ := peek_ok hp
  split at h
  · have hm := advance_ok h
    -- the token that was looked at is the one that is taken
    have ht : t = token := by
      have := hm.ahead
      rw [ha] at this
      exact (List.cons.inj this).1
    exact ⟨hm, ht ▸ ‹t.kind = kind›⟩
  · simp at h

theorem expectOperator_ok {lexeme : String} {token : Token}
    (h : expectOperator lexeme c = .ok token c') :
    c.Moved [token] c' ∧ token.terminal = Language.operator lexeme := by
  simp only [expectOperator, get_bind_run] at h
  split at h
  · have hm := advance_ok h
    exact ⟨hm, (Cursor.atOperator_iff hm.ahead).1 ‹_›⟩
  · simp at h

theorem expectKeyword_ok {lexeme : String} {token : Token}
    (h : expectKeyword lexeme c = .ok token c') :
    c.Moved [token] c' ∧ token.terminal = Language.keyword lexeme := by
  simp only [expectKeyword, get_bind_run] at h
  split at h
  · have hm := advance_ok h
    exact ⟨hm, (Cursor.atKeyword_iff hm.ahead).1 ‹_›⟩
  · simp at h

theorem takeId_ok {id : Int32} (h : takeId c = .ok id c') : c.Moved [] c' := by
  cases h
  exact ⟨rfl, rfl, rfl⟩

/-- All that a rule parses is derived, with a demand that fits into the levels. -/
def Reads (rule : Parse α) (levels : Nat) (Derived : List Terminal → α → Nat → Prop) : Prop :=
  ∀ ⦃c a c'⦄, rule c = .ok a c' → ∃ used demand, c.Moved used c' ∧
    Derived (used.map Token.terminal) a demand ∧ demand ≤ levels

/-! Steps forward: what a token lets the primitive rules do. -/

section

variable {token : Token} {rest : List Token}

theorem peek_cons (h : c.ahead = token :: rest) (expected : String) :
    peek expected c = .ok token c := by
  simp [peek, h]

theorem advance_cons (h : c.ahead = token :: rest) :
    ∃ c', advance c = .ok token c' ∧ c.Moved [token] c' := by
  refine ⟨{ c with behind := token :: c.behind, ahead := rest }, ?_, rfl, h, rfl⟩
  simp only [advance, get_bind_run, h]
  rfl

theorem expectKind_cons {kind : Token.Kind} {expected : String} (h : c.ahead = token :: rest)
    (ht : token.kind = kind) :
    ∃ c', expectKind kind expected c = .ok token c' ∧ c.Moved [token] c' := by
  obtain ⟨c', ha, hm⟩ := advance_cons h
  refine ⟨c', ?_, hm⟩
  rw [expectKind, bind_ok]
  exact ⟨token, c, peek_cons h expected, by simpa [ht] using ha⟩

theorem expectOperator_cons {lexeme : String} (h : c.ahead = token :: rest)
    (ht : token.terminal = Language.operator lexeme) :
    ∃ c', expectOperator lexeme c = .ok token c' ∧ c.Moved [token] c' := by
  obtain ⟨c', ha, hm⟩ := advance_cons h
  refine ⟨c', ?_, hm⟩
  rw [expectOperator, get_bind_run, if_pos ((Cursor.atOperator_iff h).2 ht), ha]

theorem expectKeyword_cons {lexeme : String} (h : c.ahead = token :: rest)
    (ht : token.terminal = Language.keyword lexeme) :
    ∃ c', expectKeyword lexeme c = .ok token c' ∧ c.Moved [token] c' := by
  obtain ⟨c', ha, hm⟩ := advance_cons h
  refine ⟨c', ?_, hm⟩
  rw [expectKeyword, get_bind_run, if_pos ((Cursor.atKeyword_iff h).2 ht), ha]

end

/-- From `c` a rule consumes exactly `used`, with a good result, if it fits into the levels left,
and is stopped by the limit on nesting otherwise. -/
structure Takes (rule : Parse α) (c : Cursor) (used : List Token) (fits : Prop)
    (good : α → Prop) : Prop where
  done : fits → ∃ a c', rule c = .ok a c' ∧ c.Moved used c' ∧ good a
  stopped : ¬fits → ∃ failure c', rule c = .error failure c' ∧
    failure.cause = .tooDeep Grammar.maxDepth

namespace Takes

variable {rule x : Parse α} {f : α → Parse β} {used used' : List Token} {fits fits' : Prop}
  {good : α → Prop} {good' : β → Prop}

theorem pure {a : α} (h : good a) : (pure a : Parse α).Takes c [] True good :=
  ⟨fun _ => ⟨a, c, rfl, .refl c, h⟩, fun h => absurd trivial h⟩

theorem tooDeep : (Parse.tooDeep : Parse α).Takes c used False good :=
  ⟨False.elim, fun _ => ⟨_, c, rfl, rfl⟩⟩

theorem congr (h : rule.Takes c used fits good) (hf : fits ↔ fits') :
    rule.Takes c used fits' good :=
  ⟨fun h' => h.done (hf.2 h'), fun h' => h.stopped (fun h => h' (hf.1 h))⟩

theorem mono {good' : α → Prop} (h : rule.Takes c used fits good) (hg : ∀ a, good a → good' a) :
    rule.Takes c used fits good' := by
  refine ⟨fun hf => ?_, h.stopped⟩
  obtain ⟨a, c', hr, hm, ha⟩ := h.done hf
  exact ⟨a, c', hr, hm, hg a ha⟩

theorem nested (h : rule.Takes c used fits good) : (nested rule).Takes c used fits good := by
  refine ⟨fun hf => ?_, fun hf => ?_⟩
  · obtain ⟨a, c', hr, hm, hg⟩ := h.done hf
    exact ⟨a, c', nested_ok.2 hr, hm, hg⟩
  · obtain ⟨failure, c', hr, hc⟩ := h.stopped hf
    exact ⟨failure, _, nested_error hr, hc⟩

/-- A sequence fits when both parts do. -/
theorem bind (hx : x.Takes c used fits good)
    (hf : ∀ a c', c.Moved used c' → good a → (f a).Takes c' used' fits' good') :
    (x >>= f).Takes c (used ++ used') (fits ∧ fits') good' := by
  -- the second part is only reached, and its promise only available, if the first fits
  by_cases hfit : fits
  · obtain ⟨a, c₁, hr, hm, hg⟩ := hx.done hfit
    have h := hf a c₁ hm hg
    have hrun : (x >>= f) c = f a c₁ := by rw [bind_run, hr]
    refine ⟨fun hfits => ?_, fun hfits => ?_⟩
    · obtain ⟨b, c₂, hr', hm', hg'⟩ := h.done hfits.2
      exact ⟨b, c₂, hrun.trans hr', hm.trans hm', hg'⟩
    · obtain ⟨failure, c₂, hr', hc⟩ := h.stopped (fun h' => hfits ⟨hfit, h'⟩)
      exact ⟨failure, c₂, hrun.trans hr', hc⟩
  · refine ⟨fun hfits => absurd hfits.1 hfit, fun _ => ?_⟩
    obtain ⟨failure, c₁, hr, hc⟩ := hx.stopped hfit
    exact ⟨failure, c₁, by rw [bind_run, hr], hc⟩

/-- A rule whose result is put into a larger one. -/
theorem map {g : α → β} (hx : x.Takes c used fits good) (hg : ∀ a, good a → good' (g a)) :
    (x >>= fun a => Pure.pure (g a)).Takes c used fits good' := by
  refine List.append_nil used ▸ (hx.bind fun a _ _ ha => ?_).congr (and_true _).to_iff
  exact pure (hg a ha)

/-- A rule whose result is put into a larger one together with the place reached. -/
theorem finish {g : α → Cursor → β} (hx : x.Takes c used fits good)
    (hg : ∀ a c', good a → good' (g a c')) :
    (x >>= fun a => get >>= fun c' => Pure.pure (g a c')).Takes c used fits good' := by
  refine List.append_nil used ▸ (hx.bind fun a c' _ ha => ?_).congr (and_true _).to_iff
  exact ⟨fun _ => ⟨g a c', c', rfl, .refl c', hg a c' ha⟩, fun h => absurd trivial h⟩

/-- A step that always succeeds here leaves it to the rest whether all fits. -/
theorem after {a : α} (hx : ∃ c', x c = .ok a c' ∧ c.Moved used c')
    (hf : ∀ c', c.Moved used c' → (f a).Takes c' used' fits' good') :
    (x >>= f).Takes c (used ++ used') fits' good' := by
  obtain ⟨c', hr, hm⟩ := hx
  have h : x.Takes c used True (· = a) := ⟨fun _ => ⟨a, c', hr, hm, rfl⟩, fun h => absurd trivial h⟩
  exact (h.bind fun _ c' hm ha => ha ▸ hf c' hm).congr (by simp)

theorem peek {f : Token → Parse β} {token : Token} {rest : List Token} {expected : String}
    (ha : c.ahead = token :: rest) (h : (f token).Takes c used fits good') :
    (peek expected >>= f).Takes c used fits good' := by
  have hrun : (Parse.peek expected >>= f) c = f token c := by rw [bind_run, peek_cons ha]
  exact ⟨fun hf => hrun ▸ h.done hf, fun hf => hrun ▸ h.stopped hf⟩

theorem get {f : Cursor → Parse β} (h : (f c).Takes c used fits good') :
    (get >>= f).Takes c used fits good' :=
  ⟨h.done, h.stopped⟩

end Takes

/-- Wherever these terminals stand before tokens that may follow them, a rule takes them if their
demand fits into its levels, and what it gives looks like `tree`. -/
def Accepts (rule : Nat → Parse α) (view : α → β) (Ends : List Token → Prop)
    (text : List Terminal) (tree : β) (demand : Nat) : Prop :=
  ∀ ⦃levels c used rest⦄, c.ahead = used ++ rest → used.map Token.terminal = text → Ends rest →
    (rule levels).Takes c used (demand ≤ levels) (view · = tree)

namespace Accepts

variable {γ : Type} {rule : Nat → Parse α} {view : α → β} {Ends Ends' : List Token → Prop}
  {text : List Terminal} {tree : β} {demand : Nat}

theorem mono (h : Accepts rule view Ends text tree demand) (he : ∀ rest, Ends' rest → Ends rest) :
    Accepts rule view Ends' text tree demand :=
  fun _ _ _ _ ha ht hs => h ha ht (he _ hs)

/-- A rule whose result is put into a larger one. -/
theorem map {g : α → γ} {view' : γ → γ} (wrap : β → γ)
    (h : Accepts rule view Ends text tree demand) (hg : ∀ a, view' (g a) = wrap (view a)) :
    Accepts (fun levels => rule levels >>= fun a => pure (g a)) view' Ends text (wrap tree)
      demand :=
  fun _ _ _ _ ha ht hs => (h ha ht hs).map fun a hv => by rw [hg, hv]

end Accepts

end Parse

end MiniC
