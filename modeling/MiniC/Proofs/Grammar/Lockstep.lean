import MiniC.Proofs.Grammar.Run
import MiniC.Proofs.Tree.Relabel

/-!
Two runs of the rules side by side. A comparison says which cursors correspond and up to which marks
their results are compared; `Tracks` says that two rules, run from corresponding cursors, either
give corresponding results or leave what the runs share. All rules are composed of a few steps, so
what holds of the steps holds of the rules.

A comparison is given up once the first run looks past the tokens that both share. A rule that
ends with a token of its own, such as a closing brace, cannot do so and succeed unless the tokens of
the first run go on there.
-/

namespace MiniC

open Grammar

/-- What two runs may see differently: places and the ids of blocks. -/
structure Marks where
  place : Position → Position := fun position => position
  id : Int32 → Int32 := fun id => id

namespace Marks

/-- A span, moved from the first run to the second. -/
def span (m : Marks) (span : Span) : Span :=
  ⟨m.place span.start, m.place span.stop⟩

/-- The change that turns a tree of the first run into one of the second. -/
def relabel (m : Marks) : Relabel where
  span := m.span
  id := m.id

def token (m : Marks) (token : Token) : Token :=
  ⟨token.kind, token.lexeme, m.span token.span⟩

def failure (m : Marks) (failure : Diagnostic) : Diagnostic :=
  ⟨failure.cause, m.place failure.position⟩

@[simp] theorem relabel_span (m : Marks) (span : Span) : m.relabel.span span = m.span span := rfl

@[simp] theorem relabel_id (m : Marks) (id : Int32) : m.relabel.id id = m.id id := rfl

@[simp] theorem relabel_type (m : Marks) (type : Option DataType) :
    m.relabel.type type = type := rfl

theorem span_eq_iff {m m' : Marks} {span span' : Span} :
    m.span span = m'.span span' ↔ m.place span.start = m'.place span'.start ∧
      m.place span.stop = m'.place span'.stop := by
  simp [Marks.span]

/-- Under some marks two tokens are the same exactly when their terminals and places are. -/
theorem token_eq_iff {m m' : Marks} {t t' : Token} :
    m.token t = m'.token t' ↔ t.terminal = t'.terminal ∧
      m.place t.span.start = m'.place t'.span.start ∧
      m.place t.span.stop = m'.place t'.span.stop := by
  simp [token, span, Token.terminal, and_assoc]

end Marks

/-- A diagnostic that more tokens could have avoided, or moved elsewhere. -/
def Cause.Unfinished : Cause → Prop
  | .endOfInput _ | .tooDeep _ => True
  | _ => False

/-- The cursor after the token that is ahead. -/
def Cursor.passed (c : Cursor) (token : Token) (rest : List Token) : Cursor :=
  { c with behind := token :: c.behind, ahead := rest }

/-- Whether a rule has taken a token yet. -/
inductive Stage where
  | fresh
  | moved

/-- Two cursors see the same: the end of their tokens, or tokens that are the same up to marks,
after which they correspond. -/
inductive Facing (left right : Marks) (near : Cursor → Cursor → Prop) (c d : Cursor) : Prop where
  | ended : c.ahead = [] → d.ahead = [] →
      left.place c.previousEnd = right.place d.previousEnd → Facing left right near c d
  | token {t t' : Token} {rest rest' : List Token} : c.ahead = t :: rest →
      d.ahead = t' :: rest' → left.token t = right.token t' →
      near (c.passed t rest) (d.passed t' rest') → Facing left right near c d

/-- How to compare two runs. -/
structure Comparison where
  /-- The levels of nesting that only the second run has. -/
  spare : Nat
  /-- The marks under which the first run is seen. -/
  left : Marks
  /-- The marks under which the second run is seen. -/
  right : Marks
  /-- The cursors that correspond. -/
  near : Stage → Cursor → Cursor → Prop
  /-- The cursors of the first run from which the lookahead is not shared. -/
  past : Cursor → Prop
  /-- Whether the first run may take tokens that are not shared. -/
  loose : Prop
  near_fresh : ∀ {c d}, near .moved c d → near .fresh c d
  facing : ∀ {c d}, near .fresh c d → past c ∨ Facing left right (near .moved) c d
  previousEnd : ∀ {c d}, near .moved c d → left.place c.previousEnd = right.place d.previousEnd
  past_of_suffix : ∀ {c c'}, past c → c'.ahead <:+ c.ahead → past c'
  loose_of_past : ∀ {c}, past c → c.ahead ≠ [] → loose
  left_eq_right : ∀ {c}, past c → left = right
  noElse : ∀ {c d}, near .moved c d → past c → ¬loose →
    c.atKeyword "else" = false ∧ d.atKeyword "else" = false

namespace Comparison

variable (σ : Comparison) {α β γ δ : Type}

/-- Failures of the first run that say nothing about the second. -/
def Void (failure : Diagnostic) (c : Cursor) : Prop :=
  (σ.past c ∧ (σ.loose ∨ failure.cause.Unfinished)) ∨
    (0 < σ.spare ∧ failure.cause = .tooDeep maxDepth)

/-- Both runs give the same up to marks, seen through `view`. -/
inductive Matches (view : Marks → α → β) :
    EStateM.Result Diagnostic Cursor α → EStateM.Result Diagnostic Cursor α → Prop where
  | ok {a b : α} {c d : Cursor} : view σ.left a = view σ.right b → σ.near .moved c d →
      Matches view (.ok a c) (.ok b d)
  | error {f g : Diagnostic} {c d : Cursor} : σ.left.failure f = σ.right.failure g →
      Matches view (.error f c) (.error g d)

/-- The first run has left what is shared; it may have succeeded only if `free`. -/
inductive GivenUp (free : Prop) : EStateM.Result Diagnostic Cursor α → Prop where
  | ok {a : α} {c : Cursor} : free → σ.past c → GivenUp free (.ok a c)
  | error {f : Diagnostic} {c : Cursor} : σ.Void f c → GivenUp free (.error f c)

/-- The results of two runs match, or the first has been given up. -/
def Agrees (free : Prop) (view : Marks → α → β) (r r' : EStateM.Result Diagnostic Cursor α) :
    Prop :=
  σ.Matches view r r' ∨ σ.GivenUp free r

/-- Two rules run alike: from corresponding cursors their results agree, and if they may start
where nothing is shared any more, the first run stays there. -/
structure Tracks (stage : Stage) (start free : Prop) (view : Marks → α → β) (x y : Parse α) :
    Prop where
  shared : ∀ ⦃c d⦄, σ.near stage c d → σ.Agrees free view (x c) (y d)
  past : start → ∀ ⦃c⦄, σ.past c → σ.GivenUp free (x c)

variable {σ} {stage : Stage} {start free free' : Prop} {view : Marks → α → β}
  {view' : Marks → γ → δ} {x y : Parse α} {f g : α → Parse γ} {c d : Cursor}

theorem near_fresh_of (h : σ.near stage c d) : σ.near .fresh c d := by
  cases stage with
  | fresh => exact h
  | moved => exact σ.near_fresh h

/-- At the same terminal, or where there is none, the cursors see the same lookahead. -/
theorem lookahead_eq (h : σ.near stage c d) :
    σ.past c ∨ c.ahead.head?.map Token.terminal = d.ahead.head?.map Token.terminal := by
  rcases σ.facing (near_fresh_of h) with hp | ⟨hc, hd, -⟩ | ⟨hc, hd, ht, -⟩
  · exact .inl hp
  · exact .inr (by rw [hc, hd])
  · refine .inr ?_
    rw [hc, hd, List.head?_cons, List.head?_cons, Option.map_some, Option.map_some,
      (Marks.token_eq_iff.1 ht).1]

theorem void_of_unfinished {failure : Diagnostic} (hp : σ.past c)
    (h : failure.cause.Unfinished) : σ.Void failure c :=
  .inl ⟨hp, .inr h⟩

theorem void_of_ahead {failure : Diagnostic} (hp : σ.past c) (h : c.ahead ≠ []) :
    σ.Void failure c :=
  .inl ⟨hp, .inl (σ.loose_of_past hp h)⟩

theorem GivenUp.bind (hx : σ.GivenUp free (x c))
    (hf : free → ∀ a c', σ.past c' → σ.GivenUp free' (f a c')) :
    σ.GivenUp free' ((x >>= f) c) := by
  rw [Parse.bind_run]
  generalize x c = r at hx
  cases hx with
  | ok hfree hp => exact hf hfree _ _ hp
  | error hv => exact .error hv

/-- Where the first run succeeds with what is shared, so does the second. -/
theorem Agrees.of_ok {a : α} {r : EStateM.Result Diagnostic Cursor α}
    (h : σ.Agrees free view (.ok a c) r) (hp : free → ¬σ.past c) :
    ∃ b d, r = .ok b d ∧ view σ.left a = view σ.right b ∧ σ.near .moved c d := by
  rcases h with hm | hg
  · cases hm with
    | ok hv hn => exact ⟨_, _, rfl, hv, hn⟩
  · cases hg with
    | ok hfree hpast => exact absurd hpast (hp hfree)

/-- Where the first run fails for a reason that is shared, so does the second. -/
theorem Agrees.of_error {failure : Diagnostic} {r : EStateM.Result Diagnostic Cursor α}
    (h : σ.Agrees free view (.error failure c) r) (hv : ¬σ.Void failure c) :
    ∃ failure' d, r = .error failure' d ∧ σ.left.failure failure = σ.right.failure failure' := by
  rcases h with hm | hg
  · cases hm with
    | error hf => exact ⟨_, _, rfl, hf⟩
  · cases hg with
    | error hvoid => exact absurd hvoid hv

/-- A sequence after a first part whose results agree. -/
theorem Agrees.bind (hx : σ.Agrees free view (x c) (y d))
    (hf : ∀ a b, view σ.left a = view σ.right b →
      σ.Tracks .moved free free' view' (f a) (g b)) :
    σ.Agrees free' view' ((x >>= f) c) ((y >>= g) d) := by
  rcases hx with hm | hg
  · rw [Parse.bind_run, Parse.bind_run]
    generalize x c = r at hm
    generalize y d = r' at hm
    cases hm with
    | ok hv hn => exact (hf _ _ hv).shared hn
    | error hv => exact .inl (.error hv)
  · -- the second run no longer matters, so any result will do in its place
    refine .inr (hg.bind fun hfree a c' hp => ?_)
    exact (hf a a (by rw [σ.left_eq_right hp])).past hfree hp

namespace Tracks

theorem bind (hx : σ.Tracks stage start free view x y)
    (hf : ∀ a b, view σ.left a = view σ.right b →
      σ.Tracks .moved free free' view' (f a) (g b)) :
    σ.Tracks stage start free' view' (x >>= f) (y >>= g) := by
  refine ⟨fun c d h => (hx.shared h).bind hf, fun hs c hp => ?_⟩
  refine (hx.past hs hp).bind fun hfree a c' hp' => ?_
  exact (hf a a (by rw [σ.left_eq_right hp'])).past hfree hp'

theorem mono (h : σ.Tracks stage start free view x y) (hf : free → free') :
    σ.Tracks stage start free' view x y := by
  have hgiven : ∀ r : EStateM.Result Diagnostic Cursor α, σ.GivenUp free r → σ.GivenUp free' r := by
    rintro r (⟨hfree, hp⟩ | hv)
    · exact .ok (hf hfree) hp
    · exact .error hv
  refine ⟨fun c d hn => ?_, fun hs c hp => hgiven _ (h.past hs hp)⟩
  rcases h.shared hn with hm | hg
  · exact .inl hm
  · exact .inr (hgiven _ hg)

/-- A rule that may start anywhere may start here. -/
theorem anywhere (h : σ.Tracks .fresh True free view x y) :
    σ.Tracks stage start free view x y :=
  ⟨fun _ _ hn => h.shared (near_fresh_of hn), fun _ _ hp => h.past trivial hp⟩

theorem restart (h : σ.Tracks stage True free view x y) : σ.Tracks stage start free view x y :=
  ⟨h.shared, fun _ _ hp => h.past trivial hp⟩

/-- A sequence whose first part may start anywhere. -/
theorem andThen (hx : σ.Tracks .fresh True free view x y)
    (hf : ∀ a b, view σ.left a = view σ.right b →
      σ.Tracks .moved free free' view' (f a) (g b)) :
    σ.Tracks stage start free' view' (x >>= f) (y >>= g) :=
  hx.anywhere.bind hf

theorem pure {a b : α} (h : view σ.left a = view σ.right b) (hf : start → free) :
    σ.Tracks .moved start free view (pure a) (pure b) :=
  ⟨fun _ _ hn => .inl (.ok h hn), fun hs _ hp => .ok (hf hs) hp⟩

/-- A result that is built from the place reached. -/
theorem finish {g g' : Cursor → α}
    (h : ∀ c d, σ.near .moved c d → view σ.left (g c) = view σ.right (g' d)) (hf : start → free) :
    σ.Tracks .moved start free view (get >>= fun c => Pure.pure (g c))
      (get >>= fun d => Pure.pure (g' d)) :=
  ⟨fun c d hn => .inl (.ok (h c d hn) hn), fun hs _ hp => .ok (hf hs) hp⟩

theorem nested (h : σ.Tracks stage start free view x y) :
    σ.Tracks stage start free view (Parse.nested x) (Parse.nested y) := by
  have hgiven : ∀ c, σ.GivenUp free (x c) → σ.GivenUp free (Parse.nested x c) := by
    intro c hg
    unfold Parse.nested
    generalize x c = r at hg
    cases hg with
    | ok hfree hp => exact .ok hfree hp
    | error hv =>
      exact .error (hv.imp_left fun hp => ⟨σ.past_of_suffix hp.1 ⟨[], rfl⟩, hp.2⟩)
  refine ⟨fun c d hn => ?_, fun hs c hp => hgiven c (h.past hs hp)⟩
  rcases h.shared hn with hm | hg
  · left
    unfold Parse.nested
    generalize x c = r at hm
    generalize y d = r' at hm
    cases hm with
    | ok hv hn => exact .ok hv hn
    | error hv => exact .error hv
  · exact .inr (hgiven c hg)

/-- A rule that depends on the lookahead. At the end of its tokens the first run may have come to
where nothing is shared without being allowed to go on there. -/
theorem look {f g : Cursor → Parse α}
    (h : ∀ c d, c.ahead.head?.map Token.terminal = d.ahead.head?.map Token.terminal →
      σ.Tracks stage σ.loose free view (f c) (g d))
    (hend : ∀ c, c.ahead = [] → σ.Tracks stage True free view (f c) (g c)) :
    σ.Tracks stage True free view (get >>= f) (get >>= g) := by
  have hpast : ∀ c, σ.past c → σ.GivenUp free (f c c) := by
    intro c hp
    by_cases ha : c.ahead = []
    · exact (hend c ha).past trivial hp
    · exact (h c c rfl).past (σ.loose_of_past hp ha) hp
  refine ⟨fun c d hn => ?_, fun _ c hp => hpast c hp⟩
  rcases lookahead_eq hn with hp | heq
  · exact .inr (hpast c hp)
  · exact (h c d heq).shared hn

theorem fail {e e' : Diagnostic} (hc : e.cause = e'.cause)
    (hp : σ.left.place e.position = σ.right.place e'.position) :
    σ.Tracks stage σ.loose free view (Parse.fail e) (Parse.fail e') := by
  refine ⟨fun c d _ => .inl (.error ?_), fun hl c hpast => .error (.inl ⟨hpast, .inl hl⟩)⟩
  simp [Marks.failure, hc, hp]

theorem endOfInput {expected : String} :
    σ.Tracks .moved True free view (get >>= fun c => Parse.fail (c.endOfInput expected))
      (get >>= fun d => Parse.fail (d.endOfInput expected)) := by
  refine ⟨fun c d hn => .inl (.error ?_), fun _ c hp => .error (void_of_unfinished hp trivial)⟩
  simp [Marks.failure, Cursor.endOfInput, σ.previousEnd hn]

theorem unexpected {expected : String} :
    σ.Tracks stage True free view (Parse.unexpected expected) (Parse.unexpected expected) := by
  have hpast : ∀ c, σ.past c → σ.GivenUp free (Parse.unexpected expected c :
      EStateM.Result Diagnostic Cursor α) := by
    intro c hp
    cases ha : c.ahead with
    | nil =>
      refine .error (void_of_unfinished hp ?_)
      simp [Cursor.unexpected, ha, Cursor.endOfInput, Cause.Unfinished]
    | cons token rest => exact .error (void_of_ahead hp (by simp [ha]))
  refine ⟨fun c d hn => ?_, fun _ c hp => hpast c hp⟩
  rcases σ.facing (near_fresh_of hn) with hp | ⟨hc, hd, he⟩ | ⟨hc, hd, ht, -⟩
  · exact .inr (hpast c hp)
  · refine .inl (.error ?_)
    simp [Marks.failure, Cursor.unexpected, hc, hd, Cursor.endOfInput, he]
  · refine .inl (.error ?_)
    obtain ⟨hterminal, hstart, -⟩ := Marks.token_eq_iff.1 ht
    simp [Marks.failure, Cursor.unexpected, hc, hd, (Prod.mk.inj hterminal).2, hstart]

/-- The limit on nesting, which the second run need not have reached. -/
theorem tooDeep (hy : σ.spare = 0 → y = Parse.tooDeep) :
    σ.Tracks stage True free view Parse.tooDeep y := by
  have hpast : ∀ c, σ.past c → σ.GivenUp free (Parse.tooDeep c :
      EStateM.Result Diagnostic Cursor α) :=
    fun c hp => .error (void_of_unfinished hp trivial)
  refine ⟨fun c d hn => ?_, fun _ c hp => hpast c hp⟩
  by_cases hs : σ.spare = 0
  · rw [hy hs]
    rcases σ.facing (near_fresh_of hn) with hp | ⟨hc, hd, he⟩ | ⟨hc, hd, ht, -⟩
    · exact .inr (hpast c hp)
    · refine .inl (.error ?_)
      simp [Marks.failure, Cursor.position, hc, hd, he]
    · refine .inl (.error ?_)
      simp [Marks.failure, Cursor.position, hc, hd, (Marks.token_eq_iff.1 ht).2.1]
  · exact .inr (.error (.inr ⟨Nat.pos_of_ne_zero hs, rfl⟩))

theorem peek {f g : Token → Parse α} {expected : String}
    (h : ∀ t t', σ.left.token t = σ.right.token t' →
      σ.Tracks stage σ.loose free view (f t) (g t')) :
    σ.Tracks stage True free view (Parse.peek expected >>= f) (Parse.peek expected >>= g) := by
  have hpast : ∀ c, σ.past c → σ.GivenUp free ((Parse.peek expected >>= f) c) := by
    intro c hp
    rw [Parse.bind_run]
    cases ha : c.ahead with
    | nil =>
      simp only [Parse.peek, Parse.get_bind_run, ha]
      exact .error (void_of_unfinished hp trivial)
    | cons t rest =>
      rw [Parse.peek_cons ha]
      exact (h t t (by rw [σ.left_eq_right hp])).past (σ.loose_of_past hp (by simp [ha])) hp
  refine ⟨fun c d hn => ?_, fun _ c hp => hpast c hp⟩
  rcases σ.facing (near_fresh_of hn) with hp | ⟨hc, hd, he⟩ | ⟨hc, hd, ht, -⟩
  · exact .inr (hpast c hp)
  · rw [Parse.bind_run, Parse.bind_run]
    simp only [Parse.peek, Parse.get_bind_run, hc, hd]
    refine .inl (.error ?_)
    simp [Marks.failure, Cursor.endOfInput, he]
  · rw [Parse.bind_run, Parse.bind_run, Parse.peek_cons hc, Parse.peek_cons hd]
    exact (h _ _ ht).shared hn

theorem advance : σ.Tracks stage True σ.loose Marks.token Parse.advance Parse.advance := by
  have hpast : ∀ c, σ.past c → σ.GivenUp σ.loose (Parse.advance c) := by
    intro c hp
    cases ha : c.ahead with
    | nil =>
      simp only [Parse.advance, Parse.get_bind_run, ha]
      exact .error (void_of_unfinished hp trivial)
    | cons t rest =>
      simp only [Parse.advance, Parse.get_bind_run, ha]
      refine .ok (σ.loose_of_past hp (by simp [ha])) (σ.past_of_suffix hp ?_)
      rw [ha]
      exact List.suffix_cons t rest
  refine ⟨fun c d hn => ?_, fun _ c hp => hpast c hp⟩
  rcases σ.facing (near_fresh_of hn) with hp | ⟨hc, hd, he⟩ | ⟨hc, hd, ht, hnext⟩
  · exact .inr (hpast c hp)
  · simp only [Parse.advance, Parse.get_bind_run, hc, hd]
    refine .inl (.error ?_)
    simp [Marks.failure, Cursor.endOfInput, he]
  · simp only [Parse.advance, Parse.get_bind_run, hc, hd]
    exact .inl (.ok ht hnext)

end Tracks

end Comparison

end MiniC
