import MiniC.Proofs.Grammar.Lockstep

/-!
The rules for tokens and expressions run in lockstep. What a rule does next depends on the terminal
ahead and on nothing else of the cursor, so two runs whose cursors correspond take the same steps,
whatever the comparison. The second run has the spare levels of the comparison besides those of the
first.

Rules that end with a token of their own give `loose` as the condition for success past what is
shared; an expression ends where no operator follows, so it may succeed there without any.
-/

namespace MiniC

open Grammar

/-- What is decided by the terminal of the lookahead is decided alike for equal terminals. -/
theorem Token.seen_eq {γ : Type} (seen : Option Token → γ)
    (hseen : ∀ kind lexeme span span',
      seen (some ⟨kind, lexeme, span⟩) = seen (some ⟨kind, lexeme, span'⟩))
    {t t' : Option Token} (h : t.map Token.terminal = t'.map Token.terminal) :
    seen t = seen t' := by
  cases t with
  | none =>
    rw [Option.map_none, eq_comm, Option.map_eq_none_iff] at h
    rw [h]
  | some t =>
    rw [Option.map_some, eq_comm, Option.map_eq_some_iff] at h
    obtain ⟨t', rfl, ht⟩ := h
    obtain ⟨kind, lexeme, span⟩ := t
    obtain ⟨kind', lexeme', span'⟩ := t'
    cases ht
    exact hseen kind lexeme span span'

namespace Cursor

variable {c : Cursor}

theorem atOperator_nil (h : c.ahead = []) (lexeme : String) : c.atOperator lexeme = false := by
  simp [atOperator, h]

theorem atKeyword_nil (h : c.ahead = []) (lexeme : String) : c.atKeyword lexeme = false := by
  simp [atKeyword, h]

end Cursor

namespace Comparison

variable {σ : Comparison}

section Tokens

variable {c d : Cursor} (h : c.ahead.head?.map Token.terminal = d.ahead.head?.map Token.terminal)

include h

theorem atOperator_eq (lexeme : String) : c.atOperator lexeme = d.atOperator lexeme :=
  Token.seen_eq (Option.any (Token.isOperator · lexeme)) (fun _ _ _ _ => rfl) h

theorem atKeyword_eq (lexeme : String) : c.atKeyword lexeme = d.atKeyword lexeme :=
  Token.seen_eq (Option.any (Token.isKeyword · lexeme)) (fun _ _ _ _ => rfl) h

theorem unaryOp?_eq :
    c.ahead.head?.bind Token.unaryOp? = d.ahead.head?.bind Token.unaryOp? :=
  Token.seen_eq (fun t => t.bind Token.unaryOp?) (fun _ _ _ _ => rfl) h

theorem binaryOp?_eq (level : Level) : c.binaryOp? level = d.binaryOp? level :=
  Token.seen_eq (fun t => (t.bind Token.binaryOp?).filter fun op : BinaryOp => op.level = level)
    (fun _ _ _ _ => rfl) h

end Tokens

theorem expectOperator_tracks (lexeme : String) :
    σ.Tracks .fresh True σ.loose Marks.token (Parse.expectOperator lexeme)
      (Parse.expectOperator lexeme) := by
  apply Tracks.look
  · intro c d h
    rw [atOperator_eq h]
    split
    · exact Tracks.advance.anywhere
    · exact Tracks.unexpected.anywhere
  · intro c hc
    rw [Cursor.atOperator_nil hc]
    exact Tracks.unexpected

theorem expectKeyword_tracks (lexeme : String) :
    σ.Tracks .fresh True σ.loose Marks.token (Parse.expectKeyword lexeme)
      (Parse.expectKeyword lexeme) := by
  apply Tracks.look
  · intro c d h
    rw [atKeyword_eq h]
    split
    · exact Tracks.advance.anywhere
    · exact Tracks.unexpected.anywhere
  · intro c hc
    rw [Cursor.atKeyword_nil hc]
    exact Tracks.unexpected

theorem expectKind_tracks (kind : Token.Kind) (expected : String) :
    σ.Tracks .fresh True σ.loose Marks.token (Parse.expectKind kind expected)
      (Parse.expectKind kind expected) := by
  apply Tracks.peek
  rintro ⟨kind, lexeme, span⟩ ⟨kind', lexeme', span'⟩ ht
  obtain ⟨⟨rfl, rfl⟩, -⟩ := Marks.token_eq_iff.1 ht
  split
  · exact Tracks.advance.anywhere
  · exact Tracks.unexpected.anywhere

theorem atom?_token (m : Marks) (t : Token) :
    atom? (m.token t) = (atom? t).map (Expr.relabel m.relabel) := by
  obtain ⟨kind, lexeme, span⟩ := t
  cases kind <;> simp [atom?, Marks.token, Expr.relabel, Function.comp_def]

/-- How expressions of the two runs are compared. -/
abbrev exprView : Marks → Expr → Expr := fun m => Expr.relabel m.relabel

theorem exprView_span {m m' : Marks} {e e' : Expr} (h : exprView m e = exprView m' e') :
    m.span e.span = m'.span e'.span := by
  have hspan := congrArg Expr.span h
  rwa [Expr.relabel_span, Expr.relabel_span] at hspan

theorem atom_tracks : σ.Tracks .fresh True σ.loose exprView atom atom := by
  apply Tracks.advance.bind
  intro t t' ht
  have hatom : (atom? t).map (exprView σ.left) = (atom? t').map (exprView σ.right) := by
    rw [← atom?_token, ← atom?_token, ht]
  cases h : atom? t with
  | none =>
    rw [h, Option.map_none, eq_comm, Option.map_eq_none_iff] at hatom
    rw [hatom]
    obtain ⟨hterminal, hstart, -⟩ := Marks.token_eq_iff.1 ht
    exact Tracks.fail (by rw [(Prod.mk.inj hterminal).2]) hstart
  | some e =>
    rw [h, Option.map_some, eq_comm, Option.map_eq_some_iff] at hatom
    obtain ⟨e', h', he⟩ := hatom
    rw [h']
    exact Tracks.pure he.symm id

section Expressions

variable {group group' : Parse Expr} {fold fold' : Level → Expr → Parse Expr}

/-- Two rules for parentheses that run alike. -/
abbrev GroupsTrack (σ : Comparison) (group group' : Parse Expr) : Prop :=
  σ.Tracks .fresh True σ.loose exprView group group'

/-- Two rules for operator chains that run alike from expressions that are the same. -/
def FoldsTrack (σ : Comparison) (fold fold' : Level → Expr → Parse Expr) : Prop :=
  ∀ level e e', exprView σ.left e = exprView σ.right e' →
    σ.Tracks .moved True True exprView (fold level e) (fold' level e')

theorem primary_tracks (hg : σ.GroupsTrack group group') :
    σ.Tracks .fresh True σ.loose exprView (primary group) (primary group') := by
  apply Tracks.peek
  rintro ⟨kind, lexeme, span⟩ ⟨kind', lexeme', span'⟩ ht
  obtain ⟨⟨rfl, rfl⟩, -⟩ := Marks.token_eq_iff.1 ht
  cases kind with
  | integer | float | string | identifier => exact atom_tracks.anywhere
  | operator =>
    simp only
    split
    · exact hg.anywhere
    · exact Tracks.unexpected.anywhere
  | keyword => exact Tracks.unexpected.anywhere

theorem unary_tracks (hg : σ.GroupsTrack group group') :
    σ.Tracks .fresh True σ.loose exprView (unary group) (unary group') := by
  apply Tracks.look
  · intro c d h
    rw [unaryOp?_eq h]
    split
    · exact (primary_tracks hg).anywhere
    · apply Tracks.advance.andThen
      intro t t' ht
      apply (primary_tracks hg).andThen
      intro e e' he
      apply Tracks.pure _ id
      obtain ⟨-, hstart, -⟩ := Marks.token_eq_iff.1 ht
      obtain ⟨-, hstop⟩ := Marks.span_eq_iff.1 (exprView_span he)
      simp [Expr.relabel, Marks.span_eq_iff, he, hstart, hstop]
  · intro c hc
    simp only [hc, List.head?_nil, Option.bind_none]
    exact primary_tracks hg

theorem layered_tracks (hg : σ.GroupsTrack group group') (hf : σ.FoldsTrack fold fold')
    (levels : List Level) :
    σ.Tracks .fresh True True exprView (layered group fold levels)
      (layered group' fold' levels) := by
  induction levels with
  | nil => exact (unary_tracks hg).mono fun _ => trivial
  | cons level tighter ih =>
    apply ih.bind
    intro e e' he
    exact hf level e e' he

end Expressions

/-- What `fold` does at an operator. -/
def extend : (levels : Nat) → Level → Expr → BinaryOp → Parse Expr
  | 0, _, _, _ => Parse.tooDeep
  | levels + 1, level, left, op => Parse.nested do
    let _ ← Parse.advance
    let right ← layered (group levels) (fold levels) level.tighter
    fold levels level (.binary left op right none ⟨left.span.start, right.span.stop⟩)

theorem fold_eq (levels : Nat) (level : Level) (left : Expr) :
    fold levels level left = get >>= fun c =>
      match c.binaryOp? level with
      | none => pure left
      | some op => extend levels level left op := by
  cases levels <;> rfl

/-- A rule for chains runs like another if it does so at every operator. -/
theorem fold_tracks {levels levels' : Nat}
    (hx : ∀ level e e' op, exprView σ.left e = exprView σ.right e' →
      σ.Tracks .fresh True True exprView (extend levels level e op) (extend levels' level e' op)) :
    σ.FoldsTrack (fold levels) (fold levels') := by
  intro level e e' he
  rw [fold_eq, fold_eq]
  apply Tracks.look
  · intro c d h
    rw [binaryOp?_eq h]
    split
    · exact Tracks.pure he fun _ => trivial
    · exact (hx level e e' _ he).anywhere
  · intro c hc
    simp only [Cursor.binaryOp?, hc, List.head?_nil, Option.bind_none, Option.filter_none]
    exact Tracks.pure he id

/-- Parentheses and chains take their levels alike; only the spare ones of the second run are left
when the first has none. -/
theorem group_and_fold_track (levels : Nat) :
    σ.GroupsTrack (group levels) (group (levels + σ.spare)) ∧
      σ.FoldsTrack (fold levels) (fold (levels + σ.spare)) := by
  induction levels with
  | zero =>
    constructor
    · apply Tracks.tooDeep
      intro hs
      rw [hs]
      rfl
    · apply fold_tracks
      intro level e e' op he
      apply Tracks.tooDeep
      intro hs
      rw [hs]
      rfl
  | succ levels ih =>
    obtain ⟨hg, hf⟩ := ih
    have hlayers : ∀ list, σ.Tracks .moved σ.loose True exprView
        (layered (group levels) (fold levels) list)
        (layered (group (levels + σ.spare)) (fold (levels + σ.spare)) list) :=
      fun list => (layered_tracks hg hf list).anywhere
    rw [Nat.add_right_comm]
    constructor
    · apply Tracks.nested
      apply (expectOperator_tracks "(").bind
      intro _ _ _
      apply (hlayers _).bind
      intro e e' he
      apply (expectOperator_tracks ")").andThen
      intro _ _ _
      exact Tracks.pure he id
    · apply fold_tracks
      intro level left left' op hleft
      apply Tracks.nested
      apply Tracks.advance.bind
      intro _ _ _
      apply (hlayers _).bind
      intro right right' hright
      apply hf
      obtain ⟨hstart, -⟩ := Marks.span_eq_iff.1 (exprView_span hleft)
      obtain ⟨-, hstop⟩ := Marks.span_eq_iff.1 (exprView_span hright)
      simp [Expr.relabel, Marks.span_eq_iff, hleft, hright, hstart, hstop]

theorem expression_tracks (levels : Nat) :
    σ.Tracks .fresh True True exprView (expression levels) (expression (levels + σ.spare)) :=
  layered_tracks (group_and_fold_track levels).1 (group_and_fold_track levels).2 _

end Comparison

end MiniC
