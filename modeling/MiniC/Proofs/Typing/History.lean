import MiniC.Proofs.Typing.Context
import MiniC.Proofs.Typing.Steps
import Mathlib.Data.List.Induction

/-!
Names and the history of the scopes. What a name means, and whether it can be declared, follows from
the steps that have led to the scopes: from the declarations that succeeded and whose scopes no step
has closed since. The steps may be any, also ones that close more scopes than they open.
-/

namespace MiniC

open Typing

namespace Scopes

/-- The number of nested scopes that are open after a step. The global scope is not one of them, and
closing it changes nothing. -/
def Step.nest (depth : Nat) : Step → Nat
  | .block _ | .header => depth + 1
  | .declare _ => depth
  | .close => depth - 1

/-- The number of nested scopes that are open after all steps. -/
def nesting (history : List Step) : Nat :=
  history.foldl Step.nest 0

/-- A declaration that succeeded after the steps `before`, and whose scope is open to this day: as
many scopes as were open then have been open ever since. -/
structure Live (history before : List Step) (decl : VarDecl) : Prop where
  happened : before ++ [.declare decl] <+: history
  succeeded : ∃ scopes,
    (fresh.replay before).declare decl.name decl.type decl.span.start = .ok scopes
  stays : ∀ past, before <+: past → past <+: history → nesting before ≤ nesting past

/-- The most recent of the live declarations of a name. -/
structure Latest (history : List Step) (name : String) (before : List Step) (decl : VarDecl) :
    Prop where
  live : Live history before decl
  named : decl.name = name
  latest : ∀ before' decl', Live history before' decl' → decl'.name = name → before' <+: before

/-- The open scope at `depth` has the variable from a live declaration. The innermost scope is the
one at the depth of the whole history, and the global one is at depth 0. -/
def Holds (history : List Step) (depth : Nat) (name : String) (type : DataType) : Prop :=
  ∃ before decl, Live history before decl ∧ nesting before = depth ∧ decl.name = name ∧
    decl.type = type

@[simp] theorem nesting_append (history : List Step) (step : Step) :
    nesting (history ++ [step]) = step.nest (nesting history) := by
  simp [nesting]

/-! Live declarations, step by step. -/

section

variable {history before before' : List Step} {step : Step} {decl decl' : VarDecl} {depth : Nat}
  {name : String} {type : DataType}

/-- A step leaves those declarations live whose scopes it does not close, and adds its own if it is
a declaration that succeeds. -/
theorem live_append_iff : Live (history ++ [step]) before decl ↔
    (Live history before decl ∧ nesting before ≤ nesting (history ++ [step])) ∨
      (before = history ∧ step = .declare decl ∧ ∃ scopes,
        (fresh.replay history).declare decl.name decl.type decl.span.start = .ok scopes) := by
  constructor
  · rintro ⟨hpast, hok, hstays⟩
    rcases List.prefix_concat_iff.1 hpast with heq | hpast
    · obtain ⟨rfl, hstep⟩ := List.append_inj' heq rfl
      cases hstep
      exact .inr ⟨rfl, rfl, hok⟩
    · have hbefore : before <+: history := (List.prefix_append _ _).trans hpast
      have hall := List.prefix_append history [step]
      refine .inl ⟨⟨hpast, hok, fun past h h' => hstays past h (h'.trans hall)⟩, ?_⟩
      exact hstays _ (hbefore.trans hall) (List.prefix_refl _)
  · rintro (⟨⟨hpast, hok, hstays⟩, hle⟩ | ⟨rfl, rfl, hok⟩)
    · refine ⟨hpast.trans (List.prefix_append _ _), hok, fun past h h' => ?_⟩
      rcases List.prefix_concat_iff.1 h' with rfl | h'
      · exact hle
      · exact hstays past h h'
    · refine ⟨List.prefix_refl _, hok, fun past h h' => ?_⟩
      rcases List.prefix_concat_iff.1 h' with rfl | h'
      · rw [nesting_append]
        exact Nat.le_refl _
      · exact Nat.le_of_eq (congrArg nesting (h.eq_of_length_le h'.length_le))

theorem holds_append_iff : Holds (history ++ [step]) depth name type ↔
    (Holds history depth name type ∧ depth ≤ nesting (history ++ [step])) ∨
      ∃ decl, step = .declare decl ∧ nesting history = depth ∧ decl.name = name ∧
        decl.type = type ∧ ∃ scopes,
        (fresh.replay history).declare decl.name decl.type decl.span.start = .ok scopes := by
  constructor
  · rintro ⟨before, decl, hlive, rfl, hname, htype⟩
    rcases live_append_iff.1 hlive with ⟨hlive, hle⟩ | ⟨rfl, rfl, hok⟩
    · exact .inl ⟨⟨before, decl, hlive, rfl, hname, htype⟩, hle⟩
    · exact .inr ⟨decl, rfl, rfl, hname, htype, hok⟩
  · rintro (⟨⟨before, decl, hlive, rfl, hname, htype⟩, hle⟩ | ⟨decl, rfl, rfl, hname, htype, hok⟩)
    · exact ⟨before, decl, live_append_iff.2 (.inl ⟨hlive, hle⟩), rfl, hname, htype⟩
    · exact ⟨history, decl, live_append_iff.2 (.inr ⟨rfl, rfl, hok⟩), rfl, hname, htype⟩

theorem Live.before_prefix (h : Live history before decl) : before <+: history :=
  (List.prefix_append _ _).trans h.happened

/-- No scope is open deeper than the innermost one. -/
theorem Holds.depth_le (h : Holds history depth name type) : depth ≤ nesting history := by
  obtain ⟨before, decl, hlive, rfl, -⟩ := h
  exact hlive.stays history hlive.before_prefix (List.prefix_refl _)

end

/-! The frames that the steps lead to. -/

section

variable {scopes scopes' : Scopes} {name : String} {type : DataType} {position : Position}
  {frame : Frame} {rest : Context}

theorem exists_context (scopes : Scopes) : ∃ frame rest, scopes.context = frame :: rest := by
  cases h : scopes.nested with
  | nil => exact ⟨_, _, by rw [context, h]; rfl⟩
  | cons scope nested => exact ⟨_, _, by rw [context, h]; rfl⟩

/-- The last frame is that of the global scope, which stays. -/
theorem context_close (h : scopes.context = frame :: rest) :
    scopes.pop.context = if rest = [] then frame :: rest else rest := by
  cases hn : scopes.nested with
  | nil =>
    obtain ⟨-, rfl⟩ : [scopes.outermost.entries] = [frame] ∧ [] = rest := by
      simpa [context, hn] using h
    simpa [context, pop, hn] using h
  | cons scope nested =>
    obtain ⟨-, hrest⟩ : scope.entries = frame ∧ _ = rest := by simpa [context, hn] using h
    rw [if_neg (by simp [← hrest]), ← hrest]
    simp [context, pop, hn]

/-- What a declaration comes to is decided by the innermost frame. -/
theorem declare_cases (name : String) (type : DataType) (position : Position)
    (h : scopes.context = frame :: rest) :
    (frame.lookup name = none ∧ ∃ scopes', scopes.declare name type position = .ok scopes' ∧
      scopes'.context = ((name, type) :: frame) :: rest) ∨
    ((∃ found, frame.lookup name = some found) ∧
      scopes.declare name type position = .error ⟨.alreadyDeclared name, position⟩) := by
  cases hl : frame.lookup name with
  | none => exact .inl ⟨rfl, declare_of_context position h hl⟩
  | some found =>
    refine .inr ⟨⟨found, rfl⟩, ?_⟩
    obtain ⟨outermost, nested, nextHeader⟩ := scopes
    cases nested with
    | nil =>
      cases h
      simp only [declare, declareGlobal, Scope.declare, Scope.lookup, hl]
      rfl
    | cons scope nested =>
      cases h
      simp only [declare, Scope.declare, Scope.lookup, hl]
      rfl

/-- The frame at each depth has what the history says the scope there holds. -/
structure Records (history : List Step) (context : Context) : Prop where
  depth : context.length = nesting history + 1
  frames : ∀ frame outer, frame :: outer <:+ context → ∀ name type,
    frame.lookup name = some type ↔ Holds history outer.length name type

variable {history : List Step} {context : Context}

theorem Records.nil : Records [] fresh.context where
  depth := rfl
  frames := by
    intro frame outer hsuffix name type
    obtain ⟨rfl, rfl⟩ : frame = [] ∧ outer = [] := by
      simpa [Scopes.context, fresh, Scope.empty, List.suffix_cons_iff] using hsuffix
    constructor
    · intro h
      cases h
    · rintro ⟨before, decl, hlive, -⟩
      simpa using hlive.happened

/-- A step does not change what an open scope holds under a name, unless it is a declaration of the
name in that scope that succeeds. -/
theorem holds_of_unchanged {step : Step} {depth : Nat} (hle : depth ≤ nesting (history ++ [step]))
    (hstep : ∀ decl, step = .declare decl → nesting history = depth → decl.name = name →
      ∀ scopes, (fresh.replay history).declare decl.name decl.type decl.span.start ≠ .ok scopes) :
    Holds (history ++ [step]) depth name type ↔ Holds history depth name type := by
  rw [holds_append_iff]
  constructor
  · rintro (⟨h, -⟩ | ⟨decl, hdecl, hdepth, hname, -, scopes, hok⟩)
    · exact h
    · exact absurd hok (hstep decl hdecl hdepth hname scopes)
  · intro h
    exact .inl ⟨h, hle⟩

theorem Records.opened {step : Step} (h : Records history context)
    (hstep : ∀ decl, step ≠ .declare decl)
    (hnest : nesting (history ++ [step]) = nesting history + 1) :
    Records (history ++ [step]) ([] :: context) where
  depth := by rw [List.length_cons, h.depth, hnest]
  frames := by
    intro frame outer hsuffix name type
    rcases List.suffix_cons_iff.1 hsuffix with heq | hsuffix
    · cases heq
      rw [h.depth, holds_of_unchanged (Nat.le_of_eq hnest.symm)
        fun decl hdecl => absurd hdecl (hstep decl)]
      -- the new scope is deeper than all that the history knows
      constructor
      · intro hl
        cases hl
      · intro hholds
        have := hholds.depth_le
        omega
    · have hlen := hsuffix.length_le
      rw [List.length_cons, h.depth] at hlen
      rw [holds_of_unchanged (by omega) fun decl hdecl => absurd hdecl (hstep decl)]
      exact h.frames frame outer hsuffix name type

theorem Records.closed (h : Records history (frame :: rest)) :
    Records (history ++ [.close]) (if rest = [] then frame :: rest else rest) := by
  have hnest : nesting (history ++ [.close]) = nesting history - 1 := by
    rw [nesting_append]
    rfl
  have hdepth := h.depth
  rw [List.length_cons] at hdepth
  have hcontext : (if rest = [] then frame :: rest else rest) <:+ frame :: rest ∧
      (if rest = [] then frame :: rest else rest).length = nesting (history ++ [.close]) + 1 := by
    split
    · next hrest =>
      rw [hrest, List.length_nil] at hdepth
      exact ⟨List.suffix_refl _, by rw [hrest, hnest, List.length_singleton]; omega⟩
    · next hrest =>
      have hpos := List.length_pos_iff.2 hrest
      exact ⟨List.suffix_cons frame rest, by rw [hnest]; omega⟩
  refine ⟨hcontext.2, fun frame' outer hsuffix name type => ?_⟩
  have hlen := hsuffix.length_le
  rw [List.length_cons, hcontext.2] at hlen
  rw [holds_of_unchanged (by omega) (by simp)]
  exact h.frames frame' outer (hsuffix.trans hcontext.1) name type

theorem Records.refused {decl : VarDecl} (h : Records history context)
    (hfail : ∀ scopes,
      (fresh.replay history).declare decl.name decl.type decl.span.start ≠ .ok scopes) :
    Records (history ++ [.declare decl]) context where
  depth := by
    rw [h.depth, nesting_append]
    rfl
  frames := by
    intro frame outer hsuffix name type
    have hlen := hsuffix.length_le
    rw [List.length_cons, h.depth] at hlen
    have hle : outer.length ≤ nesting (history ++ [.declare decl]) := by
      rw [nesting_append]
      exact Nat.le_of_add_le_add_right hlen
    rw [h.frames frame outer hsuffix, holds_of_unchanged hle]
    intro decl' hdecl _ _
    cases hdecl
    exact hfail

theorem Records.declared {decl : VarDecl} (h : Records history (frame :: rest))
    (hok : ∃ scopes,
      (fresh.replay history).declare decl.name decl.type decl.span.start = .ok scopes)
    (hnone : frame.lookup decl.name = none) :
    Records (history ++ [.declare decl]) (((decl.name, decl.type) :: frame) :: rest) := by
  have hnest : nesting (history ++ [.declare decl]) = nesting history := by
    rw [nesting_append]
    rfl
  have hdepth : rest.length = nesting history := Nat.succ.inj h.depth
  refine ⟨by rw [hnest]; exact h.depth, fun frame' outer hsuffix name type => ?_⟩
  rcases List.suffix_cons_iff.1 hsuffix with heq | hsuffix
  · cases heq
    have hframe := h.frames frame rest (List.suffix_refl _)
    by_cases hname : name = decl.name
    · subst hname
      rw [List.lookup_cons_self, Option.some.injEq, holds_append_iff]
      constructor
      · intro htype
        exact .inr ⟨decl, rfl, hdepth.symm, rfl, htype, hok⟩
      · rintro (⟨hholds, -⟩ | ⟨decl', hdecl, -, -, htype, -⟩)
        · cases hnone.symm.trans ((hframe _ _).2 hholds)
        · cases hdecl
          exact htype
    · rw [List.lookup_cons, beq_false_of_ne hname, hdepth, holds_of_unchanged (by omega), ← hdepth]
      · exact hframe name type
      · intro decl' hdecl _ hname'
        cases hdecl
        exact absurd hname'.symm hname
  · have hlen := hsuffix.length_le
    rw [List.length_cons] at hlen
    rw [h.frames frame' outer (hsuffix.trans (List.suffix_cons frame rest)),
      holds_of_unchanged (by omega)]
    intro _ _ hdeep
    omega

theorem records (history : List Step) : Records history (fresh.replay history).context := by
  induction history using List.reverseRecOn with
  | nil => exact .nil
  | append_singleton history step ih =>
    obtain ⟨frame, rest, hcontext⟩ := exists_context (fresh.replay history)
    rw [replay_append, replay_cons, replay_nil]
    cases step with
    | block id => exact ih.opened (by simp) (nesting_append ..)
    | header => exact ih.opened (by simp) (nesting_append ..)
    | close =>
      rw [hcontext] at ih
      rw [after, context_close hcontext]
      exact ih.closed
    | declare decl =>
      rcases declare_cases decl.name decl.type decl.span.start hcontext with
        ⟨hnone, scopes, hok, hafter⟩ | ⟨-, hfail⟩
      · rw [hcontext] at ih
        simp only [after, hok, hafter]
        exact ih.declared ⟨scopes, hok⟩ hnone
      · simp only [after, hfail]
        exact ih.refused (by simp [hfail])

end

/-! What names mean. -/

section

variable {history before before' : List Step} {decl decl' : VarDecl} {name : String}
  {type : DataType} {context : Context}

/-- A name has the type from the deepest frame that has it. -/
theorem resolves_iff : Resolves name type context ↔
    ∃ frame outer, frame :: outer <:+ context ∧ frame.lookup name = some type ∧
      ∀ frame' outer', frame' :: outer' <:+ context → outer.length < outer'.length →
        frame'.lookup name = none := by
  constructor
  · intro h
    induction h with
    | @here frame outer hl =>
      refine ⟨frame, outer, List.suffix_refl _, hl, fun frame' outer' hsuffix hlt => ?_⟩
      have hle := hsuffix.length_le
      simp only [List.length_cons] at hle
      omega
    | @outer frame outer hn _ ih =>
      obtain ⟨found, below, hsuffix, hl, hdeeper⟩ := ih
      refine ⟨found, below, hsuffix.trans (List.suffix_cons _ _), hl, ?_⟩
      intro frame' outer' h' hlt
      rcases List.suffix_cons_iff.1 h' with heq | h'
      · cases heq
        exact hn
      · exact hdeeper frame' outer' h' hlt
  · rintro ⟨frame, outer, hsuffix, hl, hdeeper⟩
    induction context with
    | nil => simp at hsuffix
    | cons top rest ih =>
      rcases List.suffix_cons_iff.1 hsuffix with heq | hsuffix
      · cases heq
        exact .here hl
      · have hlt := hsuffix.length_le
        rw [List.length_cons] at hlt
        refine .outer (hdeeper top rest (List.suffix_refl _) hlt) (ih hsuffix fun f o h' => ?_)
        exact hdeeper f o (h'.trans (List.suffix_cons _ _))

/-- Of two live declarations the later one is at least as deep. -/
theorem Live.nesting_le (h : Live history before decl) (h' : Live history before' decl')
    (hle : before <+: before') : nesting before ≤ nesting before' :=
  h.stays before' hle h'.before_prefix

/-- What is live was live at any place of the history since it was declared. -/
theorem Live.at_past {past : List Step} (h : Live history before decl)
    (hmade : before ++ [.declare decl] <+: past) (hpast : past <+: history) :
    Live past before decl where
  happened := hmade
  succeeded := h.succeeded
  stays := fun place hbefore hplace => h.stays place hbefore (hplace.trans hpast)

theorem exists_suffix {depth : Nat} (h : depth < context.length) :
    ∃ frame outer, frame :: outer <:+ context ∧ outer.length = depth := by
  have hsuffix := List.drop_suffix (context.length - (depth + 1)) context
  have hlen : (context.drop (context.length - (depth + 1))).length = depth + 1 := by
    rw [List.length_drop]
    omega
  obtain ⟨frame, outer, hdrop⟩ := List.exists_cons_of_length_eq_add_one hlen
  rw [hdrop] at hsuffix hlen
  exact ⟨frame, outer, hsuffix, Nat.succ.inj hlen⟩

/-- The frame that a live declaration has put its variable into. -/
theorem Live.exists_frame (h : Live history before decl) : ∃ frame outer,
    frame :: outer <:+ (fresh.replay history).context ∧ outer.length = nesting before ∧
      frame.lookup decl.name = some decl.type := by
  have hholds : Holds history (nesting before) decl.name decl.type :=
    ⟨before, decl, h, rfl, rfl, rfl⟩
  have hlt : nesting before < nesting history + 1 := Nat.lt_succ_of_le hholds.depth_le
  rw [← (records history).depth] at hlt
  obtain ⟨frame, outer, hsuffix, hlen⟩ := exists_suffix hlt
  rw [← hlen] at hholds
  exact ⟨frame, outer, hsuffix, hlen, ((records history).frames frame outer hsuffix _ _).2 hholds⟩

/-- A declaration fails exactly when the innermost scope holds its name. -/
theorem declare_eq_error_iff {position : Position} {e : Diagnostic} :
    (fresh.replay history).declare name type position = .error e ↔
      e = ⟨.alreadyDeclared name, position⟩ ∧
        ∃ found, Holds history (nesting history) name found := by
  obtain ⟨frame, rest, hcontext⟩ := exists_context (fresh.replay history)
  have hrecords := records history
  rw [hcontext] at hrecords
  have hframe := hrecords.frames frame rest (List.suffix_refl _) name
  rw [show rest.length = nesting history from Nat.succ.inj hrecords.depth] at hframe
  simp only [← hframe]
  rcases declare_cases name type position hcontext with ⟨hnone, scopes, hok, -⟩ | ⟨hsome, hfail⟩
  · simp [hok, hnone]
  · simp [hfail, hsome, eq_comm]

/-- A scope holds a name from one declaration only. -/
theorem Live.before_eq (h : Live history before decl) (h' : Live history before' decl')
    (hname : decl.name = decl'.name) (hdepth : nesting before = nesting before')
    (hle : before <+: before') : before = before' := by
  refine hle.eq_of_length (Nat.le_antisymm hle.length_le (Nat.le_of_not_lt fun hlt => ?_))
  -- the first declaration is live at the second, which fails as it finds the name in its scope
  have hmade : before ++ [.declare decl] <+: before' := by
    refine List.prefix_of_prefix_length_le h.happened h'.before_prefix ?_
    rw [List.length_append]
    exact hlt
  have hholds : Holds before' (nesting before') decl'.name decl.type :=
    ⟨before, decl, h.at_past hmade h'.before_prefix, hdepth, hname, rfl⟩
  obtain ⟨scopes, hok⟩ := h'.succeeded
  have hfail : (fresh.replay before').declare decl'.name decl'.type decl'.span.start = .error _ :=
    declare_eq_error_iff.2 ⟨rfl, decl.type, hholds⟩
  rw [hok] at hfail
  cases hfail

/-- A name has the type of its latest live declaration. -/
theorem resolves_iff_latest : Resolves name type (fresh.replay history).context ↔
    ∃ before decl, Latest history name before decl ∧ decl.type = type := by
  rw [resolves_iff]
  constructor
  · rintro ⟨frame, outer, hsuffix, hl, hdeeper⟩
    obtain ⟨before, decl, hlive, hdepth, hname, htype⟩ :=
      ((records history).frames frame outer hsuffix name type).1 hl
    refine ⟨before, decl, ⟨hlive, hname, fun before' decl' hlive' hname' => ?_⟩, htype⟩
    rcases List.prefix_or_prefix_of_prefix hlive'.before_prefix hlive.before_prefix with hle | hle
    · exact hle
    -- a later one cannot be deeper, as no deeper frame has the name
    rcases Nat.lt_or_eq_of_le (hlive.nesting_le hlive' hle) with hlt | heq
    · obtain ⟨frame', outer', hsuffix', hlen, hl'⟩ := hlive'.exists_frame
      have hnone := hdeeper frame' outer' hsuffix' (by omega)
      rw [← hname', hl'] at hnone
      cases hnone
    · exact hlive.before_eq hlive' (hname.trans hname'.symm) heq hle ▸ List.prefix_refl before
  · rintro ⟨before, decl, ⟨hlive, rfl, hlatest⟩, rfl⟩
    obtain ⟨frame, outer, hsuffix, hlen, hl⟩ := hlive.exists_frame
    refine ⟨frame, outer, hsuffix, hl, fun frame' outer' hsuffix' hlt => ?_⟩
    cases hl' : frame'.lookup decl.name with
    | none => rfl
    | some found =>
      obtain ⟨before', decl', hlive', hdepth, hname, -⟩ :=
        ((records history).frames frame' outer' hsuffix' decl.name found).1 hl'
      have hle := hlive'.nesting_le hlive (hlatest before' decl' hlive' hname)
      omega

theorem exists_resolves {frame : Frame} {outer : Context} (hsuffix : frame :: outer <:+ context)
    (hl : frame.lookup name = some type) : ∃ found, Resolves name found context := by
  induction context with
  | nil => simp at hsuffix
  | cons top rest ih =>
    cases ht : top.lookup name with
    | some found => exact ⟨found, .here ht⟩
    | none =>
      rcases List.suffix_cons_iff.1 hsuffix with heq | hsuffix
      · cases heq
        cases ht.symm.trans hl
      · obtain ⟨found, h⟩ := ih hsuffix
        exact ⟨found, .outer ht h⟩

/-- A name is not declared exactly when it has no live declaration. -/
theorem fetch_eq_notDeclared_iff {position : Position} :
    (fresh.replay history).fetch name position = .error ⟨.notDeclared name, position⟩ ↔
      ¬∃ before decl, Live history before decl ∧ decl.name = name := by
  rw [fetch]
  cases hl : (fresh.replay history).lookup name with
  | some type =>
    obtain ⟨before, decl, hlatest, -⟩ := resolves_iff_latest.1 (lookup_eq_some_iff.1 hl)
    simpa using ⟨before, decl, hlatest.live, hlatest.named⟩
  | none =>
    refine iff_of_true rfl ?_
    rintro ⟨before, decl, hlive, rfl⟩
    obtain ⟨frame, outer, hsuffix, -, hframe⟩ := hlive.exists_frame
    obtain ⟨found, hresolves⟩ := exists_resolves hsuffix hframe
    cases hl.symm.trans (lookup_eq_some_iff.2 hresolves)

end

/-- Names follow the history of the scopes, whatever steps it is made of. A name has the type of its
latest live declaration, and is not declared if there is none. A declaration fails exactly when the
innermost scope holds a live declaration of the same name, and then no scope is changed. -/
theorem names_follow_history (history : List Step) :
    (∀ name position type, (fresh.replay history).fetch name position = .ok type ↔
      ∃ before decl, Latest history name before decl ∧ decl.type = type) ∧
    (∀ name position,
      (fresh.replay history).fetch name position = .error ⟨.notDeclared name, position⟩ ↔
        ¬∃ before decl, Live history before decl ∧ decl.name = name) ∧
    ∀ (decl : VarDecl) (e : Diagnostic),
      ((fresh.replay history).declare decl.name decl.type decl.span.start = .error e ↔
        e = ⟨.alreadyDeclared decl.name, decl.span.start⟩ ∧
          ∃ type, Holds history (nesting history) decl.name type) ∧
      ((fresh.replay history).declare decl.name decl.type decl.span.start = .error e →
        fresh.replay (history ++ [.declare decl]) = fresh.replay history) := by
  refine ⟨fun name position type => ?_, fun name position => fetch_eq_notDeclared_iff,
    fun decl e => ⟨declare_eq_error_iff, fun hfail => ?_⟩⟩
  · rw [fetch_eq_ok_iff, resolves_iff_latest]
  · rw [replay_append, replay_cons, replay_nil, after, hfail]

/-- A global variable outlives a scope that shadows it, and more closings than there are scopes; the
innermost scope refuses a second variable of the same name. -/
theorem names_follow_history_shadow :
    let span : Span := ⟨⟨7, "f"⟩, ⟨9, "f"⟩⟩
    let declare (name : String) (type : DataType) : VarDecl := ⟨name, type, none, span⟩
    let history : List Step := [.close, .declare (declare "x" .float), .block 1,
      .declare (declare "x" .string), .close, .close, .header, .declare (declare "y" .int)]
    let e : Diagnostic := ⟨.alreadyDeclared "y", ⟨7, "f"⟩⟩
    (fresh.replay history).fetch "x" span.start = .ok .float ∧
      (∃ before decl, Latest history "x" before decl ∧ decl.type = .float) ∧
      (fresh.replay history).declare "y" .string span.start = .error e ∧
      (∃ type, Holds history 1 "y" type) ∧
      fresh.replay (history ++ [.declare (declare "y" .string)]) = fresh.replay history := by
  intro span declare history e
  have hfetch : (fresh.replay history).fetch "x" span.start = .ok .float := rfl
  have hfail : (fresh.replay history).declare "y" .string span.start = .error e := rfl
  obtain ⟨hnames, -, hdeclare⟩ := names_follow_history history
  obtain ⟨hheld, hunchanged⟩ := hdeclare (declare "y" .string) e
  exact ⟨hfetch, (hnames _ _ _).1 hfetch, hfail, (hheld.1 hfail).2, hunchanged hfail⟩

end Scopes

end MiniC
