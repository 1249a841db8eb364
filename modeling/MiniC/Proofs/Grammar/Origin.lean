import MiniC.Proofs.Grammar.Failure
import MiniC.Proofs.Grammar.Lockstep
import MiniC.Proofs.Tree.Walk

/-!
Where nodes and errors come from. Every node of a tree starts where one of the tokens does, and has
its name from one of them; an error points to the start of a token, or, at the end of the tokens, to
the end of the last one. What a rule keeps to is followed from place to place among the tokens.
-/

namespace MiniC

open Grammar

/-- The place is one among these tokens. -/
def Cursor.Among (tokens : List Token) (c : Cursor) : Prop :=
  tokens = c.behind.reverse ++ c.ahead

namespace Cursor.Among

variable {tokens used : List Token} {c c' : Cursor} {token : Token}

theorem start (file : String) (tokens : List Token) : (Cursor.start file tokens).Among tokens :=
  rfl

theorem moved (h : c.Among tokens) (hm : c.Moved used c') : c'.Among tokens := by
  rw [Among, hm.behind, List.reverse_append, List.reverse_reverse, List.append_assoc, ← hm.ahead]
  exact h

theorem mem (h : c.Among tokens) (ht : token ∈ c.ahead) : token ∈ tokens := by
  rw [h]
  exact List.mem_append_right _ ht

/-- At the end of the tokens the one consumed last is the last of all. -/
theorem getLast? (h : c.Among tokens) (ha : c.ahead = []) :
    tokens.getLast? = c.behind.head? := by
  rw [h, ha, List.append_nil, List.getLast?_reverse]

end Cursor.Among

/-- The token that a cause speaks of. -/
def Cause.token? : Cause → Option String
  | .unrecognised token _ | .unexpected token | .unexpectedDetailed token _ | .badNumber token =>
    some token
  | _ => none

/-- An error that was found among these tokens at this place points to the start of a token, which
its cause may name, or to the end of the last one if there should be more. -/
inductive Diagnostic.Located (tokens : List Token) (c : Cursor) : Diagnostic → Prop where
  | token {cause : Cause} {token : Token} : token ∈ tokens →
      (∀ lexeme, cause.token? = some lexeme → token.lexeme = lexeme) →
      (cause.Unfinished → c.ahead ≠ []) → Located tokens c ⟨cause, token.span.start⟩
  | ended {cause : Cause} : cause.Unfinished → c.ahead = [] →
      Located tokens c ⟨cause, c.previousEnd⟩

/-- A node that starts where one of these tokens does, and whose name is one of the identifiers. -/
structure Node.Stems (tokens : List Token) (node : Node) : Prop where
  start : ∃ token ∈ tokens, node.span.start = token.span.start
  name : ∀ name, node.name? = some name →
    ∃ token ∈ tokens, token.kind = .identifier ∧ token.lexeme = name

/-- All nodes of a walk stem from these tokens. -/
def Stem (tokens : List Token) (walk : List (Nat × Node)) : Prop :=
  ∀ visited ∈ walk, visited.2.Stems tokens

section

variable {tokens : List Token} {walk walk' : List (Nat × Node)} {visited : Nat × Node}

@[simp] theorem stem_nil : Stem tokens [] := nofun

@[simp] theorem stem_cons :
    Stem tokens (visited :: walk) ↔ visited.2.Stems tokens ∧ Stem tokens walk :=
  List.forall_mem_cons

@[simp] theorem stem_append : Stem tokens (walk ++ walk') ↔ Stem tokens walk ∧ Stem tokens walk' :=
  List.forall_mem_append

/-- A node without a name of its own. -/
theorem Node.Stems.unnamed {node : Node} {token : Token} (ht : token ∈ tokens)
    (hs : node.span.start = token.span.start) (hn : node.name? = none) : node.Stems tokens :=
  ⟨⟨token, ht, hs⟩, by simp [hn]⟩

/-- A node that starts with its name. -/
theorem Node.Stems.named {node : Node} {token : Token} (ht : token ∈ tokens)
    (hs : node.span.start = token.span.start) (hk : token.kind = .identifier)
    (hn : node.name? = some token.lexeme) : node.Stems tokens :=
  ⟨⟨token, ht, hs⟩, fun _ h => ⟨token, ht, hk, Option.some.inj (hn.symm.trans h)⟩⟩

end

/-- All nodes of an expression stem from these tokens. -/
def Expr.Stems (tokens : List Token) (e : Expr) : Prop :=
  ∀ depth, Stem tokens (e.walk depth)

theorem Expr.Stems.start {tokens : List Token} {e : Expr} (h : e.Stems tokens) :
    ∃ token ∈ tokens, e.span.start = token.span.start :=
  (h 0 _ (e.mem_walk 0)).start

namespace Parse

variable {α β : Type} {tokens : List Token} {good : α → Prop} {good' : β → Prop} {c : Cursor}

/-- What a rule comes to among these tokens: something good, or an error that is located there. -/
def Within (tokens : List Token) (good : α → Prop) : EStateM.Result Diagnostic Cursor α → Prop
  | .ok a c => c.Among tokens ∧ good a
  | .error failure c => c.Among tokens ∧ failure.Located tokens c

/-- From every place among these tokens a rule comes to something good or to an error there. -/
def Keeps (tokens : List Token) (rule : Parse α) (good : α → Prop) : Prop :=
  ∀ c, c.Among tokens → Within tokens good (rule c)

theorem Within.bind {x : Parse α} {f : α → Parse β} (hx : Within tokens good (x c))
    (hf : ∀ a, good a → Keeps tokens (f a) good') : Within tokens good' ((x >>= f) c) := by
  rw [bind_run]
  cases h : x c with
  | ok a c' =>
    rw [h] at hx
    exact hf a hx.2 c' hx.1
  | error failure c' =>
    rw [h] at hx
    exact hx

namespace Keeps

variable {rule x : Parse α} {f : α → Parse β} {a : α}

theorem pure (h : good a) : Keeps tokens (Pure.pure a) good :=
  fun _ hc => ⟨hc, h⟩

theorem bind (hx : Keeps tokens x good) (hf : ∀ a, good a → Keeps tokens (f a) good') :
    Keeps tokens (x >>= f) good' :=
  fun c hc => (hx c hc).bind hf

/-- A rule whose result is put into a larger one. -/
theorem map {g : α → β} (hx : Keeps tokens x good) (hg : ∀ a, good a → good' (g a)) :
    Keeps tokens (x >>= fun a => Pure.pure (g a)) good' :=
  hx.bind fun a ha => .pure (hg a ha)

theorem get {f : Cursor → Parse β} (h : ∀ c, c.Among tokens → Within tokens good' (f c c)) :
    Keeps tokens (get >>= f) good' :=
  h

/-- A rule that ends by looking at where it has come. -/
theorem finish {g : Cursor → β} (h : ∀ c, good' (g c)) :
    Keeps tokens (MonadStateOf.get >>= fun c => Pure.pure (g c)) good' :=
  fun c hc => ⟨hc, h c⟩

theorem nested (h : Keeps tokens rule good) : Keeps tokens (nested rule) good := by
  intro c hc
  have hrule := h c hc
  unfold Parse.nested
  cases hr : rule c with
  | ok a c' =>
    rw [hr] at hrule
    exact hrule
  | error failure c' =>
    rw [hr] at hrule
    refine ⟨hrule.1, ?_⟩
    -- the place is the same, with one more level open
    cases hrule.2 with
    | token ht hn hu => exact .token ht hn hu
    | ended hu ha => exact .ended hu ha

theorem unexpected (expected : String) : Keeps tokens (unexpected expected : Parse α) good := by
  intro c hc
  refine ⟨hc, ?_⟩
  show (c.unexpected expected).Located tokens c
  cases ha : c.ahead with
  | nil =>
    rw [Cursor.unexpected, ha]
    exact .ended trivial ha
  | cons token rest =>
    rw [Cursor.unexpected, ha]
    exact .token (hc.mem (by simp [ha])) (fun _ => Option.some.inj) False.elim

theorem tooDeep : Keeps tokens (Parse.tooDeep : Parse α) good := by
  intro c hc
  refine ⟨hc, ?_⟩
  show Diagnostic.Located tokens c ⟨.tooDeep maxDepth, c.position⟩
  cases ha : c.ahead with
  | nil =>
    rw [Cursor.position, ha]
    exact .ended trivial ha
  | cons token rest =>
    rw [Cursor.position, ha]
    exact .token (hc.mem (by simp [ha])) (by simp [Cause.token?]) (by simp [ha])

theorem peek (expected : String) : Keeps tokens (peek expected) (· ∈ tokens) := by
  intro c hc
  cases h : Parse.peek expected c with
  | ok token c' =>
    obtain ⟨rfl, rest, ha⟩ := peek_ok h
    exact ⟨hc, hc.mem (by simp [ha])⟩
  | error failure c' =>
    obtain ⟨rfl, ha, rfl⟩ := peek_error h
    exact ⟨hc, .ended trivial ha⟩

theorem advance : Keeps tokens advance (· ∈ tokens) := by
  intro c hc
  cases ha : c.ahead with
  | nil =>
    simp only [Parse.advance, get_bind_run, ha]
    exact ⟨hc, .ended trivial ha⟩
  | cons token rest =>
    obtain ⟨c', hrun, hm⟩ := advance_cons ha
    rw [hrun]
    exact ⟨hc.moved hm, hc.mem (by simp [ha])⟩

theorem expectKind (kind : Token.Kind) (expected : String) :
    Keeps tokens (expectKind kind expected) fun token => token ∈ tokens ∧ token.kind = kind := by
  intro c hc
  have h : Keeps tokens (Parse.expectKind kind expected) (· ∈ tokens) := by
    refine (peek expected).bind fun token _ => ?_
    split
    · exact advance
    · exact unexpected expected
  have hc := h c hc
  cases hr : Parse.expectKind kind expected c with
  | ok token c' =>
    rw [hr] at hc
    exact ⟨hc.1, hc.2, (expectKind_ok hr).2⟩
  | error failure c' =>
    rw [hr] at hc
    exact hc

theorem expectOperator (lexeme : String) :
    Keeps tokens (expectOperator lexeme) (· ∈ tokens) := by
  refine get fun c hc => ?_
  split
  · exact advance c hc
  · exact unexpected _ c hc

theorem expectKeyword (lexeme : String) : Keeps tokens (expectKeyword lexeme) (· ∈ tokens) := by
  refine get fun c hc => ?_
  split
  · exact advance c hc
  · exact unexpected _ c hc

theorem takeId : Keeps tokens takeId fun _ => True :=
  fun _ hc => ⟨hc, trivial⟩

end Keeps

end Parse

/-! Rules for expressions. -/

namespace Grammar

open Parse

variable {tokens : List Token}

theorem atom?_stems {token : Token} {e : Expr} (ht : token ∈ tokens) (h : atom? token = some e) :
    e.Stems tokens := by
  intro depth
  unfold atom? at h
  split at h
  · obtain ⟨value, -, rfl⟩ := Option.map_eq_some_iff.1 h
    exact stem_cons.2 ⟨.unnamed ht rfl rfl, stem_nil⟩
  · obtain ⟨value, -, rfl⟩ := Option.map_eq_some_iff.1 h
    exact stem_cons.2 ⟨.unnamed ht rfl rfl, stem_nil⟩
  · cases h
    exact stem_cons.2 ⟨.unnamed ht rfl rfl, stem_nil⟩
  · next hk =>
    cases h
    exact stem_cons.2 ⟨.named ht rfl hk rfl, stem_nil⟩
  · cases h
  · cases h

theorem atom_keeps : Keeps tokens atom (Expr.Stems tokens) := by
  refine Keeps.advance.bind fun token ht => ?_
  cases h : atom? token with
  | some e => exact .pure (atom?_stems ht h)
  | none => exact fun c hc => ⟨hc, .token ht (fun _ => Option.some.inj) False.elim⟩

section

variable {group : Parse Expr} (hg : Keeps tokens group (Expr.Stems tokens))

include hg

theorem primary_keeps : Keeps tokens (primary group) (Expr.Stems tokens) := by
  refine (Keeps.peek _).bind fun token _ => ?_
  cases token.kind with
  | integer | float | string | identifier => exact atom_keeps
  | keyword => exact .unexpected _
  | operator =>
    dsimp only
    split
    · exact hg
    · exact .unexpected _

theorem unary_keeps : Keeps tokens (unary group) (Expr.Stems tokens) := by
  refine .get fun c hc => ?_
  cases c.ahead.head?.bind Token.unaryOp? with
  | none => exact primary_keeps hg c hc
  | some op =>
    refine (Keeps.advance c hc).bind fun token ht => ?_
    exact (primary_keeps hg).map fun operand ho depth => stem_cons.2 ⟨.unnamed ht rfl rfl, ho _⟩

theorem layered_keeps {fold : Level → Expr → Parse Expr}
    (hf : ∀ level left, left.Stems tokens → Keeps tokens (fold level left) (Expr.Stems tokens))
    (levels : List Level) : Keeps tokens (layered group fold levels) (Expr.Stems tokens) := by
  induction levels with
  | nil => exact unary_keeps hg
  | cons level tighter ih => exact ih.bind fun left hl => hf level left hl

end

/-- A chain of operators starts where its first operand does. -/
theorem binary_stems {left right : Expr} (op : BinaryOp) (hl : left.Stems tokens)
    (hr : right.Stems tokens) :
    (Expr.binary left op right none ⟨left.span.start, right.span.stop⟩).Stems tokens := by
  intro depth
  obtain ⟨token, ht, hs⟩ := hl.start
  have hnode : Node.Stems tokens
      (.expr (.binary left op right none ⟨left.span.start, right.span.stop⟩)) := .unnamed ht hs rfl
  simpa [Expr.walk] using ⟨hnode, hl _, hr _⟩

theorem group_fold_keeps (levels : Nat) :
    Keeps tokens (group levels) (Expr.Stems tokens) ∧
      ∀ level left, left.Stems tokens →
        Keeps tokens (fold levels level left) (Expr.Stems tokens) := by
  induction levels with
  | zero =>
    refine ⟨.tooDeep, fun level left hl => .get fun c hc => ?_⟩
    cases c.binaryOp? level with
    | none => exact ⟨hc, hl⟩
    | some op => exact Keeps.tooDeep c hc
  | succ levels ih =>
    obtain ⟨hg, hf⟩ := ih
    constructor
    · refine Keeps.nested ?_
      refine (Keeps.expectOperator _).bind fun _ _ => ?_
      refine (layered_keeps hg hf _).bind fun e he => ?_
      exact (Keeps.expectOperator _).map fun _ _ => he
    · intro level left hl
      refine .get fun c hc => ?_
      cases c.binaryOp? level with
      | none => exact ⟨hc, hl⟩
      | some op =>
        refine Keeps.nested ?_ c hc
        refine Keeps.advance.bind fun _ _ => ?_
        refine (layered_keeps hg hf _).bind fun right hr => ?_
        exact hf level _ (binary_stems op hl hr)

theorem expression_keeps (levels : Nat) : Keeps tokens (expression levels) (Expr.Stems tokens) :=
  layered_keeps (group_fold_keeps levels).1 (group_fold_keeps levels).2 _

end Grammar

end MiniC
