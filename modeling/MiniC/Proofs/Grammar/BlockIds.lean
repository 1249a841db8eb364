import MiniC.Proofs.Grammar.LockstepStatement
import MiniC.Proofs.Tree.Walk

/-!
The ids of blocks. A block takes its id when its brace is read, before the blocks inside it, so a
walk of the tree meets the ids in the order in which they were counted. Rules without blocks leave
the count as it is, which is a comparison of a run with itself.
-/

namespace MiniC

open Grammar

/-- Below the greatest id adding does not wrap. -/
theorem toInt_add_ofNat {i : Int32} {n : Nat} (hi : 0 ≤ i.toInt) (h : i.toInt + n < 2147483648) :
    (i + Int32.ofNat n).toInt = i.toInt + n := by
  have hn : (Int32.ofNat n).toInt = n := Int32.toInt_ofNat_of_lt (by omega)
  rw [Int32.toInt_add, hn]
  apply Int.bmod_eq_of_le <;> omega

/-- Counting from one id up to another goes through these. -/
inductive Numbered : Int32 → List Int32 → Int32 → Prop where
  | nil (i : Int32) : Numbered i [] i
  | cons {i j : Int32} {ids : List Int32} : Numbered (i + 1) ids j → Numbered i (i :: ids) j

namespace Numbered

variable {i j k : Int32} {ids ids' : List Int32}

theorem none (h : j = i) : Numbered i [] j :=
  h ▸ .nil i

theorem append (h : Numbered i ids j) (h' : Numbered j ids' k) : Numbered i (ids ++ ids') k := by
  induction h with
  | nil i => exact h'
  | cons _ ih => exact .cons (ih h')

/-- The count goes up by the number of ids, wrapping like the ids do. -/
theorem stop_eq (h : Numbered i ids j) : j = i + Int32.ofNat ids.length := by
  induction h with
  | nil i => simp
  | @cons i j ids h ih =>
    rw [ih, List.length_cons, Int32.ofNat_add, Int32.add_assoc, Int32.add_comm 1]
    rfl

/-- Counting as far from the same id goes through the same ids. -/
theorem eq_of_length (h : Numbered i ids j) (h' : Numbered i ids' k)
    (hlen : ids.length = ids'.length) : ids = ids' := by
  induction h generalizing ids' with
  | nil i => exact (List.length_eq_zero_iff.1 hlen.symm).symm
  | cons _ ih =>
    cases h' with
    | nil => cases hlen
    | cons h' => rw [ih h' (Nat.succ.inj hlen)]

/-- As long as the ids do not wrap, they are the numbers from the first one on. -/
theorem map_toInt (h : Numbered i ids j) {first : Nat} (hi : i.toInt = first)
    (hlen : first + ids.length ≤ 2147483648) :
    ids.map Int32.toInt = (List.range' first ids.length).map Nat.cast := by
  induction h generalizing first with
  | nil i => rfl
  | @cons i j ids h ih =>
    rw [List.length_cons] at hlen
    rw [List.map_cons, List.length_cons, List.range'_succ, List.map_cons, hi]
    congr 1
    by_cases hnil : ids = []
    · simp [hnil]
    · have hpos := List.length_pos_iff.2 hnil
      have hnext : (i + 1).toInt = i.toInt + 1 := toInt_add_ofNat (n := 1) (by omega) (by omega)
      exact ih (by omega) (by omega)

theorem toInt_mem (h : Numbered i ids j) {first : Nat} (hi : i.toInt = first)
    (hlen : first + ids.length ≤ 2147483648) {id : Int32} (hid : id ∈ ids) :
    first ≤ id.toInt ∧ id.toInt < first + ids.length := by
  have hmem : id.toInt ∈ ids.map Int32.toInt := List.mem_map_of_mem hid
  rw [h.map_toInt hi hlen] at hmem
  obtain ⟨n, hn, hcast⟩ := List.mem_map.1 hmem
  rw [List.mem_range'_1] at hn
  omega

/-- No two are the same. -/
theorem nodup (h : Numbered i ids j) {first : Nat} (hi : i.toInt = first)
    (hlen : first + ids.length ≤ 2147483648) : ids.Nodup := by
  have hnumbers : (ids.map Int32.toInt).Pairwise (· < ·) := by
    rw [h.map_toInt hi hlen]
    exact List.pairwise_map.2 ((List.pairwise_lt_range' ..).imp Int.ofNat_lt.2)
  refine (List.pairwise_map.1 hnumbers).imp fun {id id'} hlt => ?_
  rintro rfl
  exact Int.lt_irrefl _ hlt

end Numbered

namespace Comparison

/-- Compares a run with itself, as long as the count of ids stands. -/
def still (i : Int32) : Comparison where
  spare := 0
  left := {}
  right := {}
  near _ c d := c = d ∧ c.nextId = i
  past _ := False
  loose := False
  near_fresh h := h
  facing := by
    rintro c d ⟨rfl, hi⟩
    right
    cases ha : c.ahead with
    | nil => exact .ended ha ha rfl
    | cons token rest => exact .token ha ha rfl ⟨rfl, hi⟩
  previousEnd := by
    rintro c d ⟨rfl, -⟩
    rfl
  past_of_suffix h _ := h
  loose_of_past h _ := h
  left_eq_right h := h.elim
  noElse _ h _ := h.elim

/-- A rule that runs alike in all comparisons, also those that do not follow ids, takes none. -/
theorem Tracks.keepsId {α β : Type} {free : Prop} {view : Marks → α → β} {x y : Parse α}
    {c c' : Cursor} {a : α} (h : (still c.nextId).Tracks .fresh True free view x y)
    (hx : x c = .ok a c') : c'.nextId = c.nextId := by
  have hagree := h.shared (c := c) (d := c) ⟨rfl, rfl⟩
  rw [hx] at hagree
  obtain ⟨-, -, -, -, -, hid⟩ := hagree.of_ok fun _ => id
  exact hid

end Comparison

/-- The ids of the blocks that a walk meets. -/
def blockIds (walk : List (Nat × Node)) : List Int32 :=
  walk.filterMap (·.2.blockId?)

@[simp] theorem blockIds_nil : blockIds [] = [] := rfl

@[simp] theorem blockIds_append (walk walk' : List (Nat × Node)) :
    blockIds (walk ++ walk') = blockIds walk ++ blockIds walk' :=
  List.filterMap_append

theorem blockIds_cons (depth : Nat) (node : Node) (walk : List (Nat × Node)) :
    blockIds ((depth, node) :: walk) = node.blockId?.toList ++ blockIds walk := by
  cases h : node.blockId? <;> simp [blockIds, h]

@[simp] theorem Expr.blockIds_walk (e : Expr) (depth : Nat) : blockIds (e.walk depth) = [] := by
  induction e generalizing depth with
  | integer | float | string | symbol => rfl
  | binary left op right type span ihl ihr =>
    rw [walk, List.cons_append, blockIds_cons, blockIds_append, ihl, ihr]
    rfl
  | unary op operand type span ih =>
    rw [walk, blockIds_cons, ih]
    rfl

@[simp] theorem blockIds_optional (e : Option Expr) (depth : Nat) :
    blockIds (e.toList.flatMap (·.walk depth)) = [] := by
  cases e <;> simp

/-! The ids of a statement are those of its parts, and of a block also its own. -/

section

variable (depth : Nat)

theorem Stmt.blockIds_varDecl (d : VarDecl) :
    blockIds ((Stmt.varDecl d).walk depth) = [] := by
  simp [Stmt.walk, blockIds_cons, Node.blockId?]

theorem Stmt.blockIds_assign (a : Assignment) :
    blockIds ((Stmt.assign a).walk depth) = [] := by
  simp [Stmt.walk, Assignment.walkParts, blockIds_cons, Node.blockId?]

theorem Stmt.blockIds_ret (r : Return) : blockIds ((Stmt.ret r).walk depth) = [] := by
  simp [Stmt.walk, blockIds_cons, Node.blockId?]

theorem Stmt.blockIds_ifElse (condition : Expr) (thenBody : Block) (elseBody : Option Block)
    (span : Span) :
    blockIds ((Stmt.ifElse condition thenBody elseBody span).walk depth) =
      blockIds (thenBody.walk (depth + 1)) ++ blockIds (walkElse (depth + 1) elseBody) := by
  simp [Stmt.walk, blockIds_cons, Node.blockId?]

theorem Stmt.blockIds_whileLoop (condition : Expr) (body : Block) (span : Span) :
    blockIds ((Stmt.whileLoop condition body span).walk depth) =
      blockIds (body.walk (depth + 1)) := by
  simp [Stmt.walk, blockIds_cons, Node.blockId?]

theorem Stmt.blockIds_forLoop (init : Stmt) (condition : Expr) (update : Assignment) (body : Block)
    (span : Span) :
    blockIds ((Stmt.forLoop init condition update body span).walk depth) =
      blockIds (init.walk (depth + 1)) ++ blockIds (body.walk (depth + 1)) := by
  simp [Stmt.walk, Assignment.walkParts, blockIds_cons, Node.blockId?]

theorem Stmt.blockIds_block (b : Block) :
    blockIds ((Stmt.block b).walk depth) = blockIds (b.walk depth) := by
  obtain ⟨body, id, span⟩ := b
  simp [Stmt.walk, Block.walk, blockIds_cons, Node.blockId?]

theorem Block.blockIds_walk (body : List Stmt) (id : Int32) (span : Span) :
    blockIds ((⟨body, id, span⟩ : Block).walk depth) =
        id :: blockIds (walkAll (depth + 1) body) := by
  simp [Block.walk, blockIds_cons, Node.blockId?]

end

/-- The ids of the blocks of a program, in the order of its walk. -/
def Program.blockIds (p : Program) : List Int32 :=
  MiniC.blockIds (Node.program p).walk

theorem blockIds_relabelWalk (f : Relabel) (walk : List (Nat × Node)) :
    blockIds (relabelWalk f walk) = (blockIds walk).map f.id := by
  induction walk with
  | nil => rfl
  | cons visited walk ih =>
    obtain ⟨depth, node⟩ := visited
    cases h : node.blockId? <;> simp [blockIds_cons, ih, h]

theorem Program.blockIds_relabel (f : Relabel) (p : Program) :
    (p.relabel f).blockIds = p.blockIds.map f.id := by
  rw [blockIds, p.walk_relabel, blockIds_relabelWalk, blockIds]

theorem Program.blockIds_untyped (p : Program) : (p.relabel .untyped).blockIds = p.blockIds :=
  (p.blockIds_relabel .untyped).trans (List.map_id _)

/-- A rule counts the blocks that it reads, in the order of a walk through its result. -/
def Parse.Numbers {α : Type} (rule : Parse α) (walk : Nat → α → List (Nat × Node)) : Prop :=
  ∀ ⦃c a c'⦄, rule c = .ok a c' → ∀ depth,
    Numbered c.nextId (blockIds (walk depth a)) c'.nextId

namespace Grammar

open Comparison

theorem forInit_numbers (levels : Nat) : (forInit (expression levels)).Numbers Stmt.walk := by
  intro c s c' h depth
  have hid := (forInit_tracks levels).keepsId h
  have hwalk : blockIds (s.walk depth) = [] := by
    rw [forInit, Parse.bind_ok] at h
    obtain ⟨token, c₁, -, h⟩ := h
    split at h
    · simp only [Parse.bind_ok, Parse.pure_ok] at h
      obtain ⟨d, c₂, -, rfl, -⟩ := h
      exact Stmt.blockIds_varDecl depth d
    split at h
    · simp only [Parse.bind_ok, Parse.pure_ok] at h
      obtain ⟨a, c₂, -, rfl, -⟩ := h
      exact Stmt.blockIds_assign depth a
    · simp at h
  rw [hwalk]
  exact .none hid

section

variable {levels : Nat} {block : Parse Block} (hb : block.Numbers Block.walk)

include hb

theorem elseBody_numbers : (elseBody block).Numbers walkElse := by
  intro c b c' h depth
  simp only [elseBody, Parse.get_bind_run] at h
  split at h
  · simp only [Parse.bind_ok, Parse.pure_ok] at h
    obtain ⟨token, c₁, ht, b, c₂, hrun, rfl, rfl⟩ := h
    have hid := Tracks.advance.keepsId ht
    exact hid ▸ hb hrun depth
  · cases h
    exact .nil _

theorem ifElse_numbers : (ifElse (expression levels) block).Numbers Stmt.walk := by
  intro c s c' h depth
  simp only [ifElse, Parse.bind_ok, Parse.get_bind_run, Parse.pure_ok] at h
  obtain ⟨token, c₁, ht, test, c₂, hx, thenBlock, c₃, hthen, elseBlock, c₄, helse, rfl, rfl⟩ := h
  have h₁ := (expectKeyword_tracks "if").keepsId ht
  have h₂ := (parenthesised_tracks levels).keepsId hx
  have h₃ := hb hthen (depth + 1)
  have h₄ := elseBody_numbers hb helse (depth + 1)
  rw [h₂, h₁] at h₃
  rw [Stmt.blockIds_ifElse]
  exact h₃.append h₄

theorem whileLoop_numbers : (whileLoop (expression levels) block).Numbers Stmt.walk := by
  intro c s c' h depth
  simp only [whileLoop, Parse.bind_ok, Parse.get_bind_run, Parse.pure_ok] at h
  obtain ⟨token, c₁, ht, test, c₂, hx, body, c₃, hbody, rfl, rfl⟩ := h
  have h₁ := (expectKeyword_tracks "while").keepsId ht
  have h₂ := (parenthesised_tracks levels).keepsId hx
  have h₃ := hb hbody (depth + 1)
  rw [h₂, h₁] at h₃
  rw [Stmt.blockIds_whileLoop]
  exact h₃

theorem forLoop_numbers : (forLoop (expression levels) block).Numbers Stmt.walk := by
  intro c s c' h depth
  simp only [forLoop, Parse.bind_ok, Parse.get_bind_run, Parse.pure_ok] at h
  obtain ⟨token, c₁, ht, opening, c₂, ho, init, c₃, hinit, test, c₄, hx, semi, c₅, hsemi,
    update, c₆, hu, closing, c₇, hc, body, c₈, hbody, rfl, rfl⟩ := h
  have h₁ := (expectKeyword_tracks "for").keepsId ht
  have h₂ := (expectOperator_tracks "(").keepsId ho
  have h₃ := forInit_numbers levels hinit (depth + 1)
  have h₄ := (expression_tracks levels).keepsId hx
  have h₅ := (expectOperator_tracks ";").keepsId hsemi
  have h₆ := (update_tracks levels).keepsId hu
  have h₇ := (expectOperator_tracks ")").keepsId hc
  have h₈ := hb hbody (depth + 1)
  rw [h₂, h₁] at h₃
  rw [h₇, h₆, h₅, h₄] at h₈
  rw [Stmt.blockIds_forLoop]
  exact h₃.append h₈

theorem handle_numbers (handler : Handler) :
    (handle (expression levels) block handler).Numbers Stmt.walk := by
  cases handler with
  | varDecl =>
    intro c s c' h depth
    simp only [handle, Parse.bind_ok, Parse.pure_ok] at h
    obtain ⟨d, c₁, hr, rfl, rfl⟩ := h
    rw [Stmt.blockIds_varDecl]
    exact .none ((varDecl_tracks levels).keepsId hr)
  | ifElse => exact ifElse_numbers hb
  | whileLoop => exact whileLoop_numbers hb
  | forLoop => exact forLoop_numbers hb
  | ret =>
    intro c s c' h depth
    simp only [handle, Parse.bind_ok, Parse.pure_ok] at h
    obtain ⟨r, c₁, hr, rfl, rfl⟩ := h
    rw [Stmt.blockIds_ret]
    exact .none ((ret_tracks levels).keepsId hr)
  | block =>
    intro c s c' h depth
    simp only [handle, Parse.bind_ok, Parse.pure_ok] at h
    obtain ⟨b, c₁, hr, rfl, rfl⟩ := h
    rw [Stmt.blockIds_block]
    exact hb hr depth

theorem statementWith_numbers (table : Table) :
    (statementWith table (expression levels) block).Numbers Stmt.walk := by
  intro c s c' h depth
  rw [statementWith, Parse.bind_ok] at h
  obtain ⟨token, c₁, hp, h⟩ := h
  obtain ⟨rfl, -⟩ := Parse.peek_ok hp
  cases ht : table.handler? token with
  | some handler =>
    simp only [ht] at h
    exact handle_numbers hb handler h depth
  | none =>
    simp only [ht] at h
    split at h
    · simp only [Parse.bind_ok, Parse.pure_ok] at h
      obtain ⟨a, c₂, hr, rfl, rfl⟩ := h
      rw [Stmt.blockIds_assign]
      exact .none ((assignment_tracks levels).keepsId hr)
    · simp at h

end

theorem untilBrace_numbers {statement : Parse Stmt} (hs : statement.Numbers Stmt.walk)
    (fuel : Nat) : (untilBrace statement fuel).Numbers walkAll := by
  induction fuel with
  | zero =>
    intro c body c' h depth
    simp only [untilBrace, Parse.get_bind_run] at h
    split at h
    · cases h
      exact .nil _
    · simp at h
  | succ fuel ih =>
    intro c body c' h depth
    simp only [untilBrace, Parse.get_bind_run] at h
    split at h
    · cases h
      exact .nil _
    · simp only [Parse.bind_ok, Parse.pure_ok] at h
      obtain ⟨stmt, c₁, hstmt, stmts, c₂, hstmts, rfl, rfl⟩ := h
      simpa [walkAll] using (hs hstmt depth).append (ih hstmts depth)

/-- A block counts itself before the blocks inside it. -/
theorem block_numbers (table : Table) (levels : Nat) :
    (block table levels).Numbers Block.walk := by
  induction levels with
  | zero =>
    intro c b c' h
    cases h
  | succ levels ih =>
    intro c b c' h depth
    simp only [block, braces, Parse.nested_ok, Parse.bind_ok, Parse.get_bind_run,
      Parse.pure_ok] at h
    obtain ⟨brace, c₁, hbrace, id, c₂, hid, body, c₃, hbody, closing, c₄, hc, rfl, rfl⟩ := h
    have h₁ := (expectOperator_tracks "\x7b").keepsId hbrace
    have h₃ := untilBrace_numbers (statementWith_numbers ih table) _ hbody (depth + 1)
    have h₄ := (expectOperator_tracks "\x7d").keepsId hc
    cases hid
    have hcons := Numbered.cons h₃
    rw [← h₄] at hcons
    rw [Block.blockIds_walk, ← h₁]
    exact hcons

theorem Completes.numbered {levels : Nat} {c c' : Cursor} {stmts : List Stmt}
    (h : Completes levels c stmts c') (depth : Nat) :
    Numbered c.nextId (blockIds (walkAll depth stmts)) c'.nextId := by
  induction h with
  | nil c => exact .nil _
  | cons hs _ ih =>
    have hstmt := statementWith_numbers (block_numbers .standard levels) .standard hs depth
    simpa [walkAll] using hstmt.append ih

end Grammar

end MiniC
