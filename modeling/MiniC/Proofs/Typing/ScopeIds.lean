import MiniC.Proofs.Grammar.Concatenation
import MiniC.Proofs.Typing.Steps

/-!
The ids of scopes. A check enters each block of the tree at most once, under the id that the parser
has counted for it, and numbers the headers of `for` loops downward from `-1`. As every `for` has a
block of its own, there are fewer headers than ids below zero, and no two scopes get the same id.
-/

namespace MiniC

open Scopes (Step)

namespace Scopes

/-- The id of the block whose scope a step opens. -/
def Step.blockId? : Step → Option Int32
  | .block id => some id
  | _ => none

/-- The ids of the blocks that are entered, in order. -/
def entered (steps : List Step) : List Int32 :=
  steps.filterMap Step.blockId?

@[simp] theorem entered_nil : entered [] = [] := rfl

theorem entered_cons (step : Step) (steps : List Step) :
    entered (step :: steps) = step.blockId?.toList ++ entered steps := by
  cases h : step.blockId? <;> simp [entered, h]

@[simp] theorem entered_append (steps steps' : List Step) :
    entered (steps ++ steps') = entered steps ++ entered steps' :=
  List.filterMap_append

/-- Whether a step opens the scope of a `for` header. -/
def Step.isHeader : Step → Bool
  | .header => true
  | _ => false

/-- The id of the scope that a step opens, if it opens one. -/
def openedBy? (scopes : Scopes) (step : Step) : Option Int32 :=
  match step with
  | .block _ | .header => some (scopes.after step).innermost.id
  | .declare _ | .close => none

/-- A block's scope has the id of the block. -/
@[simp] theorem openedBy?_block (scopes : Scopes) (id : Int32) :
    scopes.openedBy? (.block id) = some id := rfl

@[simp] theorem openedBy?_header (scopes : Scopes) :
    scopes.openedBy? .header = some scopes.nextHeader := rfl

/-- The ids under which steps open scopes, in order. -/
def opened (scopes : Scopes) : List Step → List Int32
  | [] => []
  | step :: steps => (scopes.openedBy? step).toList ++ (scopes.after step).opened steps

/-- The ids of all open scopes, innermost first and the global one last. -/
def openIds (scopes : Scopes) : List Int32 :=
  (scopes.nested ++ [scopes.outermost]).map Scope.id

end Scopes

/-! The blocks that are entered, and the headers among them. -/

/-- Steps enter blocks of these ids in this order, some perhaps not, and there are more blocks than
headers by at least `spare`. -/
structure Enters (steps : List Step) (ids : List Int32) (spare : Int) : Prop where
  blocks : (Scopes.entered steps).Sublist ids
  headers : steps.countP Step.isHeader + spare ≤ ids.length

theorem Enters.append {steps steps' : List Step} {ids ids' : List Int32} {spare spare' : Int}
    (h : Enters steps ids spare) (h' : Enters steps' ids' spare') :
    Enters (steps ++ steps') (ids ++ ids') (spare + spare') where
  blocks := by
    rw [Scopes.entered_append]
    exact h.blocks.append h'.blocks
  headers := by
    have := h.headers
    have := h'.headers
    rw [List.countP_append, List.length_append]
    omega

/-- From one record to a later one the steps enter blocks of these ids, with so many to spare. -/
def Scopes.Recorded.Grows {start : Scopes} (r r' : Recorded start) (ids : List Int32)
    (spare : Int) : Prop :=
  ∃ steps, r'.steps = r.steps ++ steps ∧ Enters steps ids spare

namespace Scopes.Recorded

variable {start : Scopes} {r r' r'' : Recorded start} {ids ids' : List Int32} {spare spare' : Int}

namespace Grows

/-- Blocks that no step enters are all to spare. -/
theorem refl (r : Recorded start) (ids : List Int32) : r.Grows r ids ids.length :=
  ⟨[], (List.append_nil _).symm, List.nil_sublist ids, by simp⟩

theorem trans (h : r.Grows r' ids spare) (h' : r'.Grows r'' ids' spare') :
    r.Grows r'' (ids ++ ids') (spare + spare') := by
  obtain ⟨steps, hsteps, henters⟩ := h
  obtain ⟨steps', hsteps', henters'⟩ := h'
  exact ⟨steps ++ steps', by rw [hsteps', hsteps, List.append_assoc], henters.append henters'⟩

theorem weaken (h : r.Grows r' ids spare) (hle : spare' ≤ spare) : r.Grows r' ids spare' := by
  obtain ⟨steps, hsteps, hblocks, hheaders⟩ := h
  exact ⟨steps, hsteps, hblocks, by omega⟩

/-- A check that stops has blocks before it that it does not enter. -/
theorem stop (h : r.Grows r' ids spare) (ids' : List Int32) :
    r.Grows r' (ids ++ ids') (spare + ids'.length) :=
  h.trans (refl r' ids')

theorem none (r : Recorded start) (ids : List Int32) : r.Grows r ids 0 :=
  (refl r ids).weaken (Int.natCast_nonneg _)

/-! The operations on a record, one by one. -/

theorem push (r : Recorded start) (id : Int32) : r.Grows (Scoping.push r id) [id] 1 :=
  ⟨[.block id], rfl, List.Sublist.refl _, Int.le_refl 1⟩

/-- A header takes up a block that is to spare. -/
theorem pushHeader (r : Recorded start) : r.Grows (Scoping.pushHeader r) [] (-1) :=
  ⟨[.header], rfl, List.Sublist.refl _, Int.le_refl 0⟩

theorem close (h : r.Grows r' ids spare) : r.Grows (Scoping.pop r') ids spare := by
  have hclose : r'.Grows (Scoping.pop r') [] 0 :=
    ⟨[.close], rfl, List.Sublist.refl _, Int.le_refl 0⟩
  simpa using h.trans hclose

theorem declare {d : VarDecl} (h : Scoping.declare r d = .ok r') : r.Grows r' [] 0 := by
  change r.declare d = .ok r' at h
  unfold Recorded.declare at h
  split at h
  · cases h
  · cases h
    exact ⟨[.declare d], rfl, List.Sublist.refl _, Int.le_refl 0⟩

end Grows

end Scopes.Recorded

/-! The steps of a check, along the recursion of the check. -/

section

open Scopes (Recorded)

variable {start : Scopes}

/-- A block has an id of its own. -/
theorem Block.one_le_blockIds (block : Block) (depth : Nat) :
    1 ≤ (blockIds (block.walk depth)).length := by
  obtain ⟨body, id, span⟩ := block
  rw [Block.blockIds_walk]
  exact Nat.succ_le_succ (Nat.zero_le _)

theorem VarDecl.check_grows (r : Recorded start) (d : VarDecl) :
    r.Grows (d.check r).scopes [] 0 := by
  obtain ⟨name, type, init, span⟩ := d
  cases init with
  | none =>
    simp only [check]
    cases hd : Scoping.declare r (⟨name, type, none, span⟩ : VarDecl) with
    | error e => exact .none r []
    | ok r' => exact .declare hd
  | some init =>
    simp only [check]
    rcases init.check r with ⟨init', e | initType⟩
    · exact .none r []
    dsimp only
    cases type.checkAccepts initType init'.span.start with
    | error e => exact .none r []
    | ok _ =>
      cases hd : Scoping.declare r (⟨name, type, some init', span⟩ : VarDecl) with
      | error e => exact .none r []
      | ok r' => exact .declare hd

mutual

theorem Stmt.check_grows (stmt : Stmt) (r : Recorded start) (depth : Nat) :
    r.Grows (stmt.check r).scopes (blockIds (stmt.walk depth)) 0 := by
  cases stmt with
  | varDecl d =>
    rw [Stmt.blockIds_varDecl]
    exact d.check_grows r
  | assign a => exact .none r _
  | ifElse condition thenBody elseBody span =>
    have hthen := thenBody.check_grows r (depth + 1)
    rw [Stmt.blockIds_ifElse, Stmt.check]
    rcases condition.check r with ⟨condition', e | _⟩
    · exact .none r _
    dsimp only
    rcases ht : thenBody.check r with ⟨thenBody', r₁, e | _⟩ <;> rw [ht] at hthen
    · exact (hthen.stop _).weaken (by omega)
    · exact (hthen.trans (checkElse_grows elseBody r₁ (depth + 1))).weaken (by decide)
  | whileLoop condition body span =>
    rw [Stmt.blockIds_whileLoop, Stmt.check]
    rcases condition.check r with ⟨condition', e | _⟩
    · exact .none r _
    · exact (body.check_grows r (depth + 1)).weaken (by decide)
  | forLoop init condition update body span =>
    have hinit := (Recorded.Grows.pushHeader r).trans
      (init.check_grows (Scoping.pushHeader r) (depth + 1))
    -- the block of the body pays for the header, also where the check stops before it
    have hpays := body.one_le_blockIds (depth + 1)
    rw [Stmt.blockIds_forLoop, Stmt.check]
    rcases hi : init.check (Scoping.pushHeader r) with ⟨init', r₁, e | _⟩ <;> rw [hi] at hinit
    · exact (hinit.stop _).close.weaken (by omega)
    dsimp only
    rcases condition.check r₁ with ⟨condition', e | _⟩
    · exact (hinit.stop _).close.weaken (by omega)
    dsimp only
    rcases update.check r₁ with ⟨update', e | _⟩
    · exact (hinit.stop _).close.weaken (by omega)
    · exact (hinit.trans (body.check_grows r₁ (depth + 1))).close.weaken (by decide)
  | ret r => exact .none _ _
  | block b =>
    rw [Stmt.blockIds_block]
    exact (b.check_grows r depth).weaken (by decide)
termination_by structural stmt

theorem checkElse_grows (block : Option Block) (r : Recorded start) (depth : Nat) :
    r.Grows (checkElse r block).scopes (blockIds (walkElse depth block)) 0 := by
  cases block with
  | none => exact .none r _
  | some b => exact (b.check_grows r depth).weaken (by decide)
termination_by structural block

theorem Block.check_grows (block : Block) (r : Recorded start) (depth : Nat) :
    r.Grows (block.check r).scopes (blockIds (block.walk depth)) 1 := by
  obtain ⟨body, id, span⟩ := block
  rw [Block.blockIds_walk]
  exact ((Recorded.Grows.push r id).trans
    (checkAll_grows body (Scoping.push r id) (depth + 1))).close
termination_by structural block

theorem checkAll_grows (stmts : List Stmt) (r : Recorded start) (depth : Nat) :
    r.Grows (checkAll r stmts).scopes (blockIds (walkAll depth stmts)) 0 := by
  cases stmts with
  | nil => exact .none r _
  | cons stmt stmts =>
    have hstmt := stmt.check_grows r depth
    rw [walkAll, blockIds_append, checkAll]
    rcases hs : stmt.check r with ⟨stmt', r₁, e | _⟩ <;> rw [hs] at hstmt
    · exact (hstmt.stop _).weaken (by omega)
    · exact hstmt.trans (checkAll_grows stmts r₁ depth)
termination_by structural stmts

end

end

theorem Program.steps_enters (p : Program) : Enters p.steps p.blockIds 0 := by
  obtain ⟨steps, hsteps, henters⟩ := checkAll_grows p.body (Scopes.recorded .fresh) 1
  have hall : p.steps = steps := hsteps
  simpa [hall, blockIds, Node.walk, blockIds_cons, Node.blockId?] using henters

/-! The ids that are opened. -/

namespace Scopes

variable {scopes : Scopes} {steps : List Step}

theorem opened_append (scopes : Scopes) (steps steps' : List Step) :
    scopes.opened (steps ++ steps') =
      scopes.opened steps ++ (scopes.replay steps).opened steps' := by
  induction steps generalizing scopes with
  | nil => rfl
  | cons step steps ih => simp [opened, ih]

/-- A scope keeps its id when a variable is declared in it. -/
theorem after_declare (scopes : Scopes) (decl : VarDecl) :
    (scopes.after (.declare decl)).openIds = scopes.openIds ∧
      (scopes.after (.declare decl)).outermost.id = scopes.outermost.id ∧
      (scopes.after (.declare decl)).nextHeader = scopes.nextHeader := by
  obtain ⟨outermost, nested, nextHeader⟩ := scopes
  cases nested with
  | nil =>
    simp only [after, declare, declareGlobal, Scope.declare]
    cases (outermost.lookup decl.name).isSome <;> exact ⟨rfl, rfl, rfl⟩
  | cons scope nested =>
    simp only [after, declare, Scope.declare]
    cases (scope.lookup decl.name).isSome <;> exact ⟨rfl, rfl, rfl⟩

/-- One step leaves the ids of open scopes as they were, or adds the one that it opens, or takes one
away. -/
theorem openIds_after (scopes : Scopes) (step : Step) :
    (scopes.after step).openIds.Sublist ((scopes.openedBy? step).toList ++ scopes.openIds) := by
  cases step with
  | block | header => exact List.Sublist.refl _
  | declare decl =>
    rw [(scopes.after_declare decl).1]
    exact List.Sublist.refl _
  | close =>
    have htail := ((List.tail_sublist scopes.nested).append_right [scopes.outermost]).map Scope.id
    simpa [after, pop, openIds, openedBy?] using htail

/-- All scopes that are open after some steps were open before them or have been opened by them. -/
theorem openIds_replay (scopes : Scopes) (steps : List Step) :
    (scopes.replay steps).openIds.Sublist ((scopes.opened steps).reverse ++ scopes.openIds) := by
  induction steps generalizing scopes with
  | nil => exact List.Sublist.refl _
  | cons step steps ih =>
    have hstep := (openIds_after scopes step).append_left
      ((scopes.after step).opened steps).reverse
    have hopened : (scopes.openedBy? step).toList.reverse = (scopes.openedBy? step).toList := by
      cases scopes.openedBy? step <;> rfl
    rw [replay_cons, opened, List.reverse_append, hopened, List.append_assoc]
    exact (ih _).trans hstep

theorem outermost_replay (scopes : Scopes) (steps : List Step) :
    (scopes.replay steps).outermost.id = scopes.outermost.id := by
  induction steps generalizing scopes with
  | nil => rfl
  | cons step steps ih =>
    rw [replay_cons, ih]
    cases step with
    | block | header | close => rfl
    | declare decl => exact (scopes.after_declare decl).2.1

/-! The ids of headers count down, as long as there are ids left below. -/

/-- Above the least id subtracting does not wrap. -/
theorem toInt_sub_one {i : Int32} (h : -2147483648 < i.toInt) : (i - 1).toInt = i.toInt - 1 := by
  have hle := i.toInt_lt
  have hone : (1 : Int32).toInt = 1 := rfl
  rw [Int32.toInt_sub, hone]
  apply Int.bmod_eq_of_le <;> omega

/-- There are ids below zero for so many headers. -/
def Room (scopes : Scopes) (steps : List Step) : Prop :=
  scopes.nextHeader.toInt < 0 ∧
    (steps.countP Step.isHeader : Int) ≤ scopes.nextHeader.toInt + 2147483648

theorem Room.nextHeader_after {step : Step} (h : scopes.Room (step :: steps)) :
    (scopes.after step).nextHeader.toInt + [step].countP Step.isHeader =
      scopes.nextHeader.toInt := by
  cases step with
  | block | close => exact Int.add_zero _
  | declare decl =>
    rw [(scopes.after_declare decl).2.2]
    exact Int.add_zero _
  | header =>
    obtain ⟨hneg, hroom⟩ := h
    rw [List.countP_cons_of_pos rfl] at hroom
    have hnext : (scopes.nextHeader - 1).toInt = scopes.nextHeader.toInt - 1 :=
      toInt_sub_one (by omega)
    show (scopes.nextHeader - 1).toInt + 1 = _
    omega

theorem Room.after {step : Step} (h : scopes.Room (step :: steps)) :
    (scopes.after step).Room steps := by
  have hnext := h.nextHeader_after
  obtain ⟨hneg, hroom⟩ := h
  have hcount : ([step] ++ steps).countP Step.isHeader =
      [step].countP Step.isHeader + steps.countP Step.isHeader := List.countP_append
  rw [List.singleton_append] at hcount
  exact ⟨by omega, by omega⟩

/-- An id that is opened is that of a block or of a header still to come. -/
theorem Room.mem_opened (h : scopes.Room steps) {id : Int32} (hid : id ∈ scopes.opened steps) :
    id ∈ entered steps ∨ id.toInt ≤ scopes.nextHeader.toInt := by
  induction steps generalizing scopes with
  | nil => cases hid
  | cons step steps ih =>
    have hnext := h.nextHeader_after
    rw [opened, List.mem_append] at hid
    rw [entered_cons, List.mem_append]
    rcases hid with hid | hid
    · cases step with
      | block => exact .inl (.inl hid)
      | header =>
        obtain rfl := List.mem_singleton.1 hid
        exact .inr (Int.le_refl _)
      | declare | close => cases hid
    · rcases ih h.after hid with hblock | hheader
      · exact .inl (.inr hblock)
      · exact .inr (by omega)

/-- No id is opened twice, if blocks are entered under ids that are positive and all different. -/
theorem Room.nodup_opened (h : scopes.Room steps) (hnodup : (entered steps).Nodup)
    (hpos : ∀ id ∈ entered steps, 0 < id.toInt) : (scopes.opened steps).Nodup := by
  induction steps generalizing scopes with
  | nil => exact List.nodup_nil
  | cons step steps ih =>
    have hneg := h.1
    have hnext := h.nextHeader_after
    cases step with
    | declare | close => exact ih h.after hnodup hpos
    | block id =>
      obtain ⟨hnew, hnodup⟩ := List.nodup_cons.1 hnodup
      have hid : 0 < id.toInt := hpos id List.mem_cons_self
      have hrest := ih h.after hnodup fun id hid => hpos id (List.mem_cons_of_mem _ hid)
      rw [opened, openedBy?_block]
      refine List.nodup_cons.2 ⟨fun hmem => ?_, hrest⟩
      rcases h.after.mem_opened hmem with hblock | hheader
      · exact hnew hblock
      · omega
    | header =>
      rw [List.countP_cons_of_pos rfl] at hnext
      rw [opened, openedBy?_header]
      refine List.nodup_cons.2 ⟨fun hmem => ?_, ih h.after hnodup hpos⟩
      rcases h.after.mem_opened hmem with hblock | hheader
      · have := hpos _ hblock
        omega
      · omega

theorem Room.replay {steps' : List Step} (h : scopes.Room (steps ++ steps')) :
    (scopes.replay steps).Room steps' := by
  induction steps generalizing scopes with
  | nil => exact h
  | cons step steps ih => exact ih h.after

end Scopes

namespace Program

open MiniC.Language Scopes

variable {file : String} {ts : List Token} {p : Program}

/-- With fewer blocks than there are ids, they are numbered by different positive ids. -/
theorem blockIds_pos (h : parseUntyped file ts = .ok p) (hblocks : p.blockIds.length < 2147483648) :
    p.blockIds.Nodup ∧ ∀ id ∈ p.blockIds, 0 < id.toInt := by
  obtain ⟨next, hn⟩ := numbered_untyped h
  have hone : (1 : Int32).toInt = (1 : Nat) := rfl
  refine ⟨hn.nodup hone (by omega), fun id hid => ?_⟩
  have hbounds := hn.toInt_mem hone (by omega) hid
  omega

/-- There are ids below zero for the headers of a program, as each has a block. -/
theorem room (hblocks : p.blockIds.length < 2147483648) : Scopes.fresh.Room p.steps := by
  have hheaders := p.steps_enters.headers
  have hfresh : Scopes.fresh.nextHeader.toInt = -1 := rfl
  exact ⟨by omega, by omega⟩

/-- No two scopes get the same id. The steps of a check are recorded as it runs, and the record
changes nothing in it. In the check of a program as it was parsed, with fewer blocks than there are
ids, all scopes are opened under different ids, and none under that of the global scope: blocks
under positive ones and headers of `for` loops under negative ones. So at any time the scopes that
are open have different ids, the global one 0. -/
theorem check_scopes_distinct (h : parseUntyped file ts = .ok p)
    (hblocks : p.blockIds.length < 2147483648) :
    (checkAll (recorded .fresh) p.body).map Recorded.scopes = checkAll Scopes.fresh p.body ∧
    Scopes.fresh.replay p.steps = (checkAll Scopes.fresh p.body).scopes ∧
    (Scopes.fresh.opened p.steps).Nodup ∧ 0 ∉ Scopes.fresh.opened p.steps ∧
    (∀ id, .block id ∈ p.steps → 0 < id.toInt) ∧
    (∀ before after, p.steps = before ++ .header :: after →
      (Scopes.fresh.replay before).nextHeader.toInt < 0) ∧
    (∀ before after, p.steps = before ++ after →
      (Scopes.fresh.replay before).outermost.id = 0 ∧
        (Scopes.fresh.replay before).openIds.Nodup) := by
  obtain ⟨hdistinct, hpos⟩ := blockIds_pos h hblocks
  have hroom := room hblocks
  have hentered := p.steps_enters.blocks
  have hblock : ∀ id ∈ entered p.steps, 0 < id.toInt := fun id hid =>
    hpos id (hentered.subset hid)
  have hopened : (Scopes.fresh.opened p.steps).Nodup :=
    hroom.nodup_opened (hdistinct.sublist hentered) hblock
  have hzero : 0 ∉ Scopes.fresh.opened p.steps := by
    intro hid
    rcases hroom.mem_opened hid with hid | hid
    · exact absurd (hblock 0 hid) (by decide)
    · exact absurd hid (by decide)
  have hsame := (checkAll_hom (Recorded.hom .fresh) p.body (recorded .fresh)).symm
  have hreplay : Scopes.fresh.replay p.steps = (checkAll Scopes.fresh p.body).scopes :=
    (Recorded.replay_steps _).trans (congrArg Checked.scopes hsame)
  refine ⟨hsame, hreplay, hopened, hzero, ?_, ?_, ?_⟩
  · intro id hid
    exact hblock id (List.mem_filterMap.2 ⟨.block id, hid, rfl⟩)
  · intro before after hsteps
    rw [hsteps] at hroom
    exact hroom.replay.1
  · intro before after hsteps
    refine ⟨outermost_replay .fresh before, ?_⟩
    -- what is open now has been opened before, or is the global scope
    have hopen := openIds_replay .fresh before
    rw [hsteps, opened_append] at hopened hzero
    have hbefore : (Scopes.fresh.opened before).reverse.Nodup :=
      List.pairwise_reverse.2 ((List.nodup_append.1 hopened).1.imp Ne.symm)
    have hall : ((Scopes.fresh.opened before).reverse ++ [0]).Nodup := by
      refine List.nodup_append.2 ⟨hbefore, List.pairwise_singleton _ 0, ?_⟩
      rintro id hid _ hmem rfl
      obtain rfl := List.mem_singleton.1 hmem
      exact hzero (List.mem_append_left _ (List.mem_reverse.1 hid))
    exact hall.sublist hopen

/-- A block with a `for` in it: the scope of the header comes between those of the two blocks. -/
theorem check_scopes_distinct_loop :
    let i : Terminal := (.identifier, "i")
    let ts := spell [operator "\x7b", keyword "for", operator "(", keyword "int", i, operator ";",
      i, operator ";", i, operator "=", i, operator ")", operator "\x7b", operator "\x7d",
      operator "\x7d"]
    ∃ p, parseUntyped "f" ts = .ok p ∧ p.blockIds.length < 2147483648 ∧
      Scopes.fresh.opened p.steps = [1, -1, 2] ∧ (Scopes.fresh.opened p.steps).Nodup := by
  intro i ts
  have hrun : (parseUntyped "f" ts).toOption.map
      (fun p => (p.blockIds.length, Scopes.fresh.opened p.steps)) = some (2, [1, -1, 2]) := by
    decide +kernel
  cases h : parseUntyped "f" ts with
  | error e => simp [h, Except.toOption] at hrun
  | ok p =>
    simp only [h, Except.toOption, Option.map_some, Option.some.injEq, Prod.mk.injEq] at hrun
    have hblocks : p.blockIds.length < 2147483648 := by omega
    exact ⟨p, rfl, hblocks, hrun.2, (check_scopes_distinct h hblocks).2.2.1⟩

end Program

end MiniC
