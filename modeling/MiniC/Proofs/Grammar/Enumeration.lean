import MiniC.Proofs.Grammar.Concatenation
import MiniC.Proofs.Typing.Annotation

/-!
The ids of a whole program. Checking leaves the ids that parsing has counted, so a walk through a
program, checked or not, meets its blocks in the order of their ids.
-/

namespace MiniC

open Grammar MiniC.Language

namespace Program

variable {file : String} {ts : List Token} {p : Program}

theorem blockIds_check (p : Program) : p.check.1.blockIds = p.blockIds := by
  rw [← p.check.1.blockIds_untyped, p.check_untyped, p.blockIds_untyped]

/-- A program that is checked on the way has the ids of the one that is not. -/
theorem numbered_typed (h : parse file ts = .ok p) : ∃ next, Numbered 1 p.blockIds next := by
  obtain ⟨p₀, hp₀, rfl⟩ := exists_check_eq h
  rw [blockIds_check]
  exact numbered_untyped hp₀

/-- The ids of blocks enumerate them. With fewer blocks than there are ids, the blocks that a walk
through a program meets, be they bodies or statements of their own, have the ids 1, 2, 3 and so on,
in this order, whether the program is checked or not. -/
theorem blockIds_enumerate (h : parseUntyped file ts = .ok p ∨ parse file ts = .ok p)
    (hblocks : p.blockIds.length < 2147483648) :
    p.blockIds.map Int32.toInt = (List.range' 1 p.blockIds.length).map Nat.cast := by
  obtain ⟨next, hn⟩ := h.elim numbered_untyped numbered_typed
  exact hn.map_toInt rfl (by omega)

/-- A block in the branch of an `if` before that of the `else`, and one behind both. -/
theorem blockIds_enumerate_branches :
    let ts := spell [keyword "if", operator "(", (.integer, "1"), operator ")",
      operator "\x7b", operator "\x7b", operator "\x7d", operator "\x7d", keyword "else",
      operator "\x7b", operator "\x7d", operator "\x7b", operator "\x7d"]
    ∃ p q, parseUntyped "f" ts = .ok p ∧ parse "f" ts = .ok q ∧ p.blockIds.length = 4 ∧
      q.blockIds.length = 4 ∧ p.blockIds.map Int32.toInt = [1, 2, 3, 4] ∧
      q.blockIds.map Int32.toInt = [1, 2, 3, 4] := by
  intro ts
  have hrun : (do
      let p ← (parseUntyped "f" ts).toOption
      let q ← (parse "f" ts).toOption
      return decide (p.blockIds.length = 4 ∧ q.blockIds.length = 4)) = some true := by
    decide +kernel
  simp only [Option.bind_eq_bind, Option.bind_eq_some_iff, Option.pure_def, Option.some.injEq,
    decide_eq_true_eq] at hrun
  obtain ⟨p, hp, q, hq, hplen, hqlen⟩ := hrun
  replace hp := eq_ok_of_toOption hp
  replace hq := eq_ok_of_toOption hq
  have hpids := blockIds_enumerate (.inl hp) (by omega)
  have hqids := blockIds_enumerate (.inr hq) (by omega)
  rw [hplen] at hpids
  rw [hqlen] at hqids
  exact ⟨p, q, hp, hq, hplen, hqlen, hpids, hqids⟩

end Program

end MiniC
