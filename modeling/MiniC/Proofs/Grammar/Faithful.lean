import MiniC.Proofs.Grammar.Concatenation
import MiniC.Proofs.Grammar.Interleaving
import MiniC.Proofs.Grammar.OriginStatement
import MiniC.Proofs.Token.Place
import MiniC.Proofs.Tree.Outline
import MiniC.Proofs.Typing.Annotation

/-!
Outlines are faithful: a program that was made from a source is told by its outline, up to the
places of its nodes.
-/

namespace MiniC

open Grammar Token

/-! The ids of blocks do not show, but which nodes are blocks does. -/

theorem Node.isSome_blockId? (node : Node) : node.blockId?.isSome = (node.tag == .block) := by
  cases node with
  | program | block | assignment => rfl
  | stmt stmt => cases stmt <;> rfl
  | expr e => cases e <;> rfl

theorem length_blockIds (walk : List (Nat × Node)) :
    (blockIds walk).length = (faces walk).countP fun shown => shown.2.tag == .block := by
  rw [blockIds, List.length_filterMap_eq_countP, faces, List.countP_map]
  exact List.countP_congr fun visited _ => by simp [Node.isSome_blockId?, Node.face]

/-- Nodes that look alike in an outline look alike if their blocks have the same ids. -/
theorem looks_eq {walk walk' : List (Nat × Node)} (h : faces walk = faces walk')
    (hids : blockIds walk = blockIds walk') : looks walk = looks walk' := by
  induction walk generalizing walk' with
  | nil =>
    obtain rfl : walk' = [] := List.map_eq_nil_iff.1 h.symm
    rfl
  | cons visited walk ih =>
    obtain ⟨depth, node⟩ := visited
    cases walk' with
    | nil => cases h
    | cons visited' walk' =>
      obtain ⟨depth', node'⟩ := visited'
      obtain ⟨hhead, htail⟩ := List.cons.inj h
      injection hhead with hdepth hface
      obtain rfl : depth = depth' := hdepth
      replace hface : node.face = node'.face := hface
      have hsome : node.blockId?.isSome = node'.blockId?.isSome := by
        rw [node.isSome_blockId?, node'.isSome_blockId?]
        exact congrArg (fun face => face.tag == .block) hface
      rw [blockIds_cons, blockIds_cons] at hids
      have hid : node.blockId? = node'.blockId? ∧ blockIds walk = blockIds walk' := by
        cases hn : node.blockId? <;> cases hn' : node'.blockId? <;> simp_all
      rw [looks_cons, looks_cons, Node.look, Node.look, hface, hid.1, ih htail hid.2]

namespace Program

variable {p q : Program}

/-- The programs that sources come to: not checked, checked on the way, or checked afterwards, as
far as the check came. -/
inductive Obtained : Program → Prop where
  | untyped {file name source : String} {ts : List Token} {p : Program} :
      scan file source = .ok ts → parseUntyped name ts = .ok p → Obtained p
  | typed {file name source : String} {ts : List Token} {p : Program} :
      scan file source = .ok ts → parse name ts = .ok p → Obtained p
  | checked {file name source : String} {ts : List Token} {p : Program} :
      scan file source = .ok ts → parseUntyped name ts = .ok p → Obtained p.check.1

/-- Up to types, what is obtained from a source is a program that was not checked. -/
theorem Obtained.exists_untyped (h : p.Obtained) :
    ∃ file name source ts p₀, scan file source = .ok ts ∧ parseUntyped name ts = .ok p₀ ∧
      p.relabel .untyped = p₀.relabel .untyped := by
  cases h with
  | untyped hs hp => exact ⟨_, _, _, _, p, hs, hp, rfl⟩
  | typed hs hp =>
    obtain ⟨p₀, hp₀, rfl⟩ := exists_check_eq hp
    exact ⟨_, _, _, _, p₀, hs, hp₀, p₀.check_untyped⟩
  | @checked _ _ _ _ p₀ hs hp => exact ⟨_, _, _, _, p₀, hs, hp, p₀.check_untyped⟩

/-- The names in a program are identifiers of its source. -/
theorem newline_not_mem_name {file name source : String} {ts : List Token}
    (hs : scan file source = .ok ts) (h : parseUntyped name ts = .ok p) :
    ∀ found ∈ (Node.program p).walk.map (fun visited => visited.2.name?),
      ∀ name, found = some name → '\n' ∉ name.toList := by
  obtain ⟨c, hc, -⟩ := completes_of_ok h
  have hstem := hc.stem (.start name ts) 1
  rw [List.forall_mem_map]
  intro visited hvisited name hname
  rcases List.mem_cons.1 hvisited with rfl | hvisited
  · cases hname
  · obtain ⟨token, ht, hkind, rfl⟩ := (hstem visited hvisited).name name hname
    obtain ⟨before, after, hstands⟩ := scan_stands hs ht
    exact (hkind ▸ hstands.spells).newline_not_mem (by decide)

theorem Obtained.plain (h : p.Obtained) :
    ∀ visited ∈ (Node.program p).walk, visited.2.face.Plain := by
  obtain ⟨file, name, source, ts, p₀, hs, hp₀, hsame⟩ := h.exists_untyped
  have hnames := newline_not_mem_name hs hp₀
  rw [← map_walk_relabel .untyped (Node.name?_relabel _), ← hsame,
    map_walk_relabel .untyped (Node.name?_relabel _), List.forall_mem_map] at hnames
  exact fun visited hvisited => Node.plain_face (hnames visited hvisited)

theorem Obtained.numbered (h : p.Obtained) : ∃ next, Numbered 1 p.blockIds next := by
  obtain ⟨file, name, source, ts, p₀, hs, hp₀, hsame⟩ := h.exists_untyped
  rw [← p.blockIds_untyped, hsame, p₀.blockIds_untyped]
  exact numbered_untyped hp₀

/-- The outline is faithful. Programs that were made from sources, checked or not, and that have the
same outline are equal up to where their nodes stand: in structure, names, operators, literals,
declared types, types written by a check, and ids of blocks. -/
theorem alike_of_outline (hp : p.Obtained) (hq : q.Obtained) (h : p.outline = q.outline) :
    p.Alike q := by
  have hfaces := faces_eq hp.plain hq.plain h
  obtain ⟨next, hn⟩ := hp.numbered
  obtain ⟨next', hn'⟩ := hq.numbered
  have hlen : p.blockIds.length = q.blockIds.length := by
    rw [blockIds, blockIds, length_blockIds, length_blockIds, hfaces]
  have hlooks := looks_eq hfaces (hn.eq_of_length hn' hlen)
  -- below the root, which stands alone at its depth
  have hbelow : looks (walkAll 1 p.body) ++ [] = looks (walkAll 1 q.body) ++ [] := by
    rw [List.append_nil, List.append_nil]
    exact (List.cons.inj hlooks).2
  have hnil : Outside 1 [] := by simp [Outside]
  exact (alikeAll_of_looks p.body hbelow hnil hnil).1

/-- The same block in two layouts, checked on the way and afterwards. The text of its string looks
like the end of a line. -/
theorem alike_of_outline_layout :
    ∃ ts ts' p q, scan "f" "\x7breturn \")\n\";\x7d" = .ok ts ∧
      scan "g" "\x7b return \")\n\"; \x7d" = .ok ts' ∧ parse "f" ts = .ok p ∧
      parseUntyped "g" ts' = .ok q ∧ p.outline = q.check.1.outline ∧ p.Alike q.check.1 := by
  have hrun : (do
      let ts ← (scan "f" "\x7breturn \")\n\";\x7d").toOption
      let ts' ← (scan "g" "\x7b return \")\n\"; \x7d").toOption
      let p ← (parse "f" ts).toOption
      let q ← (parseUntyped "g" ts').toOption
      return decide (faces (Node.program p).walk = faces (Node.program q.check.1).walk)) =
        some true := by
    decide +kernel
  simp only [Option.bind_eq_bind, Option.bind_eq_some_iff] at hrun
  obtain ⟨ts, hs, ts', hs', p, hp, q, hq, hfaces⟩ := hrun
  have hok {α : Type} {x : Except Diagnostic α} {a : α} (h : x.toOption = some a) : x = .ok a := by
    cases x with
    | error e => cases h
    | ok b => exact congrArg Except.ok (Option.some.inj h)
  have houtline : p.outline = q.check.1.outline :=
    outline_congr (of_decide_eq_true (Option.some.inj hfaces))
  have halike : p.Alike q.check.1 :=
    alike_of_outline (.typed (hok hs) (hok hp)) (.checked (hok hs') (hok hq)) houtline
  exact ⟨ts, ts', p, q, hok hs, hok hs', hok hp, hok hq, houtline, halike⟩

end Program

end MiniC
