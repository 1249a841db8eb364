import Mathlib.Data.List.Basic
import MiniC.Proofs.Number.Text
import MiniC.Proofs.Tree.Alike
import MiniC.Tree.Node

/-!
Reading an outline again. A line ends where the text does, since no name or literal holds a line
break; its blanks tell the depth, the first parenthesis ends the tag and the last comma the label,
whatever the label holds.
-/

namespace MiniC

open Text

namespace Node

/-- Whether a node with this tag holds a literal, name or operator. -/
def Tag.hasLabel : Tag → Bool
  | .program | .ifElse | .whileLoop | .forLoop | .ret | .block => false
  | .varDecl | .assignment | .binaryOp | .unaryOp | .literal | .identifier => true

theorem isSome_label? (node : Node) : node.label?.isSome = node.tag.hasLabel := by
  cases node with
  | program | block | assignment => rfl
  | stmt stmt => cases stmt <;> rfl
  | expr e => cases e <;> rfl

theorem Tag.name_inj {tag tag' : Tag} (h : tag.name = tag'.name) : tag = tag' := by
  cases tag <;> cases tag' <;> first | rfl | exact absurd h (by decide)

namespace Face

/-- What stands for the label in a line. -/
def label (face : Face) : String :=
  face.label?.getD "None"

/-- What stands for the type in a line. -/
def type (face : Face) : String :=
  (face.type?.map DataType.name).getD "None"

/-- The line of a node that looks like this. -/
def line (depth : Nat) (face : Face) : List Char :=
  List.replicate (2 * depth) ' ' ++ (face.tag.name.toList ++ '(' ::
    ("value=".toList ++ face.label.toList ++ ',' :: (" type=".toList ++ face.type.toList ++ [')'])))

/-- The face of a node whose label stays on one line. -/
structure Plain (face : Face) : Prop where
  isSome : face.label?.isSome = face.tag.hasLabel
  newline_not_mem : ∀ label ∈ face.label?, '\n' ∉ label.toList

variable {face face' : Face}

theorem label_inj (h : face.Plain) (h' : face'.Plain) (htag : face.tag = face'.tag)
    (hlabel : face.label = face'.label) : face.label? = face'.label? := by
  have hsome : face.label?.isSome = face'.label?.isSome := by rw [h.isSome, h'.isSome, htag]
  unfold label at hlabel
  cases hl : face.label? <;> cases hl' : face'.label? <;> simp_all

theorem type_inj (h : face.type = face'.type) : face.type? = face'.type? := by
  have hall : ∀ t t' : Option DataType,
      (t.map DataType.name).getD "None" = (t'.map DataType.name).getD "None" → t = t' := by
    rintro (_ | t) (_ | t') h
    · rfl
    · cases t' <;> exact absurd h (by decide)
    · cases t <;> exact absurd h (by decide)
    · cases t <;> cases t' <;> first | rfl | exact absurd h (by decide)
  exact hall _ _ h

theorem newline_not_mem_label (h : face.Plain) : '\n' ∉ face.label.toList := by
  unfold label
  cases hl : face.label? with
  | none => decide
  | some label => exact h.newline_not_mem label hl

theorem not_mem_word {c : Char} {word : List Char} (hc : c.isAlpha = false)
    (hword : word.all Char.isAlpha = true) : c ∉ word := by
  intro hmem
  have halpha := List.all_eq_true.1 hword c hmem
  simp [hc] at halpha

theorem not_mem_type {c : Char} (hc : c.isAlpha = false) (face : Face) : c ∉ face.type.toList := by
  have hall : ∀ t : Option DataType,
      ((t.map DataType.name).getD "None").toList.all Char.isAlpha = true := by
    rintro (_ | t)
    · decide
    · cases t <;> decide
  exact not_mem_word hc (hall face.type?)

theorem not_mem_name {c : Char} (hc : c.isAlpha = false) (tag : Tag) : c ∉ tag.name.toList :=
  not_mem_word hc (by cases tag <;> decide)

theorem newline_not_mem_line (h : face.Plain) (depth : Nat) : '\n' ∉ face.line depth := by
  have htag := not_mem_name (c := '\n') (by decide) face.tag
  have htype := face.not_mem_type (c := '\n') (by decide)
  have hlabel := newline_not_mem_label h
  simp [line, htag, htype, hlabel]

/-- How many blanks come before a text that does not start with one. -/
theorem indent_inj {m n : Nat} {text text' : List Char} (ht : text.head? ≠ some ' ')
    (ht' : text'.head? ≠ some ' ')
    (h : List.replicate m ' ' ++ text = List.replicate n ' ' ++ text') : m = n ∧ text = text' := by
  induction m generalizing n with
  | zero =>
    cases n with
    | zero => exact ⟨rfl, h⟩
    | succ n => exact absurd (congrArg List.head? h) ht
  | succ m ih =>
    cases n with
    | zero => exact absurd (congrArg List.head? h.symm) ht'
    | succ n =>
      obtain ⟨rfl, htext⟩ := ih (List.cons.inj h).2
      exact ⟨rfl, htext⟩

theorem head_name (tag : Tag) (text : List Char) :
    (tag.name.toList ++ text).head? ≠ some ' ' := by
  cases tag <;> exact fun h => absurd (Option.some.inj h) (by decide)

/-- A line tells the depth of its node and how the node looks. -/
theorem line_inj {depth depth' : Nat} (h : face.Plain) (h' : face'.Plain)
    (heq : face.line depth = face'.line depth') : depth = depth' ∧ face = face' := by
  obtain ⟨hdepth, hshown⟩ := indent_inj (head_name _ _) (head_name _ _) heq
  obtain ⟨hname, hargs⟩ := split_first (not_mem_name rfl _) (not_mem_name rfl _) hshown
  have hcomma (face : Face) : ',' ∉ " type=".toList ++ face.type.toList ++ [')'] := by
    simpa using face.not_mem_type rfl
  obtain ⟨hvalue, htype⟩ := split_last (hcomma face) (hcomma face') hargs
  have htag : face.tag = face'.tag := Tag.name_inj (String.toList_inj.1 hname)
  have hlabel : face.label = face'.label :=
    String.toList_inj.1 (List.append_cancel_left hvalue)
  have htype : face.type = face'.type :=
    String.toList_inj.1 (List.append_cancel_left (List.append_cancel_right htype))
  obtain ⟨tag, label?, type?⟩ := face
  obtain ⟨tag', label?', type?'⟩ := face'
  obtain rfl : tag = tag' := htag
  obtain rfl : label? = label?' := label_inj h h' rfl hlabel
  obtain rfl : type? = type?' := type_inj htype
  exact ⟨by omega, rfl⟩

theorem line_delimits :
    Delimits (fun shown : Nat × Face => shown.2.Plain)
      fun shown => shown.2.line shown.1 ++ ['\n'] := by
  intro shown shown' rest rest' h h' heq
  simp only [List.append_assoc, List.singleton_append] at heq
  obtain ⟨hline, hrest⟩ :=
    split_first (newline_not_mem_line h _) (newline_not_mem_line h' _) heq
  obtain ⟨hdepth, hface⟩ := line_inj h h' hline
  exact ⟨Prod.ext hdepth hface, hrest⟩

end Face

theorem outlineLine_toList (depth : Nat) (node : Node) :
    (node.outlineLine depth).toList = node.face.line depth ++ ['\n'] := by
  simp [outlineLine, describe, Face.line, Face.label, Face.type, face]

end Node

/-- The nodes of a walk as an outline shows them. -/
def faces (walk : List (Nat × Node)) : List (Nat × Node.Face) :=
  walk.map fun visited => (visited.1, visited.2.face)

theorem Program.outline_toList (p : Program) :
    p.outline.toList =
      (faces (Node.program p).walk).flatMap fun shown => shown.2.line shown.1 ++ ['\n'] := by
  rw [outline, String.toList_join, faces, List.flatMap_map, List.flatMap_map]
  exact List.flatMap_congr fun visited _ => Node.outlineLine_toList visited.1 visited.2

theorem Program.outline_congr {p q : Program}
    (h : faces (Node.program p).walk = faces (Node.program q).walk) : p.outline = q.outline := by
  apply String.toList_inj.1
  rw [p.outline_toList, q.outline_toList, h]

/-- Literals and operators stay on one line, so a label does if it is no name that breaks it. -/
theorem Node.plain_face {node : Node}
    (hname : ∀ name, node.name? = some name → '\n' ∉ name.toList) : node.face.Plain where
  isSome := node.isSome_label?
  newline_not_mem label hlabel := by
    cases node with
    | program | block => cases hlabel
    | assignment a => exact hname label hlabel
    | stmt stmt =>
      cases stmt with
      | varDecl | assign => exact hname label hlabel
      | ifElse | whileLoop | forLoop | ret | block => cases hlabel
    | expr e =>
      obtain rfl : e.label = label := Option.some.inj hlabel
      cases e with
      | integer value => exact Number.newline_not_mem_repr value.toInt
      | float value => exact value.newline_not_mem_text
      | string value => exact newline_not_mem_quoted value
      | symbol name => exact hname name rfl
      | binary _ op =>
        show '\n' ∉ op.lexeme.toList
        cases op <;> decide
      | unary op =>
        show '\n' ∉ op.lexeme.toList
        cases op <;> decide

/-- Programs with the same outline have nodes that look alike in the same places. -/
theorem Program.faces_eq {p q : Program}
    (hp : ∀ visited ∈ (Node.program p).walk, visited.2.face.Plain)
    (hq : ∀ visited ∈ (Node.program q).walk, visited.2.face.Plain) (h : p.outline = q.outline) :
    faces (Node.program p).walk = faces (Node.program q).walk := by
  have hlines := congrArg String.toList h
  rw [p.outline_toList, q.outline_toList] at hlines
  refine Node.Face.line_delimits.flatMap_inj ?_ ?_ ?_ hlines
  · intro shown
    simp
  · exact List.forall_mem_map.2 hp
  · exact List.forall_mem_map.2 hq

end MiniC
