import MiniC.Proofs.Source.Bytes
import MiniC.Source.Position

/-!
Lines of a text. A text is made of lines that end with a newline, and perhaps a last one without;
the place after so many bytes is found in the line that the bytes lead to.
-/

namespace MiniC.Source

/-- A text after which a line starts. -/
def EndsLine (text : List Char) : Prop :=
  ∀ c ∈ text.getLast?, c = '\n'

/-- A line before what comes `later`: it goes up to the next newline, or to the end of the text. -/
inductive IsLine : (line later : List Char) → Prop where
  | newline {body later : List Char} : '\n' ∉ body → IsLine (body ++ ['\n']) later
  | last {body : List Char} : '\n' ∉ body → IsLine body []

section

variable {body rest : List Char}

theorem lines_newline (h : '\n' ∉ body) :
    lines (body ++ '\n' :: rest) = (body ++ ['\n']) :: lines rest := by
  induction body with
  | nil => rw [List.nil_append, lines, if_pos rfl, List.nil_append]
  | cons c body ih =>
    obtain ⟨hc, hbody⟩ : '\n' ≠ c ∧ '\n' ∉ body := by simpa using h
    rw [List.cons_append, lines, if_neg hc.symm, ih hbody]
    rfl

theorem lines_last (h : '\n' ∉ body) (hne : body ≠ []) : lines body = [body] := by
  induction body with
  | nil => exact absurd rfl hne
  | cons c body ih =>
    obtain ⟨hc, hbody⟩ : '\n' ≠ c ∧ '\n' ∉ body := by simpa using h
    rw [lines, if_neg hc.symm]
    cases body with
    | nil => rfl
    | cons d body => rw [ih hbody (by simp)]

end

/-! Cutting a text into lines. -/

theorem EndsLine.tail {body text : List Char} (h : EndsLine (body ++ '\n' :: text)) :
    EndsLine text := by
  intro c hc
  apply h
  rw [List.getLast?_append, List.getLast?_cons, Option.mem_def.1 hc]
  rfl

/-- The last line of a text may be one that only starts. -/
theorem exists_endsLine (text : List Char) :
    ∃ earlier part, text = earlier ++ part ∧ EndsLine earlier ∧ '\n' ∉ part := by
  induction text with
  | nil => exact ⟨[], [], rfl, by simp [EndsLine], by simp⟩
  | cons c text ih =>
    obtain ⟨earlier, part, rfl, he, hp⟩ := ih
    cases earlier with
    | cons d earlier =>
      refine ⟨c :: d :: earlier, part, rfl, fun e hlast => he e ?_, hp⟩
      rwa [List.getLast?_cons_cons] at hlast
    | nil =>
      by_cases hc : c = '\n'
      · exact ⟨['\n'], part, by rw [hc]; rfl, by simp [EndsLine], hp⟩
      · exact ⟨[], c :: part, rfl, he, by simp [Ne.symm hc, hp]⟩

theorem exists_isLine (text : List Char) :
    ∃ line later, text = line ++ later ∧ IsLine line later := by
  by_cases h : '\n' ∈ text
  · obtain ⟨body, later, rfl, hbody⟩ := List.eq_append_cons_of_mem h
    exact ⟨body ++ ['\n'], later, by simp, .newline hbody⟩
  · exact ⟨text, [], by simp, .last h⟩

/-- Only at the end of a text there is an empty line. -/
theorem IsLine.later_eq_nil {line later : List Char} (h : IsLine line later) (hnil : line = []) :
    later = [] := by
  cases h with
  | newline => simp at hnil
  | last => rfl

theorem IsLine.prepend {part line later : List Char} (h : IsLine line later) (hp : '\n' ∉ part) :
    IsLine (part ++ line) later := by
  cases h with
  | newline hbody =>
    rw [← List.append_assoc]
    exact .newline (by simp [hp, hbody])
  | last hbody => exact .last (by simp [hp, hbody])

/-! Finding a place. -/

variable {number column : Nat} {earlier line later text : List Char}

/-- Lines that end before the place are passed by, and counted. -/
theorem locate_earlier (h : EndsLine earlier) :
    locate number (byteSize earlier + column) (lines (earlier ++ text)) =
      locate (number + earlier.count '\n') column (lines text) := by
  -- by induction on the length, as each step takes a whole line off the text
  induction hn : earlier.length using Nat.strongRecOn generalizing earlier number with
  | ind n ih =>
    subst hn
    by_cases hmem : '\n' ∈ earlier
    · obtain ⟨body, rest, rfl, hbody⟩ := List.eq_append_cons_of_mem hmem
      have hlt : rest.length < (body ++ '\n' :: rest).length := by
        rw [List.length_append, List.length_cons]
        omega
      have hsize : byteSize (body ++ '\n' :: rest) = byteSize (body ++ ['\n']) + byteSize rest := by
        rw [← byteSize_append, List.append_assoc]
        rfl
      have hcount : (body ++ '\n' :: rest).count '\n' = 1 + rest.count '\n' := by
        rw [List.count_append, List.count_eq_zero.2 hbody, List.count_cons_self, Nat.zero_add,
          Nat.add_comm]
      have hpast : byteSize (body ++ '\n' :: rest) + column - byteSize (body ++ ['\n']) =
          byteSize rest + column := by omega
      rw [List.append_assoc, List.cons_append, lines_newline hbody, locate, if_neg, hpast,
        ih _ hlt h.tail rfl, hcount, Nat.add_assoc]
      have hfar : ¬byteSize (body ++ '\n' :: rest) + column < byteSize (body ++ ['\n']) := by omega
      simp [hfar]
    · -- a text without newlines that ends a line is empty
      have hnil : earlier = [] := by
        cases hlast : earlier.getLast? with
        | none => exact List.getLast?_eq_none_iff.1 hlast
        | some c =>
          have hc := List.mem_of_getLast? hlast
          rw [h c hlast] at hc
          exact absurd hc hmem
      subst hnil
      simp [byteSize]

theorem locate_line (h : IsLine line later) (hle : column ≤ byteSize line)
    (hlt : line.getLast? = some '\n' → column < byteSize line) :
    locate number column (lines (line ++ later)) = ⟨number, String.ofList line, column⟩ := by
  cases h with
  | @newline body later hbody =>
    rw [List.append_assoc, List.singleton_append, lines_newline hbody, locate, if_pos]
    simp [hlt (by simp)]
  | last hbody =>
    rw [List.append_nil]
    cases line with
    | nil =>
      obtain rfl : column = 0 := Nat.le_zero.1 hle
      rfl
    | cons c body =>
      rw [lines_last hbody (by simp), locate, if_pos]
      have hlast : (c :: body).getLast? ≠ some '\n' := fun hlast =>
        hbody (List.mem_of_getLast? hlast)
      simp [hlast]

/-- The place after so many bytes, in its line. -/
theorem lineAt_eq {source : String} {offset : UInt32}
    (htext : source.toList = earlier ++ (line ++ later)) (he : EndsLine earlier)
    (hl : IsLine line later) (hoffset : offset.toNat = byteSize earlier + column)
    (hle : column ≤ byteSize line) (hlt : line.getLast? = some '\n' → column < byteSize line) :
    lineAt source offset = ⟨1 + earlier.count '\n', String.ofList line, column⟩ := by
  have hsize := byteSize_toList source
  rw [htext, byteSize_append, byteSize_append] at hsize
  rw [lineAt, Nat.min_eq_left (by omega), hoffset, htext, locate_earlier he, locate_line hl hle hlt]

end MiniC.Source
