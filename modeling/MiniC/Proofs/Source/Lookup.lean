import MiniC.Proofs.Source.Line

/-!
The line of an offset, byte by byte. The offset may be any, also one inside a character: what
decides the line are the newlines among the bytes, and no other character has the byte of a newline
in it.
-/

namespace MiniC.Source

/-- The byte of a newline. -/
def newline : UInt8 := 10

/-- The bytes of the UTF-8 form of a text. -/
def utf8 (text : String) : List UInt8 :=
  text.toUTF8.data.toList

/-- `start` is just after the last newline before `offset`, or 0 if there is none. -/
structure StartsAt (bytes : List UInt8) (offset start : Nat) : Prop where
  le : start ≤ offset
  fresh : start = 0 ∨ bytes[start - 1]? = some newline
  unbroken : newline ∉ bytes.extract start offset

/-- `stop` is just after the next newline at or after `start`, or the end if there is none. -/
inductive StopsAt (bytes : List UInt8) (start : Nat) : (stop : Nat) → Prop where
  | newline {last : Nat} : start ≤ last → bytes[last]? = some newline →
      newline ∉ bytes.extract start last → StopsAt bytes start (last + 1)
  | last : newline ∉ bytes.drop start → StopsAt bytes start bytes.length

/-! The bytes of characters. -/

/-- The bytes of the UTF-8 form of a text that is held as a list of characters. -/
def encode (text : List Char) : List UInt8 :=
  text.flatMap String.utf8EncodeChar

theorem utf8_eq_encode (text : String) : utf8 text = encode text.toList := by
  rw [utf8, String.toUTF8_eq_toByteArray, ← String.utf8Encode_toList, List.utf8Encode,
    List.toList_data_toByteArray, encode]

section

variable {text text' : List Char}

theorem encode_append : encode (text ++ text') = encode text ++ encode text' :=
  List.flatMap_append

theorem length_encode (text : List Char) : (encode text).length = byteSize text := by
  induction text with
  | nil => rfl
  | cons c text ih =>
    rw [← List.singleton_append, encode_append, List.length_append, ih]
    simp [encode, byteSize]

theorem encode_newline : encode ['\n'] = [newline] := by decide

theorem newline_eq_ofNat_iff {n : Nat} : newline = UInt8.ofNat n ↔ n % 256 = 10 := by
  rw [← UInt8.toNat_inj, UInt8.toNat_ofNat', eq_comm]
  rfl

/-- No other character has a newline among its bytes. -/
theorem newline_not_mem_utf8EncodeChar {c : Char} (h : c ≠ '\n') :
    newline ∉ String.utf8EncodeChar c := by
  have hval : c.val.toNat ≠ 10 := fun hval => h (Char.ext (UInt32.toNat_inj.1 hval))
  -- a single byte is the code of the character, and of several bytes each is at least 128
  simp only [String.utf8EncodeChar]
  split
  · rw [List.mem_singleton, newline_eq_ofNat_iff]
    omega
  split
  · simp only [List.mem_cons, newline_eq_ofNat_iff, List.not_mem_nil, or_false]
    omega
  split
  · simp only [List.mem_cons, newline_eq_ofNat_iff, List.not_mem_nil, or_false]
    omega
  · simp only [List.mem_cons, newline_eq_ofNat_iff, List.not_mem_nil, or_false]
    omega

theorem newline_not_mem_encode (h : '\n' ∉ text) : newline ∉ encode text := by
  rw [encode, List.mem_flatMap]
  rintro ⟨c, hc, hmem⟩
  exact newline_not_mem_utf8EncodeChar (fun heq => h (heq ▸ hc)) hmem

theorem count_encode (text : List Char) : (encode text).count newline = text.count '\n' := by
  induction text with
  | nil => rfl
  | cons c text ih =>
    rw [← List.singleton_append, encode_append, List.count_append, List.count_append, ih]
    by_cases hc : c = '\n'
    · rw [hc, encode_newline]
      rfl
    · have hchar : '\n' ∉ [c] := by simpa using Ne.symm hc
      rw [List.count_eq_zero.2 (newline_not_mem_encode hchar), List.count_eq_zero.2 hchar]

theorem encode_eq_nil_iff : encode text = [] ↔ text = [] := by
  cases text with
  | nil => simp [encode]
  | cons c text => simp [encode, String.utf8EncodeChar_ne_nil]

end

/-! The line that an offset leads to. -/

theorem EndsLine.append {text text' : List Char} (h : EndsLine text) (h' : EndsLine text') :
    EndsLine (text ++ text') := by
  intro c hc
  rw [List.getLast?_append, Option.mem_def, Option.or_eq_some_iff] at hc
  rcases hc with hc | ⟨-, hc⟩
  · exact h' c hc
  · exact h c hc

/-- Every offset of a text leads to a line: to the last one if it is not before a newline. -/
theorem exists_line {text : List Char} {offset : Nat} (h : offset ≤ byteSize text) :
    ∃ earlier line later column, text = earlier ++ (line ++ later) ∧ EndsLine earlier ∧
      IsLine line later ∧ offset = byteSize earlier + column ∧ column ≤ byteSize line ∧
      (line.getLast? = some '\n' → column < byteSize line) := by
  -- by induction on the length, as each step takes a whole line off the text
  induction hn : text.length using Nat.strongRecOn generalizing text offset with
  | ind n ih =>
    subst hn
    obtain ⟨line, later, rfl, hline⟩ := exists_isLine text
    have hstart : EndsLine [] := by simp [EndsLine]
    cases hline with
    | last hbody =>
      refine ⟨[], line, [], offset, rfl, hstart, .last hbody, by simp [byteSize], ?_, ?_⟩
      · simpa using h
      · intro hlast
        exact absurd (List.mem_of_getLast? hlast) hbody
    | @newline body later hbody =>
      by_cases hin : offset < byteSize (body ++ ['\n'])
      · exact ⟨[], body ++ ['\n'], later, offset, rfl, hstart, .newline hbody, by simp [byteSize],
          Nat.le_of_lt hin, fun _ => hin⟩
      · rw [byteSize_append] at h
        have hlt : later.length < (body ++ ['\n'] ++ later).length := by
          simp only [List.length_append, List.length_singleton]
          omega
        have hrest : offset - byteSize (body ++ ['\n']) ≤ byteSize later := by omega
        obtain ⟨earlier, line, rest, column, rfl, he, hl, hoffset, hle, hlast⟩ :=
          ih _ hlt hrest rfl
        have hends : EndsLine (body ++ ['\n']) := by simp [EndsLine]
        refine ⟨body ++ ['\n'] ++ earlier, line, rest, column, by simp, hends.append he, hl, ?_,
          hle, hlast⟩
        rw [byteSize_append]
        omega

section

variable {earlier line later : List Char} {column : Nat}

/-- A place on a line is not past the newline that ends it, so there is none before it. -/
theorem newline_not_mem_take (h : IsLine line later)
    (hlt : line.getLast? = some '\n' → column < byteSize line) :
    newline ∉ (encode line).take column := by
  cases h with
  | @newline body later hbody =>
    have hcolumn := hlt (by simp)
    rw [byteSize_append] at hcolumn
    have hle : column ≤ (encode body).length := by
      rw [length_encode]
      exact Nat.le_of_lt_succ hcolumn
    rw [encode_append, List.take_append_of_le_length hle]
    exact fun hmem => newline_not_mem_encode hbody (List.mem_of_mem_take hmem)
  | last hbody => exact fun hmem => newline_not_mem_encode hbody (List.mem_of_mem_take hmem)

theorem getLast?_encode (h : earlier.getLast? = some '\n') :
    (encode earlier).getLast? = some newline := by
  obtain ⟨before, rfl⟩ := List.getLast?_eq_some_iff.1 h
  rw [encode_append, encode_newline, List.getLast?_concat]

theorem startsAt_of_endsLine (he : EndsLine earlier) (hl : IsLine line later)
    (hle : column ≤ byteSize line) (hlt : line.getLast? = some '\n' → column < byteSize line) :
    StartsAt (encode (earlier ++ (line ++ later))) (byteSize earlier + column)
      (byteSize earlier) where
  le := Nat.le_add_right _ _
  fresh := by
    cases hlast : earlier.getLast? with
    | none =>
      rw [List.getLast?_eq_none_iff.1 hlast]
      exact .inl rfl
    | some c =>
      have hnewline := getLast?_encode (he c hlast ▸ hlast)
      have hne : earlier ≠ [] := by
        rintro rfl
        cases hlast
      have hpos := byteSize_pos hne
      rw [List.getLast?_eq_getElem?, length_encode] at hnewline
      rw [encode_append, List.getElem?_append_left (by rw [length_encode]; omega)]
      exact .inr hnewline
  unbroken := by
    rw [encode_append, encode_append, ← length_encode earlier, List.extract_eq_take_drop,
      List.drop_left, Nat.add_sub_cancel_left, List.take_append_of_le_length]
    · exact newline_not_mem_take hl hlt
    · rwa [length_encode]

theorem stopsAt_of_isLine (hl : IsLine line later) :
    StopsAt (encode (earlier ++ (line ++ later))) (byteSize earlier)
      (byteSize earlier + byteSize line) := by
  cases hl with
  | @newline body later hbody =>
    have hnot := newline_not_mem_encode hbody
    have hbytes : encode (earlier ++ (body ++ ['\n'] ++ later)) =
        encode earlier ++ (encode body ++ newline :: encode later) := by
      rw [encode_append, encode_append, encode_append, encode_newline, List.append_assoc,
        List.singleton_append]
    rw [byteSize_append, hbytes, ← length_encode, ← length_encode]
    have hbreak : (encode earlier ++ (encode body ++ newline :: encode later))[
        (encode earlier).length + (encode body).length]? = some newline := by
      rw [List.getElem?_append_right (Nat.le_add_right _ _), Nat.add_sub_cancel_left,
        List.getElem?_append_right (Nat.le_refl _), Nat.sub_self, List.getElem?_cons_zero]
    exact .newline (Nat.le_add_right _ _) hbreak (by simpa using hnot)
  | last hbody =>
    have hstop : byteSize earlier + byteSize line = (encode (earlier ++ (line ++ []))).length := by
      rw [length_encode, List.append_nil, byteSize_append]
    rw [hstop]
    refine .last ?_
    have hnot := newline_not_mem_encode hbody
    simpa [encode_append, ← length_encode] using hnot

end

/-- The line that is found for an offset, or for the end if the offset is past it. Its number counts
the newlines before the place, its column the bytes from the start of the line, and its text is the
source up to and including the next newline, or up to the end. The text is empty only where a line
starts at the end of the source. -/
theorem lineAt_exact (source : String) (offset : UInt32) :
    let place := min offset.toNat source.utf8ByteSize
    let line := lineAt source offset
    ∃ start stop, StartsAt (utf8 source) place start ∧ StopsAt (utf8 source) start stop ∧
      line.number = 1 + ((utf8 source).take place).count newline ∧
      line.column = place - start ∧ utf8 line.text = (utf8 source).extract start stop ∧
      (line.text = "" ↔ start = source.utf8ByteSize) ∧
      line.column ≤ line.text.utf8ByteSize := by
  intro place line
  have hplace : place ≤ byteSize source.toList := by
    rw [byteSize_toList]
    exact Nat.min_le_right _ _
  obtain ⟨earlier, text, later, column, htext, he, hl, hoffset, hle, hlt⟩ := exists_line hplace
  have hline : line = ⟨1 + earlier.count '\n', String.ofList text, column⟩ := by
    show locate 1 place (lines source.toList) = _
    rw [htext, hoffset, locate_earlier he, locate_line hl hle hlt]
  have hsize : source.utf8ByteSize = byteSize earlier + (byteSize text + byteSize later) := by
    rw [← byteSize_toList, htext, byteSize_append, byteSize_append]
  rw [hline, utf8_eq_encode, htext, hoffset]
  refine ⟨byteSize earlier, byteSize earlier + byteSize text, startsAt_of_endsLine he hl hle hlt,
    stopsAt_of_isLine hl, ?_, (Nat.add_sub_cancel_left ..).symm, ?_, ?_, ?_⟩
  · rw [encode_append, encode_append, ← length_encode earlier, List.take_length_add_append,
      List.count_append, count_encode, List.take_append_of_le_length (by rwa [length_encode]),
      List.count_eq_zero.2 (newline_not_mem_take hl hlt)]
    rfl
  · rw [utf8_eq_encode, String.toList_ofList, encode_append, encode_append, ← length_encode,
      ← length_encode, List.extract_eq_take_drop, List.drop_left, Nat.add_sub_cancel_left,
      List.take_left]
  · have hempty : String.ofList text = "" ↔ text = [] := String.ofList_eq_empty_iff
    rw [hempty, hsize]
    constructor
    · intro hnil
      rw [hnil, hl.later_eq_nil hnil]
      rfl
    · intro hstart
      refine encode_eq_nil_iff.1 (List.length_eq_zero_iff.1 ?_)
      rw [length_encode]
      omega
  · rwa [utf8ByteSize_ofList]

end MiniC.Source
