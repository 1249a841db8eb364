import MiniC.Source.Position

/-!
Byte sizes of lists of characters against those of strings.
-/

namespace MiniC

namespace Source

theorem byteSize_append (text text' : List Char) :
    byteSize (text ++ text') = byteSize text + byteSize text' := by
  induction text with
  | nil => simp [byteSize]
  | cons c text ih => rw [List.cons_append, byteSize, byteSize, ih, Nat.add_assoc]

/-- No character is without a byte. -/
theorem length_le_byteSize (text : List Char) : text.length ≤ byteSize text := by
  induction text with
  | nil => simp
  | cons c text ih =>
    have hc := c.utf8Size_pos
    rw [List.length_cons, byteSize]
    omega

theorem byteSize_pos {text : List Char} (h : text ≠ []) : 0 < byteSize text :=
  Nat.lt_of_lt_of_le (List.length_pos_iff.2 h) (length_le_byteSize text)

theorem utf8ByteSize_ofList (text : List Char) :
    (String.ofList text).utf8ByteSize = byteSize text := by
  induction text with
  | nil => rfl
  | cons c text ih =>
    have hcons : String.ofList (c :: text) = String.singleton c ++ String.ofList text := by
      rw [← List.singleton_append, String.ofList_append]
      rfl
    rw [hcons, String.utf8ByteSize_append, String.utf8ByteSize_singleton, ih, byteSize]

theorem byteSize_toList (text : String) : byteSize text.toList = text.utf8ByteSize := by
  rw [← utf8ByteSize_ofList, String.ofList_toList]

/-- The size of a part of a text is a place in the text. -/
theorem isValid_byteSize {source : String} {before after : List Char}
    (h : source.toList = before ++ after) :
    (String.Pos.Raw.mk (byteSize before)).IsValid source := by
  refine String.Pos.Raw.isValid_iff_exists_append.2
    ⟨String.ofList before, String.ofList after, ?_, ?_⟩
  · rw [← String.ofList_append, ← h, String.ofList_toList]
  · rw [← utf8ByteSize_ofList]
    rfl

end Source

/-- Offsets into texts of less than four gigabytes do not wrap. -/
theorem Position.toNat_ofBytes {bytes : Nat} (file : String) (h : bytes < 4294967296) :
    (Position.ofBytes bytes file).offset.toNat = bytes :=
  UInt32.toNat_ofNat_of_lt' h

end MiniC
