import MiniC.Proofs.Token.Loop
import Mathlib.Data.List.Forall2

/-!
Texts joined with white space. The scan of the second text does not depend on the first, except that
everything in it is moved.
-/

namespace MiniC

/-- A place in the same file, so many bytes further on. -/
structure Position.MovedBy (bytes : Nat) (place place' : Position) : Prop where
  offset : place'.offset.toNat = place.offset.toNat + bytes
  file : place'.file = place.file

/-- The same lexeme at a place so many bytes further on. -/
structure Token.MovedBy (bytes : Nat) (token token' : Token) : Prop where
  kind : token'.kind = token.kind
  lexeme : token'.lexeme = token.lexeme
  start : token.span.start.MovedBy bytes token'.span.start
  stop : token.span.stop.MovedBy bytes token'.span.stop

/-- The same character at a place so many bytes and so many characters further on. -/
inductive Diagnostic.MovedBy (bytes chars : Nat) : Diagnostic → Diagnostic → Prop where
  | unrecognised {token : String} {offset offset' : UInt32} {place place' : Position} :
      offset'.toNat = offset.toNat + chars → place.MovedBy bytes place' →
      MovedBy bytes chars ⟨.unrecognised token offset, place⟩ ⟨.unrecognised token offset', place'⟩

namespace Token

open Text Source

/-- What the scan of a text comes to with so much more before it. -/
inductive ScanMovedBy (bytes chars : Nat) :
    Except Diagnostic (List Token) → Except Diagnostic (List Token) → Prop where
  | ok {tokens tokens' : List Token} : List.Forall₂ (Token.MovedBy bytes) tokens tokens' →
      ScanMovedBy bytes chars (.ok tokens) (.ok tokens')
  | error {e e' : Diagnostic} : e.MovedBy bytes chars e' →
      ScanMovedBy bytes chars (.error e) (.error e')

namespace ScanMovedBy

variable {bytes chars : Nat} {r : Except Diagnostic (List Token)}

theorem of_ok {tokens : List Token} (h : ScanMovedBy bytes chars (.ok tokens) r) :
    ∃ tokens', r = .ok tokens' ∧ List.Forall₂ (Token.MovedBy bytes) tokens tokens' := by
  cases h with
  | ok h => exact ⟨_, rfl, h⟩

theorem of_error {e : Diagnostic} (h : ScanMovedBy bytes chars (.error e) r) :
    ∃ e', r = .error e' ∧ e.MovedBy bytes chars e' := by
  cases h with
  | error h => exact ⟨_, rfl, h⟩

end ScanMovedBy

/-- Up to four gigabytes counting on does not wrap. -/
theorem toNat_ofNat_add {n more : Nat} (h : n + more < 4294967296) :
    (UInt32.ofNat (n + more)).toNat = (UInt32.ofNat n).toNat + more := by
  have hless : n < 4294967296 := by omega
  rw [UInt32.toNat_ofNat_of_lt' h, UInt32.toNat_ofNat_of_lt' hless]

variable {file : String}

theorem movedBy_ofBytes {bytes more : Nat} (h : bytes + more < 4294967296) :
    (Position.ofBytes bytes file).MovedBy more (.ofBytes (bytes + more) file) :=
  ⟨toNat_ofNat_add h, rfl⟩

/-- A scan that starts further on goes the same way, as lexemes are found without regard to what
stands before them. -/
theorem scanFrom_moved {moreBytes moreChars : Nat} (skip bytes chars : Nat) {text : List Char}
    (hbytes : bytes + byteSize text + moreBytes < 4294967296)
    (hchars : chars + text.length + moreChars < 4294967296) :
    ScanMovedBy moreBytes moreChars (scanFrom file skip bytes chars text)
      (scanFrom file skip (bytes + moreBytes) (chars + moreChars) text) := by
  induction text generalizing skip bytes chars with
  | nil => cases skip <;> exact .ok .nil
  | cons c rest ih =>
    rw [byteSize] at hbytes
    rw [List.length_cons] at hchars
    -- both scans pass the same character, and what a lexeme is does not depend on its place
    have hrest (skip : Nat) := ih skip (bytes + c.utf8Size) (chars + 1) (by omega) (by omega)
    rw [Nat.add_right_comm bytes, Nat.add_right_comm chars] at hrest
    cases skip with
    | succ skip => exact hrest skip
    | zero =>
      cases hl : lexeme? c rest with
      | none =>
        simp only [scanFrom, hl]
        exact .error (.unrecognised (toNat_ofNat_add (by omega)) (movedBy_ofBytes (by omega)))
      | some lexeme =>
        obtain ⟨kind, tail⟩ := lexeme
        obtain ⟨after, hafter, -⟩ := lexeme?_found hl
        obtain rfl : rest = tail ++ after := hafter
        rw [byteSize_append] at hbytes
        have htail := hrest tail.length
        simp only [scanFrom, hl]
        generalize scanFrom file tail.length (bytes + c.utf8Size) (chars + 1) (tail ++ after) = r,
          scanFrom file tail.length (bytes + moreBytes + c.utf8Size) (chars + moreChars + 1)
            (tail ++ after) = r' at htail ⊢
        cases htail with
        | error he => exact .error he
        | ok hts =>
          cases kind with
          | none => exact .ok hts
          | some kind =>
            refine .ok (.cons ⟨rfl, rfl, movedBy_ofBytes (by omega), ?_⟩ hts)
            simp only [byteSize, Nat.add_right_comm bytes moreBytes]
            exact movedBy_ofBytes (by omega)

variable {a w b : String} {ta : List Token}

/-- A text that scans does so with white space behind it, and what stands behind that is scanned
from there on. -/
theorem scan_append (hw : w ≠ "") (hblank : Blank w.toList) (ha : scan file a = .ok ta) :
    scan file (a ++ w ++ b) =
      (scanFrom file 0 (a ++ w).utf8ByteSize (a ++ w).length b.toList).map (ta ++ ·) := by
  have hclear : Clear (w.toList ++ b.toList) := by
    have hne : w.toList ≠ [] := fun hnil => hw (String.toList_eq_nil_iff.1 hnil)
    obtain ⟨c, gap, hgap⟩ := List.exists_cons_of_ne_nil hne
    rw [hgap] at hblank ⊢
    rintro _ ⟨⟩
    exact hblank c List.mem_cons_self
  calc scan file (a ++ w ++ b)
      = Scanning.outcome file (.start (a.toList ++ (w.toList ++ b.toList))) := by
        rw [← Scanning.outcome_start, String.toList_append, String.toList_append, List.append_assoc]
    _ = Scanning.outcome file ⟨a.toList, ta, w.toList ++ b.toList⟩ :=
        (reaches_of_scan ha).outcome_start hclear
    _ = Scanning.outcome file ⟨a.toList ++ w.toList, ta, b.toList⟩ :=
        Scanning.outcome_gap hblank ta b.toList
    _ = _ := by
        rw [Scanning.outcome, ← String.toList_append, byteSize_toList, String.length_toList]

/-- Texts scan on their own where white space parts them. Behind a text that scans and at least one
character of white space, another text gives its tokens as it does on its own, each moved by the
bytes that stand before it; or else its error, moved by those bytes and characters. -/
theorem scan_join (hsize : (a ++ w ++ b).utf8ByteSize < 4294967296) (hw : w ≠ "")
    (hblank : Blank w.toList) (ha : scan file a = .ok ta) :
    (∀ tb, scan file b = .ok tb → ∃ tb', scan file (a ++ w ++ b) = .ok (ta ++ tb') ∧
      List.Forall₂ (Token.MovedBy (a ++ w).utf8ByteSize) tb tb') ∧
    (∀ e, scan file b = .error e → ∃ e', scan file (a ++ w ++ b) = .error e' ∧
      e.MovedBy (a ++ w).utf8ByteSize (a ++ w).length e') := by
  have hbytes := hsize
  rw [String.utf8ByteSize_append, ← byteSize_toList b] at hbytes
  have hlength := length_le_byteSize (a ++ w).toList
  rw [byteSize_toList, String.length_toList] at hlength
  have hchars := length_le_byteSize b.toList
  have hmoved : ScanMovedBy (a ++ w).utf8ByteSize (a ++ w).length (scan file b) _ :=
    scanFrom_moved 0 0 0 (by omega) (by omega)
  rw [Nat.zero_add, Nat.zero_add] at hmoved
  rw [scan_append hw hblank ha]
  constructor
  · intro tb htb
    rw [htb] at hmoved
    obtain ⟨tb', hrun, hts⟩ := hmoved.of_ok
    exact ⟨tb', by rw [hrun]; rfl, hts⟩
  · intro e he
    rw [he] at hmoved
    obtain ⟨e', hrun, he'⟩ := hmoved.of_error
    exact ⟨e', by rw [hrun]; rfl, he'⟩

/-- A wide space between two operators that would merge without it, before a string of which a
character takes two bytes, and before an error behind the string. -/
theorem scan_join_wide :
    let a := "a="
    let w := "\u2003 "
    let b := "= \"é\""
    let b' := "= \"é\" @"
    let span (start stop : UInt32) : Span := ⟨⟨start, "f"⟩, ⟨stop, "f"⟩⟩
    let ta : List Token := [⟨.identifier, "a", span 0 1⟩, ⟨.operator, "=", span 1 2⟩]
    let tb : List Token := [⟨.operator, "=", span 0 1⟩, ⟨.string, "\"é\"", span 2 6⟩]
    let e : Diagnostic := ⟨.unrecognised "@" 6, ⟨7, "f"⟩⟩
    (a ++ w ++ b).utf8ByteSize < 4294967296 ∧ (a ++ w ++ b').utf8ByteSize < 4294967296 ∧ w ≠ "" ∧
      Blank w.toList ∧ scan "f" a = .ok ta ∧ scan "f" b = .ok tb ∧ scan "f" b' = .error e ∧
      (∃ tb', scan "f" (a ++ w ++ b) = .ok (ta ++ tb') ∧
        List.Forall₂ (Token.MovedBy 6) tb tb') ∧
      ∃ e', scan "f" (a ++ w ++ b') = .error e' ∧ e.MovedBy 6 4 e' := by
  intro a w b b' span ta tb e
  have hsize : (a ++ w ++ b).utf8ByteSize < 4294967296 := by decide
  have hsize' : (a ++ w ++ b').utf8ByteSize < 4294967296 := by decide
  have hw : w ≠ "" := by decide
  have hblank : Blank w.toList := by
    have hall : w.toList.all isWhiteSpace = true := by decide +kernel
    exact List.all_eq_true.1 hall
  have ha : scan "f" a = .ok ta := by decide +kernel
  have hb : scan "f" b = .ok tb := by decide +kernel
  have hb' : scan "f" b' = .error e := by decide +kernel
  have hlength : (a ++ w).length = 4 := by decide
  have herror := (scan_join hsize' hw hblank ha).2 e hb'
  rw [hlength] at herror
  exact ⟨hsize, hsize', hw, hblank, ha, hb, hb', (scan_join hsize hw hblank ha).1 tb hb, herror⟩

end Token

end MiniC
