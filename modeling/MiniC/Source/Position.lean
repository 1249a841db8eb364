/-!
Places in a source text. Offsets count bytes of the UTF-8 form and are kept in 32 bits, so an
offset past four gigabytes wraps. A line includes the newline that ends it, so the lines of a text
concatenate to it.
-/

namespace MiniC

/-- A byte offset into a source file, with the file's name. -/
structure Position where
  offset : UInt32
  file : String
  deriving DecidableEq, Repr

namespace Position

/-- The place that stands for no place. -/
def null : Position := ⟨0, "<null>"⟩

/-- The start of a file. -/
def start (file : String) : Position := ⟨0, file⟩

/-- The position `bytes` bytes into `file`. -/
def ofBytes (bytes : Nat) (file : String) : Position := ⟨UInt32.ofNat bytes, file⟩

/-- `file:offset`. -/
def text (position : Position) : String :=
  position.file ++ ":" ++ toString position.offset.toNat

end Position

/-- The part of a source file from `start` up to but not including `stop`. -/
structure Span where
  start : Position
  stop : Position
  deriving DecidableEq, Repr

namespace Source

/-! Texts that are held as lists of characters, by the sizes of their UTF-8 forms. -/

/-- The number of bytes in the UTF-8 form of a text. -/
def byteSize : List Char → Nat
  | [] => 0
  | c :: text => c.utf8Size + byteSize text

/-- What is left of a text after its first `bytes` bytes; nothing if the text is shorter or the cut
falls inside a character. -/
def dropBytes? : Nat → List Char → Option (List Char)
  | 0, text => some text
  | _ + 1, [] => none
  | bytes + 1, c :: text =>
    if c.utf8Size ≤ bytes + 1 then dropBytes? (bytes + 1 - c.utf8Size) text else none

/-! Lines. -/

/-- A place within a line: the line's number, counted from 1, its text, and a byte column. -/
structure Line where
  number : Nat
  text : String
  column : Nat
  deriving DecidableEq, Repr

/-- The lines of a text, each with its newline; only the last may lack one. -/
def lines : List Char → List (List Char)
  | [] => []
  | c :: rest =>
    if c = '\n' then [c] :: lines rest
    else match lines rest with
      | [] => [[c]]
      | line :: more => (c :: line) :: more

/-- Finds byte `offset` in `lines`, the first of which has the given number. A line without a
newline also holds the offset just past it, and past a final newline begins one more, empty line. -/
def locate (number offset : Nat) : List (List Char) → Line
  | [] => ⟨number, "", 0⟩
  | line :: more =>
    if offset < byteSize line || line.getLast? != some '\n' then
      ⟨number, String.ofList line, offset⟩
    else
      locate (number + 1) (offset - byteSize line) more

/-- The line that holds byte `offset` of `source`; an offset past the end stands for the end. -/
def lineAt (source : String) (offset : UInt32) : Line :=
  locate 1 (min offset.toNat source.utf8ByteSize) (lines source.toList)

end Source

end MiniC
