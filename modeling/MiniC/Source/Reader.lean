import MiniC.Source.Position

/-!
A reading place in a source text, moved by bytes. It may be moved past the end of the text or into
a character; what it sees is then undefined.
-/

namespace MiniC.Source

/-- A text and a byte offset into it. -/
structure Reader where
  source : String
  file : String
  offset : Nat

namespace Reader

/-- The start of a text. -/
def start (file source : String) : Reader := ⟨source, file, 0⟩

/-- Moves on by `bytes` bytes, whatever is there. -/
def advance (reader : Reader) (bytes : Nat) : Reader :=
  { reader with offset := reader.offset + bytes }

/-- The text from here on, if a character begins here or the text ends here. -/
def rest? (reader : Reader) : Option String :=
  (dropBytes? reader.offset reader.source.toList).map String.ofList

/-- The character that begins here, if there is one; undefined where `rest?` is. -/
def peek? (reader : Reader) : Option (Option Char) :=
  reader.rest?.map fun rest => rest.toList.head?

/-- Whether the end has been reached or passed. -/
def atEnd (reader : Reader) : Bool :=
  reader.source.utf8ByteSize ≤ reader.offset

def position (reader : Reader) : Position :=
  .ofBytes reader.offset reader.file

/-- The span of the next `bytes` bytes. -/
def spanOf (reader : Reader) (bytes : Nat) : Span :=
  ⟨reader.position, .ofBytes (reader.offset + bytes) reader.file⟩

end Reader

end MiniC.Source
