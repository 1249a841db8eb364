import MiniC.Source.Position
import MiniC.Text.Lexical
import MiniC.Token.Basic

/-!
Texts as layouts of lexemes: white space, and lexemes each followed by white space again, which may
be empty where the lexemes stay apart without it.
-/

namespace MiniC.Token

open Text Source

/-- The characters that names are made of, apart from figures. -/
def Letter (c : Char) : Prop :=
  ('a' ≤ c ∧ c ≤ 'z') ∨ ('A' ≤ c ∧ c ≤ 'Z') ∨ c = '_'

/-- The figures in names; the digits of numbers are those of every script. -/
def Figure (c : Char) : Prop :=
  '0' ≤ c ∧ c ≤ '9'

/-- A run of decimal digits of any script. -/
def Digits (text : List Char) : Prop :=
  text ≠ [] ∧ ∀ c ∈ text, isDecimalDigit c = true

/-- A possibly empty run of white space. -/
def Blank (text : List Char) : Prop :=
  ∀ c ∈ text, isWhiteSpace c = true

/-- The operators, each of two characters before those of one. -/
def operators : List (List Char) :=
  [['|', '|'], ['&', '&'], ['=', '='], ['!', '='], ['<', '='], ['>', '='], ['+'], ['-'], ['*'],
    ['/'], ['='], ['<'], ['>'], ['!'], [';'], ['('], [')'], ['\x7b'], ['\x7d'], [','], ['['], [']']]

/-- The lexemes of each kind. -/
inductive Spells : Kind → List Char → Prop where
  | keyword {text} : String.ofList text ∈ reserved → Spells .keyword text
  | identifier {first others} : Letter first → (∀ c ∈ others, Letter c ∨ Figure c) →
      String.ofList (first :: others) ∉ reserved → Spells .identifier (first :: others)
  | float {whole fraction} : Digits whole → Digits fraction →
      Spells .float (whole ++ '.' :: fraction)
  | integer {digits} : Digits digits → Spells .integer digits
  | operator {text} : text ∈ operators → Spells .operator text
  | string {inner} : '"' ∉ inner → Spells .string ('"' :: inner ++ ['"'])

/-- The operators that would merge with `=` after them. -/
def merging : List (List Char) :=
  [['='], ['!'], ['<'], ['>']]

/-- A lexeme ends before the character `next`, or at the end of the text: words and numbers before
anything but a word character, and no operator is half of a longer one. -/
def Ends : Kind → List Char → (next : Option Char) → Prop
  | .keyword, _, next | .identifier, _, next | .integer, _, next | .float, _, next =>
    ∀ c ∈ next, isWord c = false
  | .operator, lexeme, next => lexeme ∈ merging → next ≠ some '='
  | .string, _, _ => True

/-- A lexeme and the white space after it. -/
structure Piece where
  kind : Kind
  lexeme : List Char
  gap : List Char

namespace Piece

/-- The characters of a piece. -/
def text (p : Piece) : List Char :=
  p.lexeme ++ p.gap

/-- Without white space between them, the first piece ends where the second starts. -/
def Apart (p q : Piece) : Prop :=
  p.gap = [] → Ends p.kind p.lexeme q.lexeme.head?

/-- Pieces that stand where a scan finds them. -/
inductive Stand : List Piece → Prop where
  | nil : Stand []
  | cons {p : Piece} {pieces : List Piece} : Spells p.kind p.lexeme → Blank p.gap →
      (∀ q ∈ pieces.head?, p.Apart q) → Stand pieces → Stand (p :: pieces)

/-- The token that a piece makes after so many bytes. -/
def token (file : String) (bytes : Nat) (p : Piece) : Token :=
  ⟨p.kind, String.ofList p.lexeme, .ofBytes bytes file, .ofBytes (bytes + byteSize p.lexeme) file⟩

/-- The tokens of pieces that start after so many bytes. -/
def tokens (file : String) : Nat → List Piece → List Token
  | _, [] => []
  | bytes, p :: pieces => p.token file bytes :: tokens file (bytes + byteSize p.text) pieces

end Piece

/-- White space, then pieces. -/
structure Layout where
  lead : List Char
  pieces : List Piece

namespace Layout

/-- The text that is laid out: all its characters in order. -/
def text (l : Layout) : List Char :=
  l.lead ++ l.pieces.flatMap Piece.text

/-- The tokens of a text that is laid out so, with the byte offsets of their lexemes. -/
def tokens (file : String) (l : Layout) : List Token :=
  Piece.tokens file (byteSize l.lead) l.pieces

/-- A layout that a scan reads: what comes before the first lexeme is white space, and the pieces
stand where a scan finds them. -/
structure Valid (l : Layout) : Prop where
  lead : Blank l.lead
  pieces : Piece.Stand l.pieces

end Layout

end MiniC.Token
