import MiniC.Source.Position
import MiniC.Text.Lexical
import MiniC.Token.Basic

/-!
From text to tokens. At each place the characters decide which lexeme begins there, if any; white
space is a lexeme that gives no token. Names and numbers must not run into a further word
character, so a lexeme is never cut out of a longer word.
-/

namespace MiniC.Token

open Text Source

/-- A lexeme without its first character, and the kind of token it makes; white space makes none. -/
structure Lexeme where
  kind : Option Kind
  tail : List Char

/-- Whether a word may end before `rest`. -/
def endsWord (rest : List Char) : Bool :=
  !rest.head?.any isWord

/-- The first character of an identifier. -/
def isNameStart (c : Char) : Bool :=
  c.isAlpha || c == '_'

/-- A further character of an identifier. -/
def isNameChar (c : Char) : Bool :=
  c.isAlphanum || c == '_'

/-- A keyword or identifier that begins with `c`. -/
def name? (c : Char) (rest : List Char) : Option Lexeme :=
  let tail := rest.takeWhile isNameChar
  if endsWord (rest.dropWhile isNameChar) then
    let kind := if String.ofList (c :: tail) ∈ reserved then Kind.keyword else .identifier
    some ⟨kind, tail⟩
  else none

/-- The point and digits of a fraction at the head of `rest`. -/
def fraction? : List Char → Option (List Char)
  | '.' :: rest =>
    let digits := rest.takeWhile isDecimalDigit
    if digits.isEmpty || !endsWord (rest.dropWhile isDecimalDigit) then none
    else some ('.' :: digits)
  | _ => none

/-- A number whose first digit has been read. Digits with a fraction make a `float`; without one
they make an integer if a word may end there. -/
def number? (rest : List Char) : Option Lexeme :=
  let digits := rest.takeWhile isDecimalDigit
  let rest := rest.dropWhile isDecimalDigit
  match fraction? rest with
  | some fraction => some ⟨some .float, digits ++ fraction⟩
  | none => if endsWord rest then some ⟨some .integer, digits⟩ else none

/-- The operators of two characters. -/
def doubleOperators : List (Char × Char) :=
  [('|', '|'), ('&', '&'), ('=', '='), ('!', '='), ('<', '='), ('>', '=')]

/-- The operators of one character. -/
def singleOperators : List Char :=
  ['+', '-', '*', '/', '=', '<', '>', '!', ';', '(', ')', '\x7b', '\x7d', ',', '[', ']']

/-- An operator that begins with `c`, the longer one if two do. -/
def operator? (c : Char) (rest : List Char) : Option Lexeme :=
  if rest.head?.any fun d => (c, d) ∈ doubleOperators then some ⟨some .operator, rest.take 1⟩
  else if c ∈ singleOperators then some ⟨some .operator, []⟩
  else none

/-- A string whose opening quote has been read; it ends with the next quote. -/
def string? (rest : List Char) : Option Lexeme :=
  let body := rest.takeWhile (· != '"')
  if body.length < rest.length then some ⟨some .string, body ++ ['"']⟩ else none

/-- The lexeme that begins with `c` and goes on in `rest`. -/
def lexeme? (c : Char) (rest : List Char) : Option Lexeme :=
  if isNameStart c then name? c rest
  else if isDecimalDigit c then number? rest
  else if isWhiteSpace c then some ⟨none, rest.takeWhile isWhiteSpace⟩
  else if c = '"' then string? rest
  else operator? c rest

/-- Scans a text that `bytes` bytes and `chars` characters precede. The first `skip` characters
belong to a lexeme that has been taken already. -/
def scanFrom (file : String) : (skip bytes chars : Nat) → List Char → Except Diagnostic (List Token)
  | _, _, _, [] => .ok []
  | skip + 1, bytes, chars, c :: rest =>
    scanFrom file skip (bytes + c.utf8Size) (chars + 1) rest
  | 0, bytes, chars, c :: rest =>
    match lexeme? c rest with
    | none =>
      .error ⟨.unrecognised (String.singleton c) (UInt32.ofNat chars), .ofBytes bytes file⟩
    | some ⟨kind, tail⟩ => do
      let tokens ← scanFrom file tail.length (bytes + c.utf8Size) (chars + 1) rest
      match kind with
      | none => .ok tokens
      | some kind =>
        let stop := bytes + byteSize (c :: tail)
        .ok (⟨kind, String.ofList (c :: tail), .ofBytes bytes file, .ofBytes stop file⟩ :: tokens)

/-- The tokens of `source`, or the first character that begins no lexeme. -/
def scan (file source : String) : Except Diagnostic (List Token) :=
  scanFrom file 0 0 0 source.toList

end MiniC.Token
