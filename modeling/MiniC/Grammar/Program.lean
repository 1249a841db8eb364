import MiniC.Grammar.Statement
import MiniC.Token.Scan
import MiniC.Typing.Node

/-!
Whole programs, with or without types. When types are wanted each top-level statement is checked
before the next one is parsed, so the first error in the order of statements is the one reported.
-/

namespace MiniC

namespace Grammar

/-- What is done with a statement as soon as it has been parsed. -/
abbrev Visit (σ : Type) := σ → Stmt → Except Diagnostic (Stmt × σ)

/-- Statements to the end of the tokens. Each consumes a token, so `fuel` is the number of tokens
ahead. -/
def topLevel {σ : Type} (visit : Visit σ) : (fuel : Nat) → σ → Parse (List Stmt)
  | 0, _ => return []
  | fuel + 1, state => do
    if (← get).ahead.isEmpty then return []
    else
      let stmt ← Parser.statement .standard
      match visit state stmt with
      | .error diagnostic => Parse.fail diagnostic
      | .ok (stmt, state) => return stmt :: (← topLevel visit fuel state)

/-- The program that the tokens make. -/
def program {σ : Type} (visit : Visit σ) (state : σ) (file : String) (tokens : List Token) :
    Except Diagnostic Program :=
  match topLevel visit tokens.length state (.start file tokens) with
  | .ok body cursor => .ok ⟨body, cursor.spanFrom (.start file)⟩
  | .error diagnostic _ => .error diagnostic

/-- Leaves statements as they are. -/
def Visit.none : Visit Unit := fun _ stmt => .ok (stmt, ())

/-- Annotates statements, each in the scopes that the ones before it leave. -/
def Visit.check : Visit Scopes := fun scopes stmt =>
  match stmt.check scopes with
  | ⟨stmt, scopes, .ok ()⟩ => .ok (stmt, scopes)
  | ⟨_, _, .error diagnostic⟩ => .error diagnostic

end Grammar

namespace Program

/-- Parses tokens without looking at names and types. -/
def parseUntyped (file : String) (tokens : List Token) : Except Diagnostic Program :=
  Grammar.program .none () file tokens

/-- Parses tokens and checks each top-level statement as soon as it is complete. -/
def parse (file : String) (tokens : List Token) : Except Diagnostic Program :=
  Grammar.program .check .fresh file tokens

/-- Scans, parses and checks a source text. -/
def ofSource (file source : String) : Except Diagnostic Program := do
  parse file (← Token.scan file source)

/-- The name of a source text that has no file. -/
def unnamed : String := "shell"

/-- Scans, parses and checks a source text, of a file if it has one. -/
def ofText (file? : Option String) (source : String) : Except Diagnostic Program :=
  ofSource (file?.getD unnamed) source

end Program

end MiniC
