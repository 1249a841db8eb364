import MiniC.Grammar.Program
import MiniC.Report
import MiniC.Tree.Node

/-!
The commands, as functions from what a file holds to what is printed.
-/

namespace MiniC

/-- Why a file could not be read as text. -/
inductive ReadFailure where
  | missing
  | notText
  | system (reason : String)

def ReadFailure.reason : ReadFailure → String
  | .missing => "No such file or directory (os error 2)"
  | .notText => "stream did not contain valid UTF-8"
  | .system reason => reason

/-- What a command prints, and whether it succeeded. -/
structure Output where
  out : String
  err : String
  success : Bool

namespace Output

def printed (out : String) : Output := ⟨out, "", true⟩

def failed (err : String) : Output := ⟨"", err, false⟩

/-- One output after another; both must succeed. -/
def append (first second : Output) : Output :=
  ⟨first.out ++ second.out, first.err ++ second.err, first.success && second.success⟩

/-- The exit status. -/
def status (output : Output) : UInt32 :=
  if output.success then 0 else 1

end Output

/-- `KIND lexeme`. -/
def Token.listing (token : Token) : String :=
  token.kind.name ++ " " ++ token.lexeme

/-- What can be asked for on the command line. -/
inductive Command where
  | tokenize (path : String)
  | parse (path : String)
  | demo

namespace Command

/-- The text that bytes encode. -/
def decode (bytes : ByteArray) : Except ReadFailure String :=
  match String.fromUTF8? bytes with
  | some text => .ok text
  | none => .error .notText

/-- The last part of a path that names a file; a path without one is its own name. -/
def fileName (path : String) : String :=
  match ((path.splitOn "/").filter fun part => part ≠ "" && part ≠ ".").getLast? with
  | none | some ".." => path
  | some name => name

/-- A line for each token of a source. -/
def listTokens (name source : String) : Output :=
  match Token.scan name source with
  | .ok tokens => .printed (String.join (tokens.map fun token => token.listing ++ "\n"))
  | .error diagnostic => .failed (diagnostic.report name source)

/-- The outline of a source that is well typed. -/
def showTree (name source : String) : Output :=
  match Program.ofSource name source with
  | .ok program => .printed program.outline
  | .error diagnostic => .failed (diagnostic.report name source)

/-- Applies `action` to the name and text of a file. -/
def withFile (path : String) (content : Except ReadFailure String)
    (action : (name source : String) → Output) : Output :=
  match content with
  | .ok source => action (fileName path) source
  | .error failure =>
    .failed ("Error: failed to read " ++ path ++ "\n\nCaused by:\n    " ++ failure.reason ++ "\n")

/-- Short programs that show the language. -/
def samples : List (String × List String) := [
  ("declare", [
    "int nums = 5;",
    "string hello = \"hello, world!\";",
    "float fl = 3.14;"]),
  ("arithmetic", [
    "int x = 10;",
    "int y= 10;",
    "",
    "int sum = x + y;",
    "int diff = x - y;",
    "int prod = x * y;",
    "int quot = x / y;"]),
  ("if", [
    "int x = 10;",
    "int y;",
    "if (x > 5) \x7b",
    "    y = x + 5;",
    "\x7d else \x7b",
    "    y = x - 5;",
    "\x7d"]),
  ("for", [
    "for (int i = 0; i < 10; i = i + 1) \x7b",
    "    for (int j = 0; j < 10; j = j + 1) \x7b",
    "        int x = i + j * 2;",
    "    \x7d",
    "\x7d"]),
  ("while", [
    "int x = 5;",
    "int y = 0;",
    "while (x > 0) \x7b",
    "    y = y + 1;",
    "\x7d"])]

/-- The outlines of the samples, each under its name. -/
def showSamples : Output :=
  samples.foldl (fun output (name, lines) =>
    let source := "\n" ++ String.join (lines.map (· ++ "\n"))
    (output.append (.printed ("== " ++ name ++ " ==\n"))).append (showTree name source))
    (.printed "")

/-- The file that a command reads. -/
def path? : Command → Option String
  | .tokenize path | .parse path => some path
  | .demo => none

/-- Runs a command on what its file holds. -/
def run (content : Except ReadFailure String) : Command → Output
  | .tokenize path => withFile path content listTokens
  | .parse path => withFile path content showTree
  | .demo => showSamples

def ofArguments? : List String → Option Command
  | ["tokenize", path] => some (.tokenize path)
  | ["parse", path] => some (.parse path)
  | ["demo"] => some .demo
  | _ => none

end Command

end MiniC
