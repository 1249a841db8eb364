import MiniC.Diagnostic
import MiniC.Source.Position
import MiniC.Text.Lexical

/-!
How a diagnostic is shown beside its source: the line it is in, and below it a caret.
-/

namespace MiniC

namespace Report

/-- The blanks and tabs that a line starts with are not shown. -/
def isIndent (c : Char) : Bool :=
  c == ' ' || c == '\t'

/-- A text without the white space at its end. -/
def trimEnd (text : List Char) : List Char :=
  (text.reverse.dropWhile Text.isWhiteSpace).reverse

end Report

open Report in
/-- The header, the name of the source, and the line with a row of dashes below it that leads to a
caret. Dashes count bytes. -/
def Diagnostic.report (diagnostic : Diagnostic) (name source : String) : String :=
  let line := Source.lineAt source diagnostic.position.offset
  let number := toString line.number
  let bar := String.ofList (List.replicate (number.length + 1) ' ') ++ "|"
  let shown := line.text.toList.dropWhile isIndent
  let dashes := line.column - (line.text.toList.takeWhile isIndent).length
  diagnostic.header ++ "\n" ++
    "-> " ++ name ++ "\n" ++
    bar ++ "\n" ++
    number ++ " | " ++ String.ofList (trimEnd shown) ++ "\n" ++
    bar ++ " " ++ String.ofList (List.replicate dashes '-') ++ "^\n"

end MiniC
