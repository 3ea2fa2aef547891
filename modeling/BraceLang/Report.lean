import BraceLang.Diagnostic
import BraceLang.Source.Line
import BraceLang.Text.Classes

/-!
# Reports

A report shows a diagnostic to the author of the source: what it is, the line it is about and a caret under
the place. The line is shown without the blanks around it. The caret moves left by as many columns as there
are spaces at the start of the line.
-/

set_option autoImplicit false

namespace BraceLang.Report

/-- A report draws its caret in one of this many columns. -/
def maxColumns : Nat := 65535

/-- The line that names the complaint, with the tip in brackets if there is one. -/
def heading (cause : Cause) : String :=
  match cause.tip? with
  | none => "Error: " ++ cause.name ++ "\n"
  | some tip => "Error: " ++ cause.name ++ " (" ++ tip ++ ")\n"

/-- The number of spaces at the start of a line. Other blanks do not count. -/
def leadingSpaces (text : List Char) : Nat :=
  (text.takeWhile (· = ' ')).length

/-- The number of columns to the left of the caret, which are counted in bytes up to the place, without the
leading spaces. -/
def caretOffset (line : Line) : Nat :=
  line.column - leadingSpaces line.text

/-- The bar that sets the drawing off from a margin as wide as the number of the line. -/
def bar (number : String) : String :=
  String.ofList (List.replicate (number.length + 1) ' ') ++ "|"

/-- The line with a caret under the place, between two bars, and with as many dashes before the caret as it
has columns to its left. -/
def drawing (line : Line) : String :=
  let number := toString line.number
  bar number ++ "\n"
    ++ number ++ " | " ++ String.ofList (Text.trim (line.text.dropWhile (· = ' '))) ++ "\n"
    ++ bar number ++ " " ++ String.ofList (List.replicate (caretOffset line) '-') ++ "^\n"

/-- The report of a diagnostic on `source`. If the place is not in the source, the message stands in for
the line. There is no report if the caret is too far to the right. -/
def render? (diagnostic : Diagnostic) (source fileName : String) : Option String :=
  let top := heading diagnostic.cause ++ "-> " ++ fileName ++ "\n"
  match Line.at? source.toList diagnostic.position.offset.toNat with
  | none => some (top ++ diagnostic.message ++ "\n")
  | some line =>
    if caretOffset line < maxColumns then some (top ++ drawing line) else none

end BraceLang.Report
