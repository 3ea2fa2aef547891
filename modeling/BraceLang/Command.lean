import BraceLang.Files
import BraceLang.Grammar.Item
import BraceLang.Lexeme
import BraceLang.Report
import BraceLang.Tree.Lower
import BraceLang.Tree.Outline

/-!
# The command

The command takes the path of one source. It writes an outline of each item to the standard output and a
report of each diagnostic to the error output. Its exit code says whether there were diagnostics, and
whether there was a source at all.
-/

set_option autoImplicit false

namespace BraceLang.Command

/-- The name under which the command is run. -/
def name : String := "frontend"

/-- What a run leaves behind: its exit code and what it has written. -/
structure Outcome where
  code : UInt32
  stdout : String
  stderr : String
deriving DecidableEq, Inhabited

/-- The exit code of a run on a source without diagnostics. -/
def success : UInt32 := 0

/-- The exit code of a run on a source with diagnostics. -/
def failure : UInt32 := 1

/-- The exit code of a run without a source, be it that no path was given or that it cannot be read. -/
def noSource : UInt32 := 2

/-- The exit code of a run that cannot draw a report. -/
def noReport : UInt32 := 101

/-- The line between two outlines, which is written behind the last one too. -/
def separator : String := "---=====---\n"

/-- Adds the reports of diagnostics to the error output. A report that cannot be drawn ends the run. -/
def withReports (source fileName : String) : Outcome → List Diagnostic → Outcome
  | outcome, [] => outcome
  | outcome, diagnostic :: diagnostics =>
    match Report.render? diagnostic source fileName with
    | some report =>
      withReports source fileName { outcome with stderr := outcome.stderr ++ report } diagnostics
    | none => { outcome with code := noReport }

/-- A run on a source: its outlines and reports, or, where a character starts no lexeme, one report
alone. -/
def runOn (source fileName : String) : Outcome :=
  match tokenize source fileName with
  | .error diagnostic => withReports source fileName ⟨failure, "", ""⟩ [diagnostic]
  | .ok tokens =>
    let (program, diagnostics) := parse tokens fileName
    let outlines := program.toTrees.foldl (fun out tree => tree.outlineOnto out 0 ++ separator) ""
    withReports source fileName
      ⟨if diagnostics.isEmpty then success else failure, outlines, ""⟩ diagnostics

/-- A run with the given arguments, where `read` gives the text at a path. -/
def run (read : String → Except ReadFailure String) : List String → Outcome
  | [path] =>
    match read path with
    | .ok source => runOn source (Files.lastName path)
    | .error reason =>
      ⟨noSource, "", "Failed to read " ++ path ++ ": " ++ reason.message ++ "\n"⟩
  | _ => ⟨noSource, "", "usage: " ++ name ++ " <file>\n"⟩

end BraceLang.Command
