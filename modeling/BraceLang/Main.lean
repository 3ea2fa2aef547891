import BraceLang.Command

/-!
# The program

Reads the file that the arguments name and hands it to the command.
-/

set_option autoImplicit false

namespace BraceLang.Command

/-- The failure that an error of the system stands for. -/
def readFailureOf : IO.Error → ReadFailure
  | .noFileOrDirectory .. => .notFound
  | .inappropriateType _ 21 _ => .isADirectory
  | .inappropriateType .. => .notADirectory
  | error => .other (toString error)

/-- The text at a path of the disk. -/
def readText (path : String) : IO (Except ReadFailure String) := do
  try
    let bytes ← IO.FS.readBinFile path
    match String.fromUTF8? bytes with
    | some text => return .ok text
    | none => return .error .notText
  catch error => return .error (readFailureOf error)

end BraceLang.Command

open BraceLang

/-- Runs the command. -/
def main (args : List String) : IO UInt32 := do
  let text ← match args with
    | [path] => Command.readText path
    | _ => pure (.error .notFound)
  let outcome := Command.run (fun _ => text) args
  IO.print outcome.stdout
  IO.eprint outcome.stderr
  return outcome.code
