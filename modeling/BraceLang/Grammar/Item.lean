import BraceLang.Grammar.Stmt

/-!
# Reading items and programs

A program is read item by item up to the end of the input. A token that starts no item is reported and
left behind. `parse` reads a whole token stream.
-/

set_option autoImplicit false

namespace BraceLang

namespace Production

/-- A parameter and the comma after it, which may be left out, or the end of the parameters. A curly
bracket shows that the closing parenthesis is missing; it stays current. -/
def parameter : Production (Round Declaration) := do
  if ← accept .closeParen then return .stop
  else if ← atEnd then
    report (.unterminated .closeParen)
    return .stop
  else if (← kind) = .openCurly then
    let found ← peek
    report (.unexpected .closeParen found.value)
    return .stop
  else
    let read ← declaration
    let _ ← accept .comma
    return .next (some read)

/-- Parameters in parentheses, up to the closing one or to where it is missing. -/
def parameters : Production (List Declaration) := do
  let _ ← expect .openParen
  rounds parameter

/-- A function: its type, its name, its parameters and its block. There is no colon between type and
name. -/
def function : Production Item := do
  let type ← dataType
  let name ← expectValue .identifier
  let params ← parameters
  let body ← block
  return .function type name params body

/-- An import: the word for it and the path, which is a literal. -/
def importFile : Production Item := do
  let _ ← expect .importWord
  let path ← expectValue .literal
  return .importFile path

/-- The block that a run starts with, behind the word that says so. A program may hold any number of
them. -/
def entry : Production Item := do
  let _ ← expect .entryWord
  let body ← block
  return .entry body

/-- An item, a token that starts none, or the end of the program. -/
def topLevel : Production (Round Item) := do
  if ← accept .endOfInput then return .stop
  else if ← leads .function then
    let read ← function
    return .next (some read)
  else if ← leads .declaration then
    let read ← declaration
    let _ ← endOfStatement
    return .next (some (.declaration read))
  else if ← leads .entry then
    let read ← entry
    return .next (some read)
  else if (← kind) = .importWord then
    let read ← importFile
    let _ ← endOfStatement
    return .next (some read)
  else
    let found ← peek
    report (.unexpectedTopLevel found.value)
    let _ ← advance
    return .next none

/-- A program: items up to the end of the input. An end token inside the stream ends it too. -/
def program : Production Program :=
  rounds topLevel

end Production

/-- The program that a token stream holds, and all that is wrong with it. The file name is for tokens that
come without one. -/
def parse (tokens : List Token) (file : String) : Program × List Diagnostic :=
  let (program, cursor) := Production.program (.ofTokens tokens file)
  (program, cursor.diagnostics.toList)

end BraceLang
