import BraceLang.Text.Classes
import BraceLang.Token

/-!
# Diagnostics

A diagnostic is the cause of a complaint and the position it is about. Causes are data; this module also
holds everything that is ever said about one: its name, its message and the tip that comes with it. A
message shows a piece of source between double quotes, with the characters that would not be seen, or would
be misread, spelled out after a backslash.
-/

set_option autoImplicit false

namespace BraceLang

namespace Text

/-- The code point of `c` in lower-case hexadecimal digits, marked as a number. -/
def spellNumber (c : Char) : List Char :=
  ['\\', 'u', '{'] ++ Nat.toDigits 16 c.toNat ++ ['}']

/-- One character as it stands between the quotes: after a backslash if it would not be seen or be misread,
and as it is otherwise. -/
def spellChar (c : Char) : List Char :=
  if c = '\x00' then ['\\', '0']
  else if c = '\t' then ['\\', 't']
  else if c = '\r' then ['\\', 'r']
  else if c = '\n' then ['\\', 'n']
  else if c = '"' then ['\\', '"']
  else if c = '\\' then ['\\', '\\']
  else if isExtender c || isUnprintable c then spellNumber c
  else [c]

/-- The text `s` between double quotes, in which every double quote of the text has a backslash before
it. -/
def quoted (s : String) : String :=
  String.ofList ('"' :: s.toList.flatMap spellChar ++ ['"'])

end Text

/-- What is wrong, with the texts and kinds that a message about it names. -/
inductive Cause where
  /-- No lexeme starts with the character `token`. -/
  | unrecognised (token : String)
  /-- The token found is not of the kind that has to stand here. -/
  | unexpected (expected : Kind) (token : String)
  /-- The token found starts nothing that may stand here. -/
  | misplaced (token : String) (reason : String)
  /-- The arithmetic operator has no meaning. -/
  | unknownOperator (operator : String)
  /-- The comparison has no meaning. -/
  | unknownComparison (operator : String)
  /-- The type keyword names no type. -/
  | unknownType (type : String)
  /-- The token starts no item. -/
  | unexpectedTopLevel (token : String)
  /-- The input ends inside brackets. -/
  | unterminated (expected : Kind)
deriving DecidableEq, Inhabited

namespace Cause

open Text (quoted)

/-- The name of the kind of complaint, without what it is about. -/
def name : Cause → String
  | unrecognised _ => "UnrecognisedToken"
  | unexpected _ _ => "UnexpectedToken"
  | misplaced _ _ => "UnexpectedTokenDetailed"
  | unknownOperator _ => "UnknownOperator"
  | unknownComparison _ => "UnknownComparison"
  | unknownType _ => "UnknownType"
  | unexpectedTopLevel _ => "UnexpectedTopLevel"
  | unterminated _ => "UnterminatedList"

/-- The complaint as a phrase, with the text that was found between double quotes, save that of an unknown
type. -/
def message : Cause → String
  | unrecognised token => "unrecognised token: " ++ quoted token
  | unexpected expected token =>
    "unexpected token: expected " ++ expected.name ++ ", found " ++ quoted token
  | misplaced token reason => "unexpected token (" ++ reason ++ "): " ++ quoted token
  | unknownOperator operator => "unrecognized math operator " ++ quoted operator
  | unknownComparison operator => "unrecognized comparison operator " ++ quoted operator
  | unknownType type => "unknown type " ++ type ++ " found"
  | unexpectedTopLevel token => "unexpected token on top level: " ++ quoted token
  | unterminated expected =>
    "unterminated list: expected " ++ expected.name ++ " before end of input"

/-- Advice for whoever wrote the source. What was found stands between backquotes and as it is, without
escapes. -/
def tip? : Cause → Option String
  | unrecognised _ => none
  | unexpected expected token =>
    some ("Unexpected token: `" ++ token ++ "`, expected " ++ expected.name)
  | misplaced token reason => some ("Unexpected token: `" ++ token ++ "`, " ++ reason)
  | unknownOperator operator =>
    some ("Unrecognized math operator `" ++ operator ++ "`, expected one of `+ - * /`")
  | unknownComparison operator =>
    some ("Unrecognized comparison operator `" ++ operator ++ "`, only `==` is supported")
  | unknownType type => some ("Unknown type `" ++ type ++ "` found")
  | unexpectedTopLevel token =>
    some ("`" ++ token ++ "` cannot start a top-level item, expected an import, declaration, "
      ++ "function or entry block")
  | unterminated expected =>
    some ("Reached end of input while looking for " ++ expected.name)

end Cause

/-- A complaint about a place: what is wrong, and where the token it is about starts. -/
structure Diagnostic where
  cause : Cause
  position : Position
deriving DecidableEq, Inhabited

/-- The complaint and its place, on one line: the phrase, the file and the offset. -/
def Diagnostic.message (diagnostic : Diagnostic) : String :=
  diagnostic.cause.message ++ " at " ++ diagnostic.position.file ++ ":"
    ++ toString diagnostic.position.offset.toNat

end BraceLang
