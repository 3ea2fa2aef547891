import BraceLang.Diagnostic

/-!
# Cursors over tokens

A cursor is everything that reading a token stream keeps: the tokens, the place reached in them, a stack of
places to go back to, the file name for tokens without one, and the diagnostics so far. The stream always
ends with a token of kind `endOfInput`, and the cursor never leaves it behind, so there is always a current
token.
-/

set_option autoImplicit false

namespace BraceLang

/-- The state of reading a token stream: what is read, how far it is read and what was found wrong. -/
structure Cursor where
  /-- The stream, closed by an end token. -/
  tokens : Array Token
  /-- The number of tokens before the current one. -/
  pos : Nat
  /-- The places to go back to, the newest first. -/
  checkpoints : List Nat
  /-- The file of tokens that name none. -/
  file : String
  /-- What has been reported, the oldest first. -/
  diagnostics : Array Diagnostic
deriving DecidableEq, Inhabited

namespace Cursor

/-- The stream with an end token. One that is added stands where the last token does. -/
def closed (tokens : List Token) : List Token :=
  match tokens.getLast? with
  | some last => if last.kind = .endOfInput then tokens else tokens ++ [.ending last.span]
  | none => [.ending .nowhere]

/-- A closed stream ends with an end token, so that a cursor always has a token to stand on. -/
theorem getLast?_closed (tokens : List Token) :
    ∃ last, (closed tokens).getLast? = some last ∧ last.kind = .endOfInput := by
  unfold closed
  split
  · rename_i last h
    split
    · exact ⟨last, h, by assumption⟩
    · exact ⟨.ending last.span, by simp, rfl⟩
  · exact ⟨.ending .nowhere, rfl, rfl⟩

/-- A cursor at the start of a stream, which is closed first. Nothing is remembered or reported yet. -/
def ofTokens (tokens : List Token) (file : String) : Cursor :=
  ⟨(closed tokens).toArray, 0, [], file, #[]⟩

/-- The token at place `i`, and an end token beyond the stream. -/
def tokenAt (cursor : Cursor) (i : Nat) : Token :=
  cursor.tokens.getD i (.ending .nowhere)

/-- The token the cursor stands on. On a closed stream there always is one. -/
def current (cursor : Cursor) : Token :=
  cursor.tokenAt cursor.pos

/-- The token before the cursor, or the first if there is none before it. -/
def previous (cursor : Cursor) : Token :=
  cursor.tokenAt (cursor.pos - 1)

/-- The kind of the token the cursor stands on, by which most productions decide. -/
def kind (cursor : Cursor) : Kind :=
  cursor.current.kind

/-- Whether the cursor stands on an end token, be it the last token of the stream or one inside it. -/
def atEnd (cursor : Cursor) : Bool :=
  cursor.kind = .endOfInput

/-- The number of tokens from the current one on, which bounds every loop over them. -/
def remaining (cursor : Cursor) : Nat :=
  cursor.tokens.size - cursor.pos

/-- The cursor one token on, unless it stands on the last. -/
def step (cursor : Cursor) : Cursor :=
  if cursor.pos + 1 < cursor.tokens.size then { cursor with pos := cursor.pos + 1 } else cursor

/-- A step moves the place only. The stream that is read stays the same. -/
@[simp]
theorem tokens_step (cursor : Cursor) : cursor.step.tokens = cursor.tokens := by
  unfold step
  split <;> rfl

/-- A cursor never steps back: on the last token it stays, and elsewhere it goes on by one. -/
theorem pos_le_pos_step (cursor : Cursor) : cursor.pos ≤ cursor.step.pos := by
  unfold step
  split
  · exact Nat.le_succ cursor.pos
  · exact Nat.le_refl cursor.pos

/-- A cursor inside its stream stays inside, since the step off the last token is not taken. -/
theorem pos_step_lt {cursor : Cursor} (h : cursor.pos < cursor.tokens.size) :
    cursor.step.pos < cursor.tokens.size := by
  unfold step
  split <;> assumption

/-- Remembers the place the cursor stands at. Places may be remembered one above the other. -/
def mark (cursor : Cursor) : Cursor :=
  { cursor with checkpoints := cursor.pos :: cursor.checkpoints }

/-- Goes back to the place remembered last and forgets it. What has been reported since stays. Without a
place there is nothing to go back to. -/
def restore? (cursor : Cursor) : Option Cursor :=
  match cursor.checkpoints with
  | [] => none
  | pos :: checkpoints => some { cursor with pos, checkpoints }

/-- Forgets the place remembered last and stays where it is. Without a place there is nothing to forget. -/
def discard? (cursor : Cursor) : Option Cursor :=
  match cursor.checkpoints with
  | [] => none
  | _ :: checkpoints => some { cursor with checkpoints }

/-- Where a token starts. A token that names no file is placed in the file of the cursor. -/
def positionOf (cursor : Cursor) (token : Token) : Position :=
  token.span.start.orIn cursor.file

/-- Adds a complaint about a place, behind those that are there. Nothing else about the cursor changes. -/
def reportAt (cursor : Cursor) (cause : Cause) (position : Position) : Cursor :=
  { cursor with diagnostics := cursor.diagnostics.push ⟨cause, position⟩ }

/-- Adds a complaint about the current token, at the place where that token starts. -/
def report (cursor : Cursor) (cause : Cause) : Cursor :=
  cursor.reportAt cause (cursor.positionOf cursor.current)

end Cursor

end BraceLang
