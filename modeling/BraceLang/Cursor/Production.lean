import BraceLang.Cursor

/-!
# Productions

A production reads a construct of the grammar: it moves a cursor and gives what it read. It always
succeeds; what is wrong with the input is reported on the cursor. This module has the productions that
know nothing of the grammar: taking a token, looking ahead, and repeating.
-/

set_option autoImplicit false

namespace BraceLang

/-- Something that can be read at a cursor: it gives a value and the cursor as it is afterwards. -/
abbrev Production (α : Type) := StateM Cursor α

namespace Production

/-- The current token, which stays current, for productions that need its value and not only its kind. -/
def peek : Production Token := fun cursor =>
  (cursor.current, cursor)

/-- The token before the current one, which is the one taken last. -/
def previous : Production Token := fun cursor =>
  (cursor.previous, cursor)

/-- The kind of the current token. -/
def kind : Production Kind := fun cursor =>
  (cursor.kind, cursor)

/-- Whether the current token is an end token, where an unclosed list has to stop. -/
def atEnd : Production Bool := fun cursor =>
  (cursor.atEnd, cursor)

/-- The current token, which is left behind, unless it is the last of the stream. -/
def advance : Production Token := fun cursor =>
  (cursor.current, cursor.step)

/-- Takes the current token if it is of the given kind, and says whether it was. -/
def accept (kind : Kind) : Production Bool := fun cursor =>
  if cursor.kind = kind then (true, cursor.step) else (false, cursor)

/-- Reports a complaint about the current token and stays there. -/
def report (cause : Cause) : Production Unit := fun cursor =>
  ((), cursor.report cause)

/-- Reports a complaint about a given token, which need not be the current one. -/
def reportOn (token : Token) (cause : Cause) : Production Unit := fun cursor =>
  ((), cursor.reportAt cause (cursor.positionOf token))

/-- Takes a token of the given kind. A token of another kind is reported and left behind all the same. -/
def expect (kind : Kind) : Production (Option Token) := fun cursor =>
  if cursor.kind = kind then (some cursor.current, cursor.step)
  else (none, (cursor.report (.unexpected kind cursor.current.value)).step)

/-- Takes a token of the given kind for its value, which is empty where the token is missing. -/
def expectValue (kind : Kind) : Production String := do
  let token? ← expect kind
  return (token?.map Token.value).getD ""

/-! ### Looking ahead -/

/-- Takes tokens of the given kinds in turn, up to the first that is of another kind. -/
def acceptAll : List Kind → Production Bool
  | [] => pure true
  | kind :: kinds => do
    if ← accept kind then acceptAll kinds else pure false

/-- Runs a check and goes back to the place remembered before it, whatever the check found. What it reported
stays. -/
def lookahead (check : Production Bool) : Production Bool := fun cursor =>
  let (verdict, after) := check cursor.mark
  (verdict, after.restore?.getD after)

/-! ### Repeating -/

/-- How one round of a repetition ends, and the element that it read, if it read one. -/
inductive Round (α : Type) where
  /-- There was nothing more to read. -/
  | stop
  /-- This is the last element. -/
  | last (element : α)
  /-- This is an element, or input that gave none, and more may follow. -/
  | next (element? : Option α)

/-- At most `limit` rounds, whose elements follow the reverse of `done`. -/
def roundsWithin {α : Type} (round : Production (Round α)) :
    (limit : Nat) → (done : List α) → Production (List α)
  | 0, done => pure done.reverse
  | limit + 1, done => do
    match ← round with
    | .stop => pure done.reverse
    | .last element => pure (element :: done).reverse
    | .next none => roundsWithin round limit done
    | .next (some element) => roundsWithin round limit (element :: done)

/-- Rounds until one is the last. A round that is followed by another takes a token, so there are no more
rounds than tokens. -/
def rounds {α : Type} (round : Production (Round α)) : Production (List α) := fun cursor =>
  roundsWithin round cursor.remaining [] cursor

end Production

end BraceLang
