import BraceLang.Text.Bytes

/-!
# Lines of a source

A source is the concatenation of its lines, each of which ends with a newline but the last. `Line.at?` finds the line
that a byte offset falls into. The end of the source falls into no line: it belongs to what follows the last newline,
which may be nothing.
-/

set_option autoImplicit false

namespace BraceLang

/-- A place in a source, seen from the line it is in. -/
structure Line where
  /-- The number of the line, counted from one. -/
  number : Nat
  /-- The characters of the line, with the newline at its end. -/
  text : List Char
  /-- The number of bytes of the line before the place. -/
  column : Nat
deriving DecidableEq, Inhabited

namespace Line

open Text (byteLength)

/-- Puts a character in front of a text that has been cut into lines. -/
def consChar (c : Char) : List (List Char) → List (List Char)
  | [] => [[c]]
  | line :: lines => if c = '\n' then [c] :: line :: lines else (c :: line) :: lines

/-- Cuts a text after each newline. No line follows a newline at the end. -/
def split (cs : List Char) : List (List Char) :=
  cs.foldr consChar []

/-- The lines of a text make up the text, so cutting it into lines loses nothing. -/
theorem flatten_split (cs : List Char) : (split cs).flatten = cs := by
  induction cs with
  | nil => rfl
  | cons c cs ih =>
    rw [split, List.foldr_cons, ← split]
    cases h : split cs with
    | nil => simpa [h, consChar] using ih
    | cons line lines =>
      rw [h, List.flatten_cons] at ih
      rw [consChar]
      split <;> simp [ih]

/-- The place `offset` bytes into a source, in one of `lines`. The first of them has the given number and starts
`start` bytes into the source. -/
def inside? (number start offset : Nat) : List (List Char) → Option Line
  | [] => none
  | line :: lines =>
    let stop := start + byteLength line
    if start ≤ offset ∧ offset < stop then some ⟨number, line, offset - start⟩
    else inside? (number + 1) stop offset lines

/-- What follows the last newline of a text, which is all of it where there is none. -/
def last (cs : List Char) : List Char :=
  (cs.reverse.takeWhile (· ≠ '\n')).reverse

/-- The place just past the last character of a source, which is on a line of its own behind a newline. -/
def ending (source : List Char) : Line :=
  ⟨source.count '\n' + 1, last source, byteLength (last source)⟩

/-- The place `offset` bytes into a source. There is none past the end. -/
def at? (source : List Char) (offset : Nat) : Option Line :=
  match inside? 1 0 offset (split source) with
  | some line => some line
  | none => if offset = byteLength source then some (ending source) else none

end Line

end BraceLang
