import BraceLang.Text.Classes

/-!
# The shapes of lexemes

A lexeme has one of sixteen shapes. For each, `Shape.extent?` says how many characters at the start of a
text form a lexeme of that shape. Where several shapes fit, the first of `Shape.all` counts, so the order
of that list is part of the language: a comment comes before the operator `/`, and a comparison before `=`.
-/

set_option autoImplicit false

namespace BraceLang.Lexeme

/-- The shapes that a lexeme can have. Blanks and comments are among them, so that every part of a source
has one. -/
inductive Shape where
  /-- A run of white space. -/
  | blank
  /-- Two slashes and the rest of their line. -/
  | comment
  /-- Letters, digits and underscores that do not start with a digit. -/
  | word
  /-- A run of digits. -/
  | number
  /-- Any number of units between double quotes. -/
  | text
  /-- One unit between single quotes. -/
  | character
  | openCurly
  | closeCurly
  | openParen
  | closeParen
  | comparison
  | assignment
  | colon
  | semicolon
  | comma
  | arithmetic
deriving DecidableEq, Inhabited

/-- Whether a word may start with `c`, which is a letter without an accent or an underscore. -/
def isWordStart (c : Char) : Bool :=
  c.isAlpha || c == '_'

/-- Whether a word may go on with `c`: what it may start with, or a digit. -/
def isWordPart (c : Char) : Bool :=
  c.isAlphanum || c == '_'

/-- The number of characters at the start of `cs` that satisfy `p`, if there are any. -/
def run? (p : Char → Bool) (cs : List Char) : Option Nat :=
  match (cs.takeWhile p).length with
  | 0 => none
  | n + 1 => some (n + 1)

/-- The extent of a comment, which leaves the newline that ends it. -/
def comment? : List Char → Option Nat
  | c :: d :: cs =>
    if c = '/' ∧ d = '/' then some (2 + (cs.takeWhile (· ≠ '\n')).length) else none
  | _ => none

/-- The extent of a word: a letter or an underscore, and all letters, digits and underscores behind it. -/
def word? : List Char → Option Nat
  | c :: cs => if isWordStart c then some (1 + (cs.takeWhile isWordPart).length) else none
  | [] => none

/-- The extent of the unit at the start of `cs`, inside a literal between quotes `q`: a backslash and the
character after it, which is no newline, or a character other than the backslash and the quote. -/
def unit? (q : Char) : List Char → Option Nat
  | [] => none
  | [c] => if c = q ∨ c = '\\' then none else some 1
  | c :: d :: _ =>
    if c = '\\' then if d = '\n' then none else some 2
    else if c = q then none else some 1

/-- The extent of the units and the closing quote at the start of `cs`, after `n` characters that have been
read. -/
def closing? (q : Char) (n : Nat) : List Char → Option Nat
  | [] => none
  | [c] => if c = q then some (n + 1) else none
  | c :: d :: cs =>
    if c = q then some (n + 1)
    else if c = '\\' then if d = '\n' then none else closing? q (n + 2) cs
    else closing? q (n + 1) (d :: cs)

/-- The extent of any number of units between double quotes, both quotes included. -/
def text? : List Char → Option Nat
  | c :: cs => if c = '"' then closing? '"' 1 cs else none
  | [] => none

/-- The extent of exactly one unit between single quotes, both quotes included. -/
def character? : List Char → Option Nat
  | c :: cs =>
    if c = '\'' then
      match unit? '\'' cs with
      | some n => if cs[n]? = some '\'' then some (n + 2) else none
      | none => none
    else none
  | [] => none

/-- The extent of a comparison, two characters where they make one. -/
def comparison? : List Char → Option Nat
  | [] => none
  | [c] => if c = '<' ∨ c = '>' then some 1 else none
  | c :: d :: _ =>
    if d = '=' ∧ c ∈ ['=', '!', '<', '>'] then some 2
    else if c = '<' ∨ c = '>' then some 1 else none

/-- The extent of a single character out of `marks`, or nothing if another one stands there. -/
def mark? (marks : List Char) : List Char → Option Nat
  | c :: _ => if c ∈ marks then some 1 else none
  | [] => none

namespace Shape

/-- The shapes in the order of preference: where two of them fit, the earlier one in this list is taken. -/
def all : List Shape :=
  [blank, comment, word, number, text, character, openCurly, closeCurly, openParen, closeParen,
   comparison, assignment, colon, semicolon, comma, arithmetic]

/-- The number of characters at the start of a text that form a lexeme of the shape. -/
def extent? : Shape → List Char → Option Nat
  | blank => run? Text.isBlank
  | comment => comment?
  | word => word?
  | number => run? Char.isDigit
  | text => text?
  | character => character?
  | openCurly => mark? ['{']
  | closeCurly => mark? ['}']
  | openParen => mark? ['(']
  | closeParen => mark? [')']
  | comparison => comparison?
  | assignment => mark? ['=']
  | colon => mark? [':']
  | semicolon => mark? [';']
  | comma => mark? [',']
  | arithmetic => mark? ['-', '+', '*', '/', '%']

end Shape

/-! ### Extents lie inside the text -/

/-- A run of characters takes one at least, and never more than there are. -/
theorem run?_bounds {p : Char → Bool} {cs : List Char} {n : Nat} (h : run? p cs = some n) :
    0 < n ∧ n ≤ cs.length := by
  have hle := (List.takeWhile_prefix (l := cs) p).length_le
  unfold run? at h
  split at h <;> simp_all
  omega

/-- A comment takes its first slash at least and stays inside the text that is left. -/
theorem comment?_bounds {cs : List Char} {n : Nat} (h : comment? cs = some n) :
    0 < n ∧ n ≤ cs.length := by
  match cs, h with
  | c :: d :: cs, h =>
    have hle := (List.takeWhile_prefix (l := cs) (· ≠ '\n')).length_le
    simp only [comment?] at h
    split at h <;> simp_all
    omega

/-- A word takes its first character at least and stays inside the text that is left. -/
theorem word?_bounds {cs : List Char} {n : Nat} (h : word? cs = some n) :
    0 < n ∧ n ≤ cs.length := by
  match cs, h with
  | c :: cs, h =>
    have hle := (List.takeWhile_prefix (l := cs) isWordPart).length_le
    simp only [word?] at h
    split at h <;> simp_all
    omega

/-- The quote that closes a literal is found behind the units counted so far and inside the text that is
left. -/
theorem closing?_bounds {q : Char} {k n : Nat} {cs : List Char} (h : closing? q k cs = some n) :
    k < n ∧ n ≤ k + cs.length := by
  fun_induction closing? q k cs <;> simp_all <;> omega

/-- A literal between double quotes takes both of them and stays inside the text that is left. -/
theorem text?_bounds {cs : List Char} {n : Nat} (h : text? cs = some n) :
    0 < n ∧ n ≤ cs.length := by
  match cs, h with
  | c :: cs, h =>
    simp only [text?] at h
    split at h
    · have := closing?_bounds h
      simp only [List.length_cons]
      omega
    · simp at h

/-- A literal between single quotes is not empty and stays inside the text that is left. -/
theorem character?_bounds {cs : List Char} {n : Nat} (h : character? cs = some n) :
    0 < n ∧ n ≤ cs.length := by
  match cs, h with
  | c :: cs, h =>
    simp only [character?] at h
    repeat' split at h
    all_goals simp_all
    rename_i hlast
    have := (List.getElem?_eq_some_iff.1 hlast).1
    omega

/-- A comparison of one or two characters fits into the text that is left. -/
theorem comparison?_bounds {cs : List Char} {n : Nat} (h : comparison? cs = some n) :
    0 < n ∧ n ≤ cs.length := by
  unfold comparison? at h
  repeat' split at h
  all_goals simp_all
  all_goals omega

/-- A mark takes exactly one character, so that it fits wherever it is found. -/
theorem mark?_bounds {marks cs : List Char} {n : Nat} (h : mark? marks cs = some n) :
    0 < n ∧ n ≤ cs.length := by
  unfold mark? at h
  repeat' split at h
  all_goals simp_all
  all_goals omega

/-- A lexeme has at least one character and lies inside the text. -/
theorem Shape.extent?_bounds {shape : Shape} {cs : List Char} {n : Nat}
    (h : shape.extent? cs = some n) : 0 < n ∧ n ≤ cs.length := by
  cases shape with
  | blank | number => exact run?_bounds h
  | comment => exact comment?_bounds h
  | word => exact word?_bounds h
  | text => exact text?_bounds h
  | character => exact character?_bounds h
  | comparison => exact comparison?_bounds h
  | openCurly | closeCurly | openParen | closeParen | assignment | colon | semicolon | comma
  | arithmetic => exact mark?_bounds h

end BraceLang.Lexeme
