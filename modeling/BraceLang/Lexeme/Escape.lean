/-!
# Escapes in quoted literals

Between the quotes of a literal a backslash and one of seven characters stand for one character. A
backslash before any other character stands for itself, and so does the character after it.
-/

set_option autoImplicit false

namespace BraceLang.Lexeme

/-- The character that a backslash and `c` stand for, where `c` is one of the seven that a backslash
changes. -/
def escaped? (c : Char) : Option Char :=
  [('n', '\n'), ('t', '\t'), ('r', '\r'), ('0', '\x00'), ('\\', '\\'), ('"', '"'), ('\'', '\'')].lookup c

/-- The characters that `raw` denotes, put in front of the reverse of `done`. A backslash at the very end
stands for itself. -/
def unescapeOnto (done : List Char) : List Char → List Char
  | [] => done.reverse
  | [c] => (c :: done).reverse
  | c :: d :: raw =>
    if c = '\\' then
      match escaped? d with
      | some e => unescapeOnto (e :: done) raw
      | none => unescapeOnto (c :: done) (d :: raw)
    else unescapeOnto (c :: done) (d :: raw)

/-- The characters that the inside `raw` of a quoted literal denotes, read from left to right. -/
def unescape (raw : List Char) : List Char :=
  unescapeOnto [] raw

/-- What is already read stands in front, unchanged: what the rest denotes does not depend on it, which lets
the lemmas below speak of `unescape` alone. -/
theorem unescapeOnto_eq (done raw : List Char) :
    unescapeOnto done raw = done.reverse ++ unescape raw := by
  have key (raw : List Char) : ∀ done more : List Char,
      unescapeOnto (more ++ done) raw = done.reverse ++ unescapeOnto more raw := by
    intro done more
    fun_induction unescapeOnto more raw with
    | case1 more => simp [unescapeOnto]
    | case2 more c => simp [unescapeOnto]
    | case3 more d raw e he ih => rw [unescapeOnto]; simpa [he] using ih
    | case4 more d raw he ih => rw [unescapeOnto]; simpa [he] using ih
    | case5 more c d raw hc ih => rw [unescapeOnto]; simpa [hc] using ih
  simpa [unescape] using key raw done []

/-- Where nothing stands between the quotes, nothing is denoted: the literal is the empty text. -/
@[simp]
theorem unescape_nil : unescape [] = [] := rfl

/-- A character other than the backslash denotes itself, wherever it stands and whatever is behind it. -/
theorem unescape_cons {c : Char} (h : c ≠ '\\') (raw : List Char) :
    unescape (c :: raw) = c :: unescape raw := by
  cases raw with
  | nil => rfl
  | cons d raw => simp [unescape, unescapeOnto, h, unescapeOnto_eq [c]]

/-- A backslash and a character of the list denote one character, and reading goes on behind the two. -/
theorem unescape_escape {d e : Char} (h : escaped? d = some e) (raw : List Char) :
    unescape ('\\' :: d :: raw) = e :: unescape raw := by
  simp [unescape, unescapeOnto, h, unescapeOnto_eq [e]]

/-- Before any other character the backslash denotes itself, and that character is then read on its own. -/
theorem unescape_backslash {d : Char} (h : escaped? d = none) (raw : List Char) :
    unescape ('\\' :: d :: raw) = '\\' :: unescape (d :: raw) := by
  simp [unescape, unescapeOnto, h, unescapeOnto_eq ['\\']]

end BraceLang.Lexeme
