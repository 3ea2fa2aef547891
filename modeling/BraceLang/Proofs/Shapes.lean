import BraceLang.Lexeme
import Mathlib.Data.List.Basic
import Mathlib.Data.List.TakeWhile

/-!
# What lexemes look like

The recognisers of shapes count characters. This module says what they count:

* a lexeme starts with a character of its shape (`Shape.starts_of_extent?`), so the first character of a
  text rules most shapes out (`Shape.extent?_eq_none`);
* a run holds characters of its class only (`run?_eq_some`), a comment is two slashes and characters up to a
  newline or the end of the text (`comment?_eq_some`), and marks and comparisons are taken from short lists
  (`mark?_eq_some`, `comparison?_eq_some`);
* the lexeme at the front of a text has the extent that its shape gives there (`next?_eq_some`), and the lexemes
  of a text take up all the bytes before what is left of it (`stop_segment`).
-/

set_option autoImplicit false

namespace BraceLang.Lexeme

/-! ### First characters -/

/-- Whether a lexeme of the shape may start with a character. -/
def Shape.starts : Shape → Char → Bool
  | blank, c => Text.isBlank c
  | comment, c => c = '/'
  | word, c => isWordStart c
  | number, c => c.isDigit
  | text, c => c = '"'
  | character, c => c = '\''
  | openCurly, c => c = '{'
  | closeCurly, c => c = '}'
  | openParen, c => c = '('
  | closeParen, c => c = ')'
  | comparison, c => c ∈ ['=', '!', '<', '>']
  | assignment, c => c = '='
  | colon, c => c = ':'
  | semicolon, c => c = ';'
  | comma, c => c = ','
  | arithmetic, c => c ∈ ['-', '+', '*', '/', '%']

variable {c : Char} {cs rest : List Char} {n : Nat}

/-- A run starts with a character of its class. -/
theorem run?_head {p : Char → Bool} (h : run? p (c :: cs) = some n) : p c = true := by
  by_contra hc
  simp [run?, hc] at h

/-- A mark is the character that the text starts with. -/
theorem mark?_head {marks : List Char} (cs : List Char) (h : mark? marks (c :: cs) = some n) :
    c ∈ marks := by
  by_contra hc
  simp [mark?, hc] at h

/-- A comment starts with a slash. -/
theorem comment?_head (h : comment? (c :: cs) = some n) : c = '/' := by
  by_contra hc
  cases cs <;> simp [comment?, hc] at h

/-- A comparison starts with one of four signs, two of which do not stand alone. -/
theorem comparison?_head (h : comparison? (c :: cs) = some n) : c ∈ ['=', '!', '<', '>'] := by
  by_contra hc
  simp only [List.mem_cons, List.not_mem_nil, or_false, not_or] at hc
  cases cs <;> simp [comparison?, hc] at h

/-- A lexeme starts with a character of its shape, so that a text is told by its first character. -/
theorem Shape.starts_of_extent? {shape : Shape} (h : shape.extent? (c :: cs) = some n) :
    shape.starts c = true := by
  cases shape with
  | blank | number => exact run?_head h
  | comment => exact decide_eq_true (comment?_head h)
  | comparison => exact decide_eq_true (comparison?_head h)
  | word =>
    by_contra hc
    rw [Bool.not_eq_true] at hc
    simp [extent?, word?, show isWordStart c = false from hc] at h
  | text =>
    by_contra hc
    simp [extent?, text?, show ¬ c = '"' from fun hquote => hc (decide_eq_true hquote)] at h
  | character =>
    by_contra hc
    simp [extent?, character?, show ¬ c = '\'' from fun hquote => hc (decide_eq_true hquote)] at h
  | openCurly | closeCurly | openParen | closeParen | assignment | colon | semicolon | comma =>
    exact decide_eq_true (List.mem_singleton.1 (mark?_head cs h))
  | arithmetic => exact decide_eq_true (mark?_head cs h)

/-- A character that a shape does not start with rules the shape out. -/
theorem Shape.extent?_eq_none {shape : Shape} (h : shape.starts c = false) (cs : List Char) :
    shape.extent? (c :: cs) = none := by
  cases hextent : shape.extent? (c :: cs) with
  | none => rfl
  | some n => simp [starts_of_extent? hextent] at h

/-! ### Runs, comments and marks -/

/-- Whether a text is empty or starts with a newline. -/
def EndsLine (cs : List Char) : Prop :=
  cs = [] ∨ ∃ ds, cs = '\n' :: ds

/-- A run holds characters of its class, from the first one to the last. -/
theorem run?_eq_some {p : Char → Bool} (h : run? p cs = some n) : ∀ c ∈ cs.take n, p c = true := by
  have hlength : (cs.takeWhile p).length = n := by
    unfold run? at h
    split at h <;> simp_all
  have htake : cs.take n = cs.takeWhile p := by
    rw [← hlength]
    exact (List.prefix_iff_eq_take.1 (List.takeWhile_prefix p)).symm
  rw [htake]
  exact fun c hc => List.mem_takeWhile_imp hc

/-- What follows the characters of a line ends the line. -/
theorem endsLine_dropWhile (cs : List Char) : EndsLine (cs.dropWhile (· ≠ '\n')) := by
  induction cs with
  | nil => exact .inl rfl
  | cons c cs ih =>
    by_cases hc : c = '\n'
    · exact .inr ⟨cs, by simp [hc]⟩
    · simpa [List.dropWhile_cons, hc] using ih

/-- A comment is two slashes and the characters up to the end of the line. -/
theorem comment?_eq_some (h : comment? cs = some n) :
    ∃ body, cs.take n = '/' :: '/' :: body ∧ '\n' ∉ body ∧ EndsLine (cs.drop n) := by
  match cs, h with
  | c :: d :: cs, h =>
    simp only [comment?] at h
    split at h
    · rename_i hslash
      obtain ⟨rfl, rfl⟩ := hslash
      obtain rfl := Option.some.inj h
      have hsplit : cs.takeWhile (· ≠ '\n') ++ cs.dropWhile (· ≠ '\n') = cs :=
        List.takeWhile_append_dropWhile
      refine ⟨cs.takeWhile (· ≠ '\n'), ?_, ?_, ?_⟩
      · rw [Nat.add_comm, List.take_succ_cons, List.take_succ_cons]
        congr 2
        exact (List.prefix_iff_eq_take.1 (List.takeWhile_prefix _)).symm
      · intro hmem
        simpa using List.mem_takeWhile_imp hmem
      · rw [Nat.add_comm, List.drop_succ_cons, List.drop_succ_cons]
        have hdrop : (cs.takeWhile (· ≠ '\n') ++ cs.dropWhile (· ≠ '\n')).drop
            (cs.takeWhile (· ≠ '\n')).length = cs.dropWhile (· ≠ '\n') := List.drop_left
        rw [hsplit] at hdrop
        rw [hdrop]
        exact endsLine_dropWhile cs
    · simp at h

/-- A mark is a single character out of those that the shape allows. -/
theorem mark?_eq_some {marks : List Char} (h : mark? marks cs = some n) : ∃ c ∈ marks, cs.take n = [c] := by
  cases cs with
  | nil => cases h
  | cons c cs =>
    have hc : c ∈ marks := mark?_head cs h
    rw [mark?, if_pos hc] at h
    obtain rfl := Option.some.inj h
    exact ⟨c, hc, rfl⟩

/-- There are six comparisons, four of two signs and two of one. -/
theorem comparison?_eq_some (h : comparison? cs = some n) :
    String.ofList (cs.take n) ∈ ["==", "!=", "<=", ">=", "<", ">"] := by
  have htwo (c : Char) (hc : c ∈ ['=', '!', '<', '>']) :
      String.ofList [c, '='] ∈ ["==", "!=", "<=", ">=", "<", ">"] := by
    simp only [List.mem_cons, List.not_mem_nil, or_false] at hc
    rcases hc with rfl | rfl | rfl | rfl <;> decide
  have hone (c : Char) (hc : c = '<' ∨ c = '>') :
      String.ofList [c] ∈ ["==", "!=", "<=", ">=", "<", ">"] := by
    rcases hc with rfl | rfl <;> decide
  match cs, h with
  | [c], h =>
    rw [comparison?] at h
    split at h
    · obtain rfl := Option.some.inj h
      exact hone c ‹_›
    · cases h
  | c :: d :: cs, h =>
    rw [comparison?] at h
    split at h
    · rename_i hequals
      obtain rfl := Option.some.inj h
      obtain ⟨rfl, hc⟩ := hequals
      exact htwo c hc
    · split at h
      · obtain rfl := Option.some.inj h
        exact hone c ‹_›
      · cases h

/-! ### The front of a text -/

/-- The lexeme at the front of a text is cut off where its shape ends. -/
theorem next?_eq_some {start : Nat} {lexeme : Lexeme} (h : next? start cs = some (lexeme, rest)) :
    ∃ n, lexeme.shape.extent? cs = some n ∧ lexeme.start = start ∧ lexeme.text = cs.take n ∧
      rest = cs.drop n := by
  obtain ⟨shape, -, hshape⟩ := List.exists_of_findSome?_eq_some h
  obtain ⟨n, hextent, hn⟩ := Option.map_eq_some_iff.1 hshape
  obtain ⟨rfl, rfl⟩ := Prod.mk.inj hn
  exact ⟨n, hextent, rfl, rfl, rfl⟩

/-- The first lexeme of a text is of the first shape that fits. -/
theorem exists_first_of_next? {start : Nat} {rest : List Char} {lexeme : Lexeme}
    (h : next? start cs = some (lexeme, rest)) :
    ∃ before after, Shape.all = before ++ lexeme.shape :: after ∧
      (∀ other ∈ before, other.extent? cs = none) ∧ lexeme.shape.extent? cs = some lexeme.text.length ∧
      lexeme.start = start := by
  obtain ⟨before, shape, after, hall, hshape, hbefore⟩ := List.findSome?_eq_some_iff.1 h
  obtain ⟨n, hextent, hcut⟩ := Option.map_eq_some_iff.1 hshape
  obtain ⟨rfl, rfl⟩ := Prod.mk.inj hcut
  refine ⟨before, after, hall, fun other hother => ?_, ?_, rfl⟩
  · simpa using hbefore other hother
  · have hle := (Shape.extent?_bounds hextent).2
    simpa [List.length_take, Nat.min_eq_left hle] using hextent

/-- A lexeme is not empty and starts with a character of its shape. -/
theorem exists_cons_of_next? {start : Nat} {lexeme : Lexeme}
    (h : next? start cs = some (lexeme, rest)) :
    ∃ c text, lexeme.text = c :: text ∧ lexeme.shape.starts c = true := by
  obtain ⟨n, hextent, -, htext, -⟩ := next?_eq_some h
  obtain ⟨hpos, hle⟩ := Shape.extent?_bounds hextent
  cases cs with
  | nil => exact absurd (Nat.lt_of_lt_of_le hpos hle) (by simp)
  | cons c cs =>
    obtain ⟨n, rfl⟩ := Nat.exists_eq_succ_of_ne_zero (Nat.ne_of_gt hpos)
    exact ⟨c, cs.take n, by rw [htext, List.take_succ_cons], Shape.starts_of_extent? hextent⟩

/-- A lexeme ends where the rest of its text starts. -/
theorem stop_of_next? {start : Nat} {lexeme : Lexeme} (h : next? start cs = some (lexeme, rest)) :
    lexeme.stop = start + Text.byteLength lexeme.text := by
  obtain ⟨-, -, hstart, -, -⟩ := next?_eq_some h
  rw [stop, hstart]

/-- No lexeme starts an empty text, because every shape takes at least one character. -/
theorem next?_nil (start : Nat) : next? start [] = none := by
  cases h : next? start [] with
  | none => rfl
  | some cut => exact absurd (next?_length h) (by simp)

/-- The bytes before what is left of a text and those of what is left are all the bytes there are. -/
theorem stop_segment (start : Nat) (cs : List Char) :
    (segment start cs).stop + Text.byteLength (segment start cs).rest = start + Text.byteLength cs := by
  induction hn : cs.length using Nat.strongRecOn generalizing start cs with
  | ind n ih =>
    cases h : next? start cs with
    | none => rw [segment_of_next?_eq_none h]
    | some cut =>
      obtain ⟨lexeme, rest⟩ := cut
      have hrest := ih rest.length (hn ▸ next?_length h) lexeme.stop rest rfl
      rw [segment_of_next?_eq_some h, hrest, stop_of_next? h, ← next?_append h, Text.byteLength_append,
        Nat.add_assoc]

end BraceLang.Lexeme
