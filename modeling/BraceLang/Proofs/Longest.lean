import BraceLang.Proofs.Patterns
import BraceLang.Proofs.Spelling

/-!
# The longest lexeme

The lexeme at the front of a text is of the first shape in the order of preference that fits. Nothing in this says that
it is long: a shape may come before another one that fits a longer front. That it is the longest of all fronts that fit
any shape (`next?_longest`) rests on the order of the shapes. Only two pairs of shapes start with the same character,
a comment and an operator, and a comparison and an assignment; of both pairs the one whose lexemes are longer comes
first.
-/

set_option autoImplicit false

namespace BraceLang.Lexeme

/-! ### Shapes that start alike -/

namespace Shape

/-- The list of shapes leaves none of them out. -/
theorem mem_all (shape : Shape) : shape ∈ all := by
  cases shape <;> decide

/-- The pairs of shapes that start with the same character, the one with the longer lexemes first. -/
def rivals : List (Shape × Shape) :=
  [(comment, arithmetic), (comparison, assignment)]

/-- The characters that start lexemes other than words, numbers and white space. -/
def signs : List Char :=
  ['/', '"', '\'', '{', '}', '(', ')', '=', '!', '<', '>', ':', ';', ',', '-', '+', '*', '%']

variable {shape other : Shape} {c : Char}

/-- Without such a character a lexeme is a word, a number or white space. -/
theorem mem_of_not_mem_signs (hc : c ∉ signs) (h : shape.starts c = true) : shape ∈ [blank, word, number] := by
  have hsign (d : Char) (hd : d ∈ signs) : c ≠ d := by
    rintro rfl
    exact hc hd
  cases shape with
  | blank | word | number => decide
  | comparison =>
    have hsigns : ['=', '!', '<', '>'] ⊆ signs := by decide
    exact absurd (hsigns (of_decide_eq_true h)) hc
  | arithmetic =>
    have hsigns : ['-', '+', '*', '/', '%'] ⊆ signs := by decide
    exact absurd (hsigns (of_decide_eq_true h)) hc
  | _ => exact absurd (of_decide_eq_true h) (hsign _ (by decide))

/-- No digit starts a word, so that numbers and words are told apart by their first character. -/
theorem not_isDigit_of_isWordStart (h : isWordStart c = true) : c.isDigit = false := by
  change ((decide (c.val ≥ 'A'.val ∧ c.val ≤ 'Z'.val)
    || (decide (c.val ≥ 'a'.val) && decide (c.val ≤ 'z'.val))) || c == '_') = true at h
  change (decide (c.val ≥ '0'.val) && decide (c.val ≤ '9'.val)) = false
  simp only [Bool.or_eq_true, Bool.and_eq_true, decide_eq_true_eq, beq_iff_eq, ge_iff_le,
    UInt32.le_iff_toNat_le] at h
  simp only [Bool.and_eq_false_iff, decide_eq_false_iff_not, ge_iff_le, UInt32.le_iff_toNat_le]
  have hA : 'A'.val.toNat = 65 := rfl
  have ha : 'a'.val.toNat = 97 := rfl
  have h9 : '9'.val.toNat = 57 := rfl
  rcases h with (⟨hlow, -⟩ | ⟨hlow, -⟩) | rfl
  · omega
  · omega
  · decide

/-- A character starts one shape or two rivals, so that hardly ever more than one shape has to be
compared. -/
theorem eq_or_rivals (h : shape.starts c = true) (h' : other.starts c = true) :
    shape = other ∨ (shape, other) ∈ rivals ∨ (other, shape) ∈ rivals := by
  -- for the signs this is a finite table, and any other character starts one of three shapes that are apart
  by_cases hc : c ∈ signs
  · have hall : (signs.all fun c => ∀ shape ∈ all, ∀ other ∈ all, shape.starts c = true → other.starts c = true →
        shape = other ∨ (shape, other) ∈ rivals ∨ (other, shape) ∈ rivals) = true := by
      decide +kernel
    have hsign := of_decide_eq_true (List.all_eq_true.1 hall c hc)
    exact hsign shape shape.mem_all other other.mem_all h h'
  · left
    have hblank (hpart : isWordPart c = true) : Text.isBlank c ≠ true := by
      rw [not_blank_of_isWordPart hpart]
      decide
    have hdigit (hstart : isWordStart c = true) : c.isDigit ≠ true := by
      rw [not_isDigit_of_isWordStart hstart]
      decide
    have hpart (hnumber : c.isDigit = true) : isWordPart c = true := by
      simp [isWordPart, Char.isAlphanum, hnumber]
    have hshape := mem_of_not_mem_signs hc h
    have hother := mem_of_not_mem_signs hc h'
    simp only [List.mem_cons, List.not_mem_nil, or_false] at hshape hother
    rcases hshape with rfl | rfl | rfl <;> rcases hother with rfl | rfl | rfl
    · rfl
    · exact absurd h (hblank (isWordPart_of_isWordStart h'))
    · exact absurd h (hblank (hpart h'))
    · exact absurd h' (hblank (isWordPart_of_isWordStart h))
    · rfl
    · exact absurd h' (hdigit h)
    · exact absurd h' (hblank (hpart h))
    · exact absurd h (hdigit h')
    · rfl

/-- Of two rivals the one with the longer lexemes comes before the other. -/
theorem mem_before_of_rivals {before after : List Shape} (h : (shape, other) ∈ rivals)
    (hall : all = before ++ other :: after) : shape ∈ before := by
  have htaken : ∀ pair ∈ rivals, pair.1 ∈ all.takeWhile (· ≠ pair.2) := by decide
  have hshape := htaken _ h
  rw [hall, List.takeWhile_append, List.takeWhile_cons_of_neg (by simp), List.append_nil] at hshape
  split at hshape
  · exact hshape
  · exact List.takeWhile_subset _ hshape

/-- Of two rivals the second has single characters as its lexemes. -/
theorem length_eq_one_of_rivals {front : List Char} (h : (shape, other) ∈ rivals)
    (hfront : front ∈ other.pattern.language) : front.length = 1 := by
  have hmark : ∃ marks, other.pattern = Pattern.mark marks := by
    simp only [rivals, List.mem_cons, Prod.mk.injEq, List.not_mem_nil, or_false] at h
    rcases h with ⟨-, rfl⟩ | ⟨-, rfl⟩ <;> exact ⟨_, rfl⟩
  obtain ⟨marks, hmark⟩ := hmark
  rw [hmark] at hfront
  obtain ⟨c, -, rfl⟩ := Pattern.mem_language_mark.1 hfront
  rfl

/-- No front that fits a pattern is empty, and it starts with a character of the shape. -/
theorem exists_cons_of_mem {front : List Char} (h : front ∈ shape.pattern.language) :
    ∃ c cs, front = c :: cs ∧ shape.starts c = true := by
  obtain ⟨n, hextent, -⟩ := exists_extent?_of_mem h []
  rw [List.append_nil] at hextent
  cases front with
  | nil =>
    obtain ⟨hpos, hle⟩ := extent?_bounds hextent
    exact absurd (Nat.lt_of_lt_of_le hpos hle) (by simp)
  | cons c cs => exact ⟨c, cs, rfl, starts_of_extent? hextent⟩

end Shape

/-! ### The first shape that fits -/

variable {start : Nat} {cs front rest : List Char} {shape : Shape} {lexeme : Lexeme}

/-- The longest of all fronts of a text that fit the pattern of a shape. -/
structure Longest (front cs : List Char) : Prop where
  isPrefix : front <+: cs
  fits : ∃ shape : Shape, front ∈ shape.pattern.language
  length_le : ∀ (shape : Shape), ∀ other ∈ shape.pattern.language, other <+: cs → other.length ≤ front.length

/-- The text of a lexeme fits the pattern of its shape. -/
theorem text_mem_language (h : next? start cs = some (lexeme, rest)) :
    lexeme.text ∈ lexeme.shape.pattern.language := by
  obtain ⟨n, hextent, -, htext, -⟩ := next?_eq_some h
  rw [htext]
  exact Shape.take_mem_language hextent

/-- The lexeme at the front of a text is the longest front that fits. -/
theorem longest_of_next? (h : next? start cs = some (lexeme, rest)) : Longest lexeme.text cs := by
  refine ⟨⟨rest, next?_append h⟩, ⟨_, text_mem_language h⟩, fun shape front hfront hbegins => ?_⟩
  obtain ⟨before, after, hall, hbefore, hextent, -⟩ := exists_first_of_next? h
  obtain ⟨c, front, rfl, hc⟩ := Shape.exists_cons_of_mem hfront
  obtain ⟨cs, rfl⟩ := hbegins
  rcases Shape.eq_or_rivals hc (Shape.starts_of_extent? hextent) with rfl | hrival | hrival
  · exact (Shape.extent?_eq_some_iff.1 hextent).2.2 _ hfront (List.prefix_append _ _)
  -- a shape with longer lexemes was tried before
  · have hnone := hbefore shape (Shape.mem_before_of_rivals hrival hall)
    exact absurd (List.prefix_append _ _) (Shape.extent?_eq_none_iff.1 hnone _ hfront)
  · rw [Shape.length_eq_one_of_rivals hrival hfront]
    exact (Shape.extent?_bounds hextent).1

/-- Some lexeme starts a text exactly if some front of it fits a pattern. -/
theorem exists_next?_iff :
    (∃ cut, next? start cs = some cut) ↔ ∃ shape : Shape, ∃ front ∈ shape.pattern.language, front <+: cs := by
  constructor
  · rintro ⟨⟨lexeme, rest⟩, h⟩
    exact ⟨_, _, text_mem_language h, rest, next?_append h⟩
  · rintro ⟨shape, front, hfront, rest, rfl⟩
    obtain ⟨n, hextent, -⟩ := Shape.exists_extent?_of_mem hfront rest
    refine Option.ne_none_iff_exists'.1 fun hnone => ?_
    have hshape := List.findSome?_eq_none_iff.1 hnone shape shape.mem_all
    rw [hextent] at hshape
    cases hshape

/-- What matching the patterns in the order of preference finds at the front of a text: a match of the first pattern
that has one, and of the matches of this pattern the preferred one. -/
structure Match (cs : List Char) (shape : Shape) (front rest : List Char) : Prop where
  first : ∃ before after, Shape.all = before ++ shape :: after ∧ ∀ other ∈ before, other.pattern.rests cs = []
  head? : (shape.pattern.rests cs).head? = some rest
  append : front ++ rest = cs

/-- The extent of a shape is that of the match that its pattern prefers. -/
theorem Shape.extent?_eq_some_iff_head? (happend : front ++ rest = cs) :
    shape.extent? cs = some front.length ↔ (shape.pattern.rests cs).head? = some rest := by
  have hhead := (shape.prefers_extent? cs).head?
  constructor
  · intro h
    rw [hhead, h, Option.map_some, ← happend, List.drop_left]
  · intro h
    rw [h] at hhead
    obtain ⟨n, hextent, hdrop⟩ := Option.map_eq_some_iff.1 hhead.symm
    have hle := (extent?_bounds hextent).2
    have hlength := congrArg List.length hdrop
    rw [← happend, List.length_append] at hle
    rw [← happend, List.length_drop, List.length_append] at hlength
    rw [hextent, show n = front.length by omega]

/-- A shape does not fit a text exactly if its pattern matches no front of the text. -/
theorem Shape.extent?_eq_none_iff_rests : shape.extent? cs = none ↔ shape.pattern.rests cs = [] := by
  rw [← List.head?_eq_none_iff, (shape.prefers_extent? cs).head?, Option.map_eq_none_iff]

/-- The lexeme at the front of a text is what matching the patterns in the order of preference finds. -/
theorem next?_eq_some_iff_match :
    next? start cs = some (⟨shape, start, front⟩, rest) ↔ Match cs shape front rest := by
  constructor
  · intro h
    obtain ⟨before, after, hall, hbefore, hextent, -⟩ := exists_first_of_next? h
    exact ⟨⟨before, after, hall, fun other hother => Shape.extent?_eq_none_iff_rests.1 (hbefore other hother)⟩,
      (Shape.extent?_eq_some_iff_head? (next?_append h)).1 hextent, next?_append h⟩
  · rintro ⟨⟨before, after, hall, hbefore⟩, hhead, rfl⟩
    exact next?_of_first before after hall
      (fun other hother => Shape.extent?_eq_none_iff_rests.2 (hbefore other hother))
      ((Shape.extent?_eq_some_iff_head? rfl).2 hhead)

/-- Matching the patterns in the order of preference cuts the longest lexeme off a text. Where a front of the text fits
some pattern, the preferred match of the first pattern that has one is the lexeme at the front of the text, and no
front that fits any of the patterns is longer. Inside a pattern the order of the alternatives hides nothing either: no
front that fits the pattern is longer than the match that it prefers. -/
theorem next?_longest (start : Nat) (cs : List Char)
    (h : ∃ shape : Shape, ∃ front ∈ shape.pattern.language, front <+: cs) :
    (∃ shape front rest, Match cs shape front rest ∧ next? start cs = some (⟨shape, start, front⟩, rest) ∧
      front ∈ shape.pattern.language ∧
      ∀ (other : Shape), ∀ otherFront ∈ other.pattern.language, otherFront <+: cs →
        otherFront.length ≤ front.length) ∧
    ∀ (shape : Shape) (front rest : List Char), front ++ rest = cs →
      (shape.pattern.rests cs).head? = some rest →
      ∀ otherFront ∈ shape.pattern.language, otherFront <+: cs → otherFront.length ≤ front.length := by
  constructor
  · obtain ⟨⟨lexeme, rest⟩, hnext⟩ := exists_next?_iff.2 h
    obtain ⟨-, -, hstart, -, -⟩ := next?_eq_some hnext
    obtain ⟨shape, start', front⟩ := lexeme
    obtain rfl : start' = start := hstart
    exact ⟨shape, front, rest, next?_eq_some_iff_match.1 hnext, hnext, text_mem_language hnext,
      (longest_of_next? hnext).length_le⟩
  · intro shape front rest happend hhead
    exact (Shape.extent?_eq_some_iff.1 ((Shape.extent?_eq_some_iff_head? happend).2 hhead)).2.2

/-- The sign `<` alone would fit as well, by the same pattern. -/
theorem next?_longest_sample :
    (∃ shape : Shape, ∃ front ∈ shape.pattern.language, front <+: ['<', '=', '1']) ∧
    Match ['<', '=', '1'] .comparison ['<', '='] ['1'] ∧
    ∀ (other : Shape), ∀ otherFront ∈ other.pattern.language, otherFront <+: ['<', '=', '1'] →
      otherFront.length ≤ 2 := by
  have hextent : Shape.comparison.extent? ['<', '=', '1'] = some 2 := by decide
  have hfits : ∃ shape : Shape, ∃ front ∈ shape.pattern.language, front <+: ['<', '=', '1'] :=
    ⟨.comparison, _, Shape.take_mem_language hextent, ['1'], rfl⟩
  obtain ⟨shape, front, rest, hmatch, hnext, -, hlongest⟩ := (next?_longest 0 ['<', '=', '1'] hfits).1
  have hfound : next? 0 ['<', '=', '1'] = some (⟨.comparison, 0, ['<', '=']⟩, ['1']) := by decide
  rw [hfound] at hnext
  cases hnext
  exact ⟨hfits, hmatch, hlongest⟩

end BraceLang.Lexeme
