import BraceLang.Lexeme
import Mathlib.Algebra.BigOperators.Group.List.Basic
import Mathlib.Computability.Language

/-!
# Patterns of lexemes

Each shape of lexemes has a regular pattern: single characters, sequences, alternatives and repetitions of these. A
pattern is read in two ways. `Pattern.language` is the set of texts that fit it, in the algebra of languages.
`Pattern.rests` is how it is matched at the front of a text: the first of two alternatives is tried first, a repetition
goes on as long as it can, and what comes later is given up before what comes earlier. Both find the same fronts
(`Pattern.mem_rests_iff`), but only the second has a preference among them.

The recogniser of a shape finds what its pattern prefers, and for none of the shapes there is a longer front that fits
the pattern as well (`Shape.prefers_extent?`). So the extent of a shape is the length of the longest front in its
language (`Shape.extent?_eq_some_iff`).
-/

set_option autoImplicit false

open scoped Computability

namespace BraceLang.Lexeme

/-- A regular pattern, built from classes of characters. -/
inductive Pattern where
  /-- One character of a class. -/
  | one (accepts : Char → Bool)
  | seq (first second : Pattern)
  | either (first second : Pattern)
  | many (body : Pattern)

namespace Pattern

/-- The texts that fit a pattern, as a language in the algebra of languages. -/
def language : Pattern → Language Char
  | one accepts => {cs | ∃ c, accepts c = true ∧ cs = [c]}
  | seq first second => first.language * second.language
  | either first second => first.language + second.language
  | many body => body.language∗

/-- What may be left of a text behind at most `limit` fronts, each of which leaves what `rests` says, the most fronts
first. -/
def manyWithin (rests : List Char → List (List Char)) : (limit : Nat) → List Char → List (List Char)
  | 0, cs => [cs]
  | limit + 1, cs => (rests cs).flatMap (manyWithin rests limit) ++ [cs]

/-- What may be left of a text behind a front that fits a pattern, the preferred first. A front of a repetition has no
more parts than the text has characters. -/
def rests : Pattern → List Char → List (List Char)
  | one _, [] => []
  | one accepts, c :: cs => if accepts c then [cs] else []
  | seq first second, cs => (first.rests cs).flatMap second.rests
  | either first second, cs => first.rests cs ++ second.rests cs
  | many body, cs => manyWithin body.rests cs.length cs

/-! ### Fronts that fit -/

/-- A class of characters is fitted by its characters, each alone. -/
theorem mem_language_one {accepts : Char → Bool} {cs : List Char} :
    cs ∈ (one accepts).language ↔ ∃ c, accepts c = true ∧ cs = [c] :=
  Iff.rfl

/-- A sequence is fitted by a text that fits its first part and behind that its second. -/
theorem mem_language_seq {first second : Pattern} {cs : List Char} :
    cs ∈ (seq first second).language ↔
      ∃ front ∈ first.language, ∃ back ∈ second.language, front ++ back = cs :=
  Language.mem_mul

/-- An alternative is fitted by what fits one of its sides. -/
theorem mem_language_either {first second : Pattern} {cs : List Char} :
    cs ∈ (either first second).language ↔ cs ∈ first.language ∨ cs ∈ second.language :=
  Iff.rfl

/-- A repetition leaves what follows a row of fronts, each of which fits. -/
theorem mem_manyWithin {body : Pattern} {limit : Nat} {cs rest : List Char}
    (hbody : ∀ cs rest, rest ∈ body.rests cs ↔ ∃ front ∈ body.language, cs = front ++ rest)
    (h : rest ∈ manyWithin body.rests limit cs) : ∃ front ∈ body.language∗, cs = front ++ rest := by
  induction limit generalizing cs with
  | zero => exact ⟨[], Language.nil_mem_kstar _, (List.mem_singleton.1 h).symm⟩
  | succ limit ih =>
    rcases List.mem_append.1 h with hmore | hlast
    · obtain ⟨middle, hmiddle, hrest⟩ := List.mem_flatMap.1 hmore
      obtain ⟨front, hfront, rfl⟩ := (hbody cs middle).1 hmiddle
      obtain ⟨back, hback, rfl⟩ := ih hrest
      refine ⟨front ++ back, ?_, (List.append_assoc _ _ _).symm⟩
      obtain ⟨parts, rfl, hparts⟩ := hback
      exact Language.mem_kstar.2 ⟨front :: parts, rfl, by simpa using ⟨hfront, hparts⟩⟩
    · exact ⟨[], Language.nil_mem_kstar _, (List.mem_singleton.1 hlast).symm⟩

/-- What follows a row of fronts that fit is left by a repetition of as many parts. -/
theorem mem_manyWithin_flatten {body : Pattern} {rest : List Char}
    (hbody : ∀ cs rest, rest ∈ body.rests cs ↔ ∃ front ∈ body.language, cs = front ++ rest)
    {parts : List (List Char)} (hparts : ∀ part ∈ parts, part ∈ body.language) {limit : Nat}
    (hlimit : parts.length ≤ limit) : rest ∈ manyWithin body.rests limit (parts.flatten ++ rest) := by
  induction parts generalizing limit with
  | nil => cases limit <;> simp [manyWithin]
  | cons part parts ih =>
    obtain ⟨limit, rfl⟩ := Nat.exists_eq_add_of_le' (Nat.le_trans (Nat.le_add_left 1 _) hlimit)
    obtain ⟨hpart, hparts⟩ := List.forall_mem_cons.1 hparts
    refine List.mem_append_left _ (List.mem_flatMap.2 ⟨parts.flatten ++ rest, ?_, ?_⟩)
    · exact (hbody _ _).2 ⟨part, hpart, by simp⟩
    · exact ih hparts (by simpa using hlimit)

/-- Matching leaves exactly what follows a front that fits, so that it finds the fronts that the language
has. -/
theorem mem_rests_iff {pattern : Pattern} {cs rest : List Char} :
    rest ∈ pattern.rests cs ↔ ∃ front ∈ pattern.language, cs = front ++ rest := by
  induction pattern generalizing cs rest with
  | one accepts =>
    cases cs with
    | nil => simp [rests, mem_language_one]
    | cons c cs =>
      simp only [rests, mem_language_one]
      constructor
      · intro h
        split at h
        · rename_i hc
          exact ⟨[c], ⟨c, hc, rfl⟩, by rw [List.mem_singleton.1 h]; rfl⟩
        · cases h
      · rintro ⟨-, ⟨d, hd, rfl⟩, h⟩
        obtain ⟨rfl, rfl⟩ := List.cons.inj h
        simp [hd]
  | seq first second ihfirst ihsecond =>
    simp only [rests, List.mem_flatMap, ihfirst, ihsecond, mem_language_seq]
    constructor
    · rintro ⟨-, ⟨front, hfront, rfl⟩, back, hback, rfl⟩
      exact ⟨front ++ back, ⟨front, hfront, back, hback, rfl⟩, by simp⟩
    · rintro ⟨-, ⟨front, hfront, back, hback, rfl⟩, rfl⟩
      exact ⟨back ++ rest, ⟨front, hfront, by simp⟩, back, hback, rfl⟩
  | either first second ihfirst ihsecond =>
    simp only [rests, List.mem_append, ihfirst, ihsecond, mem_language_either, or_and_right, exists_or]
  | many body ih =>
    constructor
    · exact mem_manyWithin fun cs rest => ih
    · rintro ⟨front, hfront, rfl⟩
      obtain ⟨parts, rfl, hparts⟩ := (Language.mem_kstar_iff_exists_nonempty).1 hfront
      refine mem_manyWithin_flatten (fun cs rest => ih) (fun part hpart => (hparts part hpart).1) ?_
      -- each part has a character of its own, so there are as many rounds as parts
      have hlength : (parts.map List.length).length ≤ (parts.map List.length).sum := by
        refine List.length_le_sum_of_one_le _ fun size hsize => ?_
        obtain ⟨part, hpart, rfl⟩ := List.mem_map.1 hsize
        exact List.length_pos_iff.2 (hparts part hpart).2
      rw [List.length_map] at hlength
      rw [List.length_append, List.length_flatten]
      omega

/-! ### The patterns of the shapes -/

/-- The pattern of one of the characters of a list. -/
def mark (marks : List Char) : Pattern :=
  one fun c => c ∈ marks

/-- One of several characters is fitted by each of them alone. -/
theorem mem_language_mark {marks cs : List Char} : cs ∈ (mark marks).language ↔ ∃ c ∈ marks, cs = [c] := by
  simp [mark, mem_language_one]

/-- A character of a class, then any number of another class. -/
def run (first more : Char → Bool) : Pattern :=
  seq (one first) (many (one more))

/-- A backslash and a character that is no newline, or a character other than the backslash and the quote. -/
def unit (q : Char) : Pattern :=
  either (seq (mark ['\\']) (one (· ≠ '\n'))) (one fun c => c ≠ q ∧ c ≠ '\\')

/-- The pattern of a character and an equals sign behind it. -/
def equalled (c : Char) : Pattern :=
  seq (mark [c]) (mark ['='])

end Pattern

open Pattern in
/-- The pattern of a shape, which stands for the regular expression of its lexemes. -/
def Shape.pattern : Shape → Pattern
  | blank => run Text.isBlank Text.isBlank
  | comment => seq (mark ['/']) (seq (mark ['/']) (many (one (· ≠ '\n'))))
  | word => run isWordStart isWordPart
  | number => run Char.isDigit Char.isDigit
  | text => seq (mark ['"']) (seq (many (unit '"')) (mark ['"']))
  | character => seq (mark ['\'']) (seq (unit '\'') (mark ['\'']))
  | openCurly => mark ['{']
  | closeCurly => mark ['}']
  | openParen => mark ['(']
  | closeParen => mark [')']
  | comparison =>
    either (equalled '=') (either (equalled '!') (either (equalled '<') (either (equalled '>')
      (either (mark ['<']) (mark ['>'])))))
  | assignment => mark ['=']
  | colon => mark [':']
  | semicolon => mark [';']
  | comma => mark [',']
  | arithmetic => mark ['-', '+', '*', '/', '%']

namespace Pattern

/-! ### What recognisers find -/

/-- Whether an extent is that of the front that a pattern prefers, and no front that fits is longer. -/
structure Prefers (pattern : Pattern) (cs : List Char) (extent? : Option Nat) : Prop where
  head? : (pattern.rests cs).head? = extent?.map cs.drop
  longest : ∀ n, extent? = some n → ∀ rest ∈ pattern.rests cs, (cs.drop n).length ≤ rest.length

variable {pattern : Pattern} {cs : List Char} {extent? : Option Nat}

/-- Where at most one front fits, it is the preferred one and the longest. -/
theorem Prefers.of_eq (h : pattern.rests cs = (extent?.map cs.drop).toList) : pattern.Prefers cs extent? := by
  constructor
  · cases extent? <;> simp [h]
  · rintro n rfl rest hrest
    rw [h] at hrest
    simp_all

/-- To match one of several characters leaves what the recogniser of such a mark leaves, if it finds one. -/
theorem rests_mark (marks cs : List Char) :
    (mark marks).rests cs = ((mark? marks cs).map cs.drop).toList := by
  cases cs with
  | nil => rfl
  | cons c cs => by_cases hc : c ∈ marks <;> simp [mark, rests, mark?, hc]

/-- A repetition of single characters goes on as long as it can. -/
theorem manyWithin_one (accepts : Char → Bool) {limit : Nat} (hlimit : cs.length ≤ limit) :
    (manyWithin (one accepts).rests limit cs).head? = some (cs.dropWhile accepts) ∧
      ∀ rest ∈ manyWithin (one accepts).rests limit cs, (cs.dropWhile accepts).length ≤ rest.length := by
  induction cs generalizing limit with
  | nil => cases limit <;> simp [manyWithin, rests]
  | cons c cs ih =>
    obtain ⟨limit, rfl⟩ := Nat.exists_eq_add_of_le' (Nat.le_trans (Nat.le_add_left 1 _) hlimit)
    obtain ⟨hhead, hlongest⟩ := ih (by simpa using hlimit)
    by_cases hc : accepts c = true
    · have hrests : manyWithin (one accepts).rests (limit + 1) (c :: cs) =
          manyWithin (one accepts).rests limit cs ++ [c :: cs] := by
        simp [manyWithin, rests, hc]
      rw [hrests, List.dropWhile_cons_of_pos hc]
      refine ⟨by simp [List.head?_append, hhead], fun rest hrest => ?_⟩
      rcases List.mem_append.1 hrest with hrest | hrest
      · exact hlongest rest hrest
      · have := (List.dropWhile_suffix (l := cs) accepts).length_le
        rw [List.mem_singleton.1 hrest, List.length_cons]
        omega
    · simp [manyWithin, rests, hc]

/-- What is left of a text behind its longest run is what is dropped down to. -/
theorem drop_takeWhile (p : Char → Bool) (cs : List Char) : cs.drop (cs.takeWhile p).length = cs.dropWhile p := by
  induction cs with
  | nil => rfl
  | cons c cs ih => by_cases hc : p c = true <;> simp [hc, ih]

/-- A repetition of a class of characters prefers the longest run of them, and no other front is longer. -/
theorem prefers_many (accepts : Char → Bool) (cs : List Char) :
    (many (one accepts)).Prefers cs (some (cs.takeWhile accepts).length) := by
  obtain ⟨hhead, hlongest⟩ := manyWithin_one accepts (Nat.le_refl cs.length)
  constructor
  · rw [Option.map_some, drop_takeWhile]
    exact hhead
  · rintro n ⟨rfl⟩
    rw [drop_takeWhile]
    exact hlongest

section

variable {first : Char → Bool} {c : Char}

/-- A sequence that starts with a character fits no empty text. -/
theorem prefers_seq_nil (first : Char → Bool) (pattern : Pattern) : (seq (one first) pattern).Prefers [] none :=
  .of_eq rfl

/-- A sequence that starts with a character of some class fits no text that starts with another. -/
theorem prefers_seq_of_neg (hc : ¬ first c = true) (pattern : Pattern) (cs : List Char) :
    (seq (one first) pattern).Prefers (c :: cs) none :=
  .of_eq (by simp [rests, hc])

/-- Behind a character of the class the rest of a sequence decides. -/
theorem Prefers.seq (h : pattern.Prefers cs extent?) (first : Char → Bool) (hc : first c = true) :
    (seq (one first) pattern).Prefers (c :: cs) (extent?.map (· + 1)) := by
  have hrests : (Pattern.seq (one first) pattern).rests (c :: cs) = pattern.rests cs := by simp [rests, hc]
  constructor
  · rw [hrests, h.head?]
    cases extent? <;> rfl
  · intro n hn
    obtain ⟨m, rfl, rfl⟩ := Option.map_eq_some_iff.1 hn
    rw [hrests]
    exact h.longest m rfl

end

/-- The recogniser of runs finds what their pattern prefers, which is the longest run. -/
theorem prefers_run? (p : Char → Bool) (cs : List Char) : (run p p).Prefers cs (run? p cs) := by
  cases cs with
  | nil => exact prefers_seq_nil p _
  | cons c cs =>
    by_cases hc : p c = true
    · simpa [run?, run, hc] using (prefers_many p cs).seq p hc
    · simpa [run?, run, hc] using prefers_seq_of_neg hc _ cs

/-- The recogniser of words finds what their pattern prefers, the letters, digits and underscores up to the
first other character. -/
theorem prefers_word? (cs : List Char) : (run isWordStart isWordPart).Prefers cs (word? cs) := by
  cases cs with
  | nil => exact prefers_seq_nil _ _
  | cons c cs =>
    by_cases hc : isWordStart c = true
    · simpa [word?, run, hc, Nat.add_comm] using (prefers_many isWordPart cs).seq isWordStart hc
    · simpa [word?, run, hc] using prefers_seq_of_neg hc _ cs

/-- The recogniser of comments finds what their pattern prefers, which is all of the line. -/
theorem prefers_comment? (cs : List Char) :
    (seq (mark ['/']) (seq (mark ['/']) (many (one (· ≠ '\n'))))).Prefers cs (comment? cs) := by
  match cs with
  | [] => exact prefers_seq_nil _ _
  | [c] => exact .of_eq (by by_cases hc : c = '/' <;> simp [comment?, mark, rests, hc])
  | c :: d :: cs =>
    by_cases hslashes : c = '/' ∧ d = '/'
    · obtain ⟨rfl, rfl⟩ := hslashes
      have hbody := ((prefers_many (· ≠ '\n') cs).seq (c := '/') (· ∈ ['/']) (by decide)).seq
        (c := '/') (· ∈ ['/']) (by decide)
      have hextent : comment? ('/' :: '/' :: cs) = some ((cs.takeWhile (· ≠ '\n')).length + 1 + 1) := by
        simp [comment?, Nat.add_comm 2]
      rw [hextent]
      exact hbody
    · refine .of_eq ?_
      by_cases hc : c = '/'
      · have hd : d ≠ '/' := fun hd => hslashes ⟨hc, hd⟩
        simp [comment?, mark, rests, hc, hd]
      · simp [comment?, mark, rests, hc]

/-! ### Quoted literals -/

section

variable {q : Char}

/-- To match a unit inside quotes leaves what the recogniser of units leaves, so that a unit fits in one way
at most. -/
theorem rests_unit (hq : q ≠ '\\') (cs : List Char) : (unit q).rests cs = ((unit? q cs).map cs.drop).toList := by
  match cs with
  | [] => rfl
  | [c] => by_cases hc : c = '\\' <;> by_cases hcq : c = q <;> simp_all [unit, unit?, rests, mark]
  | c :: d :: cs =>
    by_cases hc : c = '\\'
    · by_cases hd : d = '\n' <;> simp [unit, unit?, rests, mark, hc, hd]
    · by_cases hcq : c = q <;> simp_all [unit, unit?, rests, mark]

/-- What is left behind at most `limit` units and a closing quote. -/
def closed (q : Char) (limit : Nat) (cs : List Char) : List (List Char) :=
  (manyWithin (unit q).rests limit cs).flatMap (mark [q]).rests

/-- Where no unit fits, the closing quote has to come at once. -/
theorem closed_of_none (hq : q ≠ '\\') (h : unit? q cs = none) (limit : Nat) :
    closed q limit cs = (mark [q]).rests cs := by
  cases limit <;> simp [closed, manyWithin, rests_unit hq, h]

/-- Where a unit fits, the text does not start with a quote, so the closing quote comes behind the unit. -/
theorem closed_of_some (hq : q ≠ '\\') {c : Char} {n : Nat} (h : unit? q (c :: cs) = some n) (hc : c ≠ q)
    (limit : Nat) : closed q (limit + 1) (c :: cs) = closed q limit ((c :: cs).drop n) := by
  simp [closed, manyWithin, rests_unit hq, h, rests_mark, mark?, hc]

/-- Units and a closing quote fit in one way at most, and it is the one that the recogniser counts. -/
theorem closed_eq (hq : q ≠ '\\') (k : Nat) {limit : Nat} (hlimit : cs.length ≤ limit) :
    closed q limit cs = ((closing? q k cs).map fun n => cs.drop (n - k)).toList := by
  fun_induction closing? q k cs generalizing limit with
  | case1 k =>
    rw [closed_of_none hq rfl]
    rfl
  | case2 k =>
    rw [closed_of_none hq (by simp [unit?])]
    simp [rests_mark, mark?]
  | case3 k c hc =>
    by_cases hslash : c = '\\'
    · rw [closed_of_none hq (by simp [unit?, hslash])]
      simp [rests_mark, mark?, hc]
    · obtain ⟨limit, rfl⟩ : ∃ m, limit = m + 1 := Nat.exists_eq_add_of_le' hlimit
      rw [closed_of_some hq (n := 1) (by simp [unit?, hc, hslash]) hc]
      exact closed_of_none hq rfl limit
  | case4 k d cs =>
    rw [closed_of_none hq (by simp [unit?, hq])]
    simp [rests_mark, mark?]
  | case5 k cs hc =>
    rw [closed_of_none hq (by simp [unit?])]
    simp [rests_mark, mark?, hc]
  -- a backslash and the character behind it are one unit
  | case6 k d cs hc hd ih =>
    obtain ⟨limit, rfl⟩ := Nat.exists_eq_add_of_le' (Nat.le_trans (Nat.le_add_left 1 _) hlimit)
    have hfewer : cs.length ≤ limit := by
      simp only [List.length_cons] at hlimit
      omega
    rw [closed_of_some hq (n := 2) (by simp [unit?, hc]) hd, List.drop_succ_cons, List.drop_succ_cons,
      List.drop_zero, ih hfewer]
    cases hclosing : closing? q (k + 2) cs with
    | none => rfl
    | some n =>
      have hlt := (closing?_bounds hclosing).1
      rw [Option.map_some, Option.map_some, show n - k = n - (k + 2) + 1 + 1 by omega]
      rfl
  -- any other character is a unit of its own
  | case7 k c d cs hc hslash ih =>
    obtain ⟨limit, rfl⟩ := Nat.exists_eq_add_of_le' (Nat.le_trans (Nat.le_add_left 1 _) hlimit)
    rw [closed_of_some hq (n := 1) (by simp [unit?, hc, hslash]) hc, List.drop_succ_cons, List.drop_zero,
      ih (by simpa using hlimit)]
    cases hclosing : closing? q (k + 1) (d :: cs) with
    | none => rfl
    | some n =>
      have hlt := (closing?_bounds hclosing).1
      rw [Option.map_some, Option.map_some, show n - k = n - (k + 1) + 1 by omega]
      rfl

end

/-- The recogniser of literals between double quotes finds what their pattern prefers, up to the first quote
that is no part of a unit. -/
theorem prefers_text? (cs : List Char) :
    (seq (mark ['"']) (seq (many (unit '"')) (mark ['"']))).Prefers cs (text? cs) := by
  cases cs with
  | nil => exact prefers_seq_nil _ _
  | cons c cs =>
    by_cases hc : c = '"'
    · refine .of_eq ?_
      have hclosed : (seq (mark ['"']) (seq (many (unit '"')) (mark ['"']))).rests (c :: cs) =
          closed '"' cs.length cs := by simp [rests, mark, closed, hc]
      rw [hclosed, closed_eq (by decide) 1 (Nat.le_refl _), text?, if_pos hc]
      cases hclosing : closing? '"' 1 cs with
      | none => rfl
      | some n =>
        have hlt := (closing?_bounds hclosing).1
        rw [Option.map_some, Option.map_some, show n = n - 1 + 1 by omega]
        rfl
    · exact .of_eq (by simp [text?, rests, mark, hc])

/-- The recogniser of literals between single quotes finds what their pattern prefers, exactly one unit and
both quotes. -/
theorem prefers_character? (cs : List Char) :
    (seq (mark ['\'']) (seq (unit '\'') (mark ['\'']))).Prefers cs (character? cs) := by
  cases cs with
  | nil => exact prefers_seq_nil _ _
  | cons c cs =>
    refine .of_eq ?_
    by_cases hc : c = '\''
    · have hunit : (seq (mark ['\'']) (seq (unit '\'') (mark ['\'']))).rests (c :: cs) =
          (((unit? '\'' cs).map cs.drop).toList).flatMap (mark ['\'']).rests := by
        simp [rests, mark, rests_unit, hc]
      rw [hunit, character?, if_pos hc]
      cases unit? '\'' cs with
      | none => rfl
      | some n =>
        have hhead := List.head?_drop (l := cs) (i := n)
        have htail := List.tail_drop (l := cs) (i := n)
        cases hdrop : cs.drop n with
        | nil =>
          rw [hdrop] at hhead
          simp [hdrop, ← hhead, rests, mark]
        | cons d ds =>
          rw [hdrop] at hhead htail
          by_cases hd : d = '\''
          · simp [hdrop, ← hhead, ← htail, rests, mark, hd]
          · simp [hdrop, ← hhead, rests, mark, hd]
    · simp [character?, rests, mark, hc]

/-! ### Comparisons -/

/-- The recogniser of comparisons finds what their pattern prefers, two signs before one. -/
theorem prefers_comparison? (cs : List Char) : Shape.comparison.pattern.Prefers cs (comparison? cs) := by
  match cs with
  | [] => exact .of_eq rfl
  | [c] =>
    refine .of_eq ?_
    by_cases hless : c = '<'
    · simp [Shape.pattern, equalled, mark, rests, comparison?, hless]
    · by_cases hmore : c = '>' <;> simp [Shape.pattern, equalled, mark, rests, comparison?, hless, hmore]
  | c :: d :: cs =>
    by_cases hd : d = '='
    · subst hd
      by_cases hc : c ∈ ['=', '!', '<', '>']
      -- the two signs that also stand alone are the only case with two fronts
      · have hrests : Shape.comparison.pattern.rests (c :: '=' :: cs) =
            cs :: (if c = '<' ∨ c = '>' then ['=' :: cs] else []) := by
          simp only [List.mem_cons, List.not_mem_nil, or_false] at hc
          rcases hc with rfl | rfl | rfl | rfl <;> simp [Shape.pattern, equalled, mark, rests]
        have hextent : comparison? (c :: '=' :: cs) = some 2 := by simp [comparison?, hc]
        rw [hextent]
        refine ⟨by rw [hrests]; rfl, ?_⟩
        rintro n ⟨rfl⟩ rest hrest
        rw [hrests] at hrest
        rcases List.mem_cons.1 hrest with rfl | hrest
        · exact Nat.le_refl _
        · split at hrest
          · rw [List.mem_singleton.1 hrest]
            exact Nat.le_succ _
          · cases hrest
      · refine .of_eq ?_
        simp only [List.mem_cons, List.not_mem_nil, or_false, not_or] at hc
        simp [Shape.pattern, equalled, mark, rests, comparison?, hc]
    · refine .of_eq ?_
      by_cases hless : c = '<'
      · simp [Shape.pattern, equalled, mark, rests, comparison?, hd, hless]
      · by_cases hmore : c = '>' <;> simp [Shape.pattern, equalled, mark, rests, comparison?, hd, hless, hmore]

end Pattern

open Pattern in
/-- The recogniser of a shape finds the front that the pattern of the shape prefers, and no front that fits is
longer. -/
theorem Shape.prefers_extent? (shape : Shape) (cs : List Char) : shape.pattern.Prefers cs (shape.extent? cs) := by
  cases shape with
  | blank | number => exact prefers_run? _ cs
  | comment => exact prefers_comment? cs
  | word => exact prefers_word? cs
  | text => exact prefers_text? cs
  | character => exact prefers_character? cs
  | comparison => exact prefers_comparison? cs
  | openCurly | closeCurly | openParen | closeParen | assignment | colon | semicolon | comma | arithmetic =>
    exact .of_eq (rests_mark _ cs)

/-! ### Extents and languages -/

namespace Shape

variable {shape : Shape} {cs : List Char} {n : Nat}

/-- What a recogniser finds fits the pattern of the shape. -/
theorem take_mem_language (h : shape.extent? cs = some n) : cs.take n ∈ shape.pattern.language := by
  have hhead := (shape.prefers_extent? cs).head?
  rw [h, Option.map_some] at hhead
  obtain ⟨front, hfront, hsplit⟩ := Pattern.mem_rests_iff.1 (List.mem_of_head? hhead)
  have htake : front = cs.take n := by
    have hwhole : front ++ cs.drop n = cs.take n ++ cs.drop n := by
      rw [List.take_append_drop]
      exact hsplit.symm
    exact List.append_cancel_right hwhole
  rwa [← htake]

/-- Where a front fits, the recogniser finds one that is as long or longer. -/
theorem exists_extent?_of_mem {front : List Char} (h : front ∈ shape.pattern.language) (rest : List Char) :
    ∃ n, shape.extent? (front ++ rest) = some n ∧ front.length ≤ n := by
  obtain ⟨hhead, hlongest⟩ := shape.prefers_extent? (front ++ rest)
  have hrest : rest ∈ shape.pattern.rests (front ++ rest) := Pattern.mem_rests_iff.2 ⟨front, h, rfl⟩
  cases hextent : shape.extent? (front ++ rest) with
  | none =>
    rw [hextent, Option.map_none, List.head?_eq_none_iff] at hhead
    rw [hhead] at hrest
    cases hrest
  | some n =>
    have hle := hlongest n hextent rest hrest
    have hbound := (extent?_bounds hextent).2
    simp only [List.length_drop, List.length_append] at hle hbound
    exact ⟨n, rfl, by omega⟩

/-- The extent of a shape is the length of the longest front of the text that fits its pattern. -/
theorem extent?_eq_some_iff :
    shape.extent? cs = some n ↔ n ≤ cs.length ∧ cs.take n ∈ shape.pattern.language ∧
      ∀ front ∈ shape.pattern.language, front <+: cs → front.length ≤ n := by
  constructor
  · intro h
    refine ⟨(extent?_bounds h).2, take_mem_language h, ?_⟩
    rintro front hfront ⟨rest, rfl⟩
    obtain ⟨m, hm, hle⟩ := exists_extent?_of_mem hfront rest
    rw [h] at hm
    rwa [Option.some.inj hm]
  · rintro ⟨hn, hfits, hlongest⟩
    obtain ⟨m, hm, hle⟩ := exists_extent?_of_mem hfits (cs.drop n)
    rw [List.take_append_drop] at hm
    have hge := hlongest _ (take_mem_language hm) (List.take_prefix m cs)
    have hbound := (extent?_bounds hm).2
    rw [List.length_take] at hle hge
    rw [hm, show m = n by omega]

/-- A shape has no extent exactly where no front fits its pattern. -/
theorem extent?_eq_none_iff :
    shape.extent? cs = none ↔ ∀ front ∈ shape.pattern.language, ¬ front <+: cs := by
  constructor
  · rintro h front hfront ⟨rest, rfl⟩
    obtain ⟨n, hn, -⟩ := exists_extent?_of_mem hfront rest
    rw [h] at hn
    cases hn
  · intro h
    cases hextent : shape.extent? cs with
    | none => rfl
    | some n => exact absurd (List.take_prefix n cs) (h _ (take_mem_language hextent))

end Shape

end BraceLang.Lexeme
