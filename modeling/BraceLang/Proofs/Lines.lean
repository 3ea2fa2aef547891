import BraceLang.Source.Line
import Mathlib.Data.List.DropRight
import Mathlib.Data.List.Count

/-!
# The line of a place

A place inside a source is looked for line by line, and the place at its end is put together from what follows the last
newline. Both give a line that lies in the source in the same way: behind the start of the source or a newline, with no
newline in it but the one at its end, and with the place in front of that newline (`Line.Lies`, `exists_lies_of_at?`).

This determines the line from the bytes of the source alone: where it starts, where it stops, and how many newlines
stand before it (`place`). So one rule in terms of bytes says what is found at any offset, and that nothing is found
beyond the end (`at?_eq_place`).
-/

set_option autoImplicit false

namespace BraceLang

namespace Text

/-! ### Taking and dropping up to a character -/

section

variable {c : Char} {p : Char → Bool}

/-- What is dropped at the start of a text stops at the first character that is not dropped. -/
theorem dropWhile_append_cons (hc : p c = false) (front back : List Char) :
    (front ++ c :: back).dropWhile p = front.dropWhile p ++ c :: back := by
  rw [List.dropWhile_append]
  split
  · rename_i hempty
    rw [List.isEmpty_iff.1 hempty, List.dropWhile_cons_of_neg (by simp [hc]), List.nil_append]
  · rfl

/-- What is taken at the start of a text stops there as well. -/
theorem takeWhile_append_cons (hc : p c = false) (front back : List Char) :
    (front ++ c :: back).takeWhile p = front.takeWhile p := by
  rw [List.takeWhile_append]
  split
  · rename_i hall
    rw [List.takeWhile_cons_of_neg (by simp [hc]), List.append_nil,
      (List.takeWhile_prefix p).eq_of_length hall]
  · rfl

end

section

variable {α : Type} [DecidableEq α] {a : α} {inner rest : List α}
  (hinner : a ∉ inner) (hrest : rest = [] ∨ rest.head? = some a)

include hinner hrest

/-- A front without `a` that is followed by one, or by nothing, is all that is taken up to the first `a`. -/
theorem takeWhile_ne_append : (inner ++ rest).takeWhile (· ≠ a) = inner := by
  have hpass : ∀ b ∈ inner, decide (b ≠ a) = true := fun b hb => decide_eq_true fun heq => hinner (heq ▸ hb)
  rw [List.takeWhile_append_of_pos hpass]
  rcases hrest with rfl | hhead
  · simp
  · obtain ⟨more, rfl⟩ := List.head?_eq_some_iff.1 hhead
    rw [List.takeWhile_cons_of_neg (by simp), List.append_nil]

/-- What is left behind such a front begins with that `a`, or is nothing. -/
theorem dropWhile_ne_append : (inner ++ rest).dropWhile (· ≠ a) = rest := by
  have hall := List.takeWhile_append_dropWhile (p := (· ≠ a)) (l := inner ++ rest)
  rw [takeWhile_ne_append hinner hrest] at hall
  exact List.append_cancel_left hall

end

/-- Seen from the end, what lies behind the last occurrence. -/
theorem rdropWhile_ne_append {α : Type} [DecidableEq α] {a : α} {front inner : List α} (hinner : a ∉ inner)
    (hfront : front = [] ∨ front.getLast? = some a) : (front ++ inner).rdropWhile (· ≠ a) = front := by
  rw [List.getLast?_eq_head?_reverse, ← List.reverse_eq_nil_iff] at hfront
  rw [List.rdropWhile, List.reverse_append, dropWhile_ne_append (mt List.mem_reverse.1 hinner) hfront,
    List.reverse_reverse]

/-! ### Bytes -/

/-- The bytes of a text in UTF-8. -/
def utf8 (cs : List Char) : List UInt8 :=
  cs.flatMap String.utf8EncodeChar

/-- The byte of a newline. -/
def newline : UInt8 := 10

/-- The bytes of two texts in a row are their bytes in a row, so that a source can be cut between any two
characters. -/
@[simp]
theorem utf8_append (cs ds : List Char) : utf8 (cs ++ ds) = utf8 cs ++ utf8 ds :=
  List.flatMap_append

/-- The bytes of a string are those of its characters, in the encoding that the string is stored in. -/
theorem utf8_toList (s : String) : utf8 s.toList = s.toUTF8.data.toList := by
  have hbytes : (String.ofList s.toList).toByteArray = s.toList.utf8Encode := String.toByteArray_ofList
  rw [String.ofList_toList] at hbytes
  rw [String.toUTF8_eq_toByteArray, hbytes, List.utf8Encode, List.toList_data_toByteArray, utf8]

/-- A text has as many bytes as offsets count for it. -/
@[simp]
theorem length_utf8 (cs : List Char) : (utf8 cs).length = byteLength cs := by
  induction cs with
  | nil => rfl
  | cons c cs ih =>
    rw [utf8, List.flatMap_cons, List.length_append, String.length_utf8EncodeChar, byteLength_cons, ← ih, utf8]

/-- The bytes of a character of several bytes are above those of ASCII. -/
theorem le_toNat_of_mem_utf8EncodeChar {c : Char} {b : UInt8} (hc : ¬ c.val.toNat ≤ 127)
    (hb : b ∈ String.utf8EncodeChar c) : 128 ≤ b.toNat := by
  revert b
  unfold String.utf8EncodeChar
  dsimp only
  rw [if_neg hc]
  repeat' split
  all_goals
    simp only [List.forall_mem_cons, List.not_mem_nil, false_implies, implies_true, and_true, UInt8.toNat_ofNat']
    omega

/-- The byte of a newline stands for a newline and is no part of another character. -/
theorem newline_mem_utf8EncodeChar_iff (c : Char) : newline ∈ String.utf8EncodeChar c ↔ c = '\n' := by
  constructor
  · intro h
    by_cases hc : c.val.toNat ≤ 127
    · unfold String.utf8EncodeChar at h
      rw [if_pos hc, List.mem_singleton] at h
      have hval : c.val.toNat % 256 = 10 := by simpa [newline] using (congrArg UInt8.toNat h).symm
      have hnewline : c.val.toNat = 10 := by omega
      exact Char.ext (UInt32.toNat_inj.1 hnewline)
    · exact absurd (le_toNat_of_mem_utf8EncodeChar hc h) (by decide)
  · rintro rfl
    decide

/-- A text has as many bytes of newlines as newlines. -/
theorem count_newline_utf8 (cs : List Char) : (utf8 cs).count newline = cs.count '\n' := by
  induction cs with
  | nil => rfl
  | cons c cs ih =>
    have hcons : utf8 (c :: cs) = String.utf8EncodeChar c ++ utf8 cs := List.flatMap_cons
    rw [hcons, List.count_append, ih, List.count_cons, Nat.add_comm]
    by_cases hc : c = '\n'
    · subst hc
      rfl
    · have hnone := mt (newline_mem_utf8EncodeChar_iff c).1 hc
      simp [List.count_eq_zero_of_not_mem hnone, hc]

/-- A text has a newline exactly if its bytes have that of one. -/
theorem newline_mem_utf8_iff (cs : List Char) : newline ∈ utf8 cs ↔ '\n' ∈ cs := by
  rw [← List.count_pos_iff, count_newline_utf8, List.count_pos_iff]

end Text

namespace Line

open Text (byteLength utf8 newline)

/-! ### The rule -/

/-- Where the line of an offset starts: behind the last newline in front of the offset, or at the start. -/
def startOf (bytes : List UInt8) (offset : Nat) : Nat :=
  ((bytes.take offset).rdropWhile (· ≠ newline)).length

/-- Where the line of an offset stops: behind the next newline from the offset on, or at the end. -/
def stopOf (bytes : List UInt8) (offset : Nat) : Nat :=
  min (offset + ((bytes.drop offset).takeWhile (· ≠ newline)).length + 1) bytes.length

/-- The number of the line of an offset, the bytes of the line, and how many of them stand in front of the offset. -/
def place (bytes : List UInt8) (offset : Nat) : Nat × List UInt8 × Nat :=
  (1 + (bytes.take offset).count newline, (bytes.take (stopOf bytes offset)).drop (startOf bytes offset),
    offset - startOf bytes offset)

section

variable {front body back : List UInt8} {column : Nat}
  (hfront : front = [] ∨ front.getLast? = some newline) (hbody : newline ∉ body)
  (hback : back = [] ∨ back.head? = some newline) (hcolumn : column ≤ body.length)

include hfront hbody hcolumn in
/-- The line of a place starts where its text does: behind the front, which ends with a newline or is
empty. -/
theorem startOf_append : startOf (front ++ (body ++ back)) (front.length + column) = front.length := by
  have hinner : newline ∉ body.take column := mt List.mem_of_mem_take hbody
  rw [startOf, List.take_length_add_append, List.take_append_of_le_length hcolumn,
    Text.rdropWhile_ne_append hinner hfront]

include hbody hback hcolumn in
/-- The line of a place stops behind the newline that follows its text, or at the end of the source. -/
theorem stopOf_append :
    stopOf (front ++ (body ++ back)) (front.length + column) = front.length + (body ++ back.take 1).length := by
  have hinner : newline ∉ body.drop column := mt List.mem_of_mem_drop hbody
  rw [stopOf, List.drop_length_add_append, List.drop_append_of_le_length hcolumn,
    Text.takeWhile_ne_append hinner hback]
  simp only [List.length_drop, List.length_append, List.length_take]
  omega

include hfront hbody hback hcolumn in
/-- A line that starts and stops as it should, and a place in it in front of its newline. -/
theorem place_append :
    place (front ++ (body ++ back)) (front.length + column) =
      (1 + front.count newline, body ++ back.take 1, column) := by
  have hnone : (body.take column).count newline = 0 :=
    List.count_eq_zero_of_not_mem fun hmem => hbody (List.mem_of_mem_take hmem)
  have hsplit : front ++ (body ++ back) = (front ++ (body ++ back.take 1)) ++ back.drop 1 := by
    rw [List.append_assoc, List.append_assoc, List.take_append_drop]
  have hline : (front ++ (body ++ back)).take (front.length + (body ++ back.take 1).length) =
      front ++ (body ++ back.take 1) := by
    rw [hsplit, List.take_left' List.length_append]
  rw [place, startOf_append hfront hbody hcolumn, stopOf_append hbody hback hcolumn, hline, List.drop_left,
    List.take_length_add_append, List.take_append_of_le_length hcolumn, List.count_append, hnone,
    Nat.add_sub_cancel_left, Nat.add_zero]

end

/-! ### How a line lies in its source -/

/-- The line of an offset into `before ++ (body ++ behind)`: `body`, and the newline behind it if there is one. -/
structure Lies (before body behind : List Char) (offset : Nat) (line : Line) : Prop where
  starts : before = [] ∨ before.getLast? = some '\n'
  inner : '\n' ∉ body
  stops : behind = [] ∨ behind.head? = some '\n'
  number : line.number = 1 + before.count '\n'
  text : line.text = body ++ behind.take 1
  offset_eq : offset = byteLength before + line.column
  column_le : line.column ≤ byteLength body

variable {before body behind : List Char} {offset : Nat} {line : Line}

/-- A line that lies in its source is the one that the rule gives. -/
theorem Lies.place_eq (h : Lies before body behind offset line) :
    place (utf8 (before ++ (body ++ behind))) offset = (line.number, utf8 line.text, line.column) := by
  have hfront : utf8 before = [] ∨ (utf8 before).getLast? = some newline := by
    rcases h.starts with rfl | hlast
    · exact .inl rfl
    · obtain ⟨more, rfl⟩ := List.getLast?_eq_some_iff.1 hlast
      right
      rw [Text.utf8_append, List.getLast?_append]
      rfl
  have hbehind : (utf8 behind = [] ∨ (utf8 behind).head? = some newline) ∧
      (utf8 behind).take 1 = utf8 (behind.take 1) := by
    rcases h.stops with rfl | hhead
    · exact ⟨.inl rfl, rfl⟩
    · obtain ⟨more, rfl⟩ := List.head?_eq_some_iff.1 hhead
      exact ⟨.inr rfl, rfl⟩
  have hbody : newline ∉ utf8 body := mt (Text.newline_mem_utf8_iff body).1 h.inner
  have hcolumn : line.column ≤ (utf8 body).length := by simpa using h.column_le
  have hoffset : offset = (utf8 before).length + line.column := by simpa using h.offset_eq
  rw [Text.utf8_append, Text.utf8_append, hoffset, place_append hfront hbody hbehind.1 hcolumn,
    Text.count_newline_utf8, h.number, h.text, Text.utf8_append, hbehind.2]

/-! ### Places inside a source -/

/-- Lines that end with a newline each, but for the last, which may go without. -/
inductive Lined : List (List Char) → Prop
  | nil : Lined []
  | last {body : List Char} (h : '\n' ∉ body) : Lined [body]
  | cons {body : List Char} {lines : List (List Char)} (h : '\n' ∉ body) (more : Lined lines) :
      Lined ((body ++ ['\n']) :: lines)

/-- A character in front of lines keeps them in their form: it starts the first line, or is a line if it is
a newline. -/
theorem Lined.consChar {lines : List (List Char)} (h : Lined lines) (c : Char) : Lined (consChar c lines) := by
  by_cases hc : c = '\n'
  · subst hc
    have hempty {lines : List (List Char)} (more : Lined lines) : Lined (['\n'] :: lines) :=
      @Lined.cons [] lines (by simp) more
    cases h with
    | nil => exact hempty .nil
    | last hbody => exact hempty (.last hbody)
    | cons hbody more => exact hempty (.cons hbody more)
  · have hnot {body : List Char} (hbody : '\n' ∉ body) : '\n' ∉ c :: body := by simp [Ne.symm hc, hbody]
    cases h with
    | nil => exact .last (hnot (by simp))
    | last hbody => simpa [Line.consChar, hc] using Lined.last (hnot hbody)
    | cons hbody more => simpa [Line.consChar, hc] using Lined.cons (hnot hbody) more

/-- A text that is cut after each newline is cut into lines. The induction is on the text. -/
theorem lined_split (cs : List Char) : Lined (split cs) := by
  induction cs with
  | nil => exact .nil
  | cons c cs ih => exact ih.consChar c

/-- A line that is found among others lies in them, behind the text that they follow. -/
theorem Lined.exists_lies {lines : List (List Char)} (h : Lined lines)
    (hstarts : before = [] ∨ before.getLast? = some '\n')
    (hfound : inside? (1 + before.count '\n') (byteLength before) offset lines = some line) :
    ∃ front body behind, before ++ lines.flatten = front ++ (body ++ behind) ∧
      Lies front body behind offset line := by
  induction h generalizing before with
  | nil => cases hfound
  | @last body hbody =>
    simp only [inside?] at hfound
    split at hfound
    · rename_i hin
      cases hfound
      refine ⟨before, body, [], by simp, hstarts, hbody, .inl rfl, rfl, by simp, ?_, ?_⟩ <;> dsimp only <;> omega
    · cases hfound
  | @cons body lines hbody more ih =>
    have hnewline : byteLength ['\n'] = 1 := rfl
    simp only [inside?, Text.byteLength_append, hnewline] at hfound
    split at hfound
    · rename_i hin
      cases hfound
      refine ⟨before, body, '\n' :: lines.flatten, by simp, hstarts, hbody, .inr rfl, rfl, rfl, ?_, ?_⟩ <;>
        dsimp only <;> omega
    · -- the line is passed over and joins what stands in front
      have hnumber : (before ++ (body ++ ['\n'])).count '\n' = before.count '\n' + 1 := by
        simp [List.count_append, List.count_eq_zero_of_not_mem hbody]
      have hlast : (before ++ (body ++ ['\n'])).getLast? = some '\n' := by simp [List.getLast?_append]
      rw [Nat.add_assoc, ← hnumber, ← hnewline, ← Text.byteLength_append, ← Text.byteLength_append] at hfound
      obtain ⟨front, inner, behind, hsplit, hlies⟩ := ih (.inr hlast) hfound
      exact ⟨front, inner, behind, by simpa using hsplit, hlies⟩

/-- Nothing is found among lines that stop at the offset or before it. -/
theorem inside?_eq_none_iff {number start : Nat} {lines : List (List Char)} (hstart : start ≤ offset) :
    inside? number start offset lines = none ↔ start + byteLength lines.flatten ≤ offset := by
  induction lines generalizing number start with
  | nil => simpa [inside?] using hstart
  | cons line lines ih =>
    simp only [inside?, List.flatten_cons, Text.byteLength_append]
    split
    · simp only [reduceCtorEq, false_iff]
      omega
    · rw [ih (by omega)]
      omega

/-! ### The place at the end -/

/-- A text without newlines, behind a newline or at the start, is what follows the last newline. -/
theorem last_append (hstarts : before = [] ∨ before.getLast? = some '\n') (hbody : '\n' ∉ body) :
    last (before ++ body) = body := by
  rw [List.getLast?_eq_head?_reverse, ← List.reverse_eq_nil_iff] at hstarts
  rw [last, List.reverse_append, Text.takeWhile_ne_append (mt List.mem_reverse.1 hbody) hstarts, List.reverse_reverse]

/-- What follows the last newline of a text has no newline in it. -/
theorem newline_not_mem_last (cs : List Char) : '\n' ∉ last cs := by
  intro hmem
  have := List.mem_takeWhile_imp (List.mem_reverse.1 hmem)
  simp at this

/-- What follows the last newline is the rest of the text behind that newline, or the whole text. -/
theorem exists_append_last (cs : List Char) :
    ∃ before, cs = before ++ last cs ∧ (before = [] ∨ before.getLast? = some '\n') := by
  refine ⟨(cs.reverse.dropWhile (· ≠ '\n')).reverse, ?_, ?_⟩
  · rw [last, ← List.reverse_append, List.takeWhile_append_dropWhile, List.reverse_reverse]
  · rw [List.reverse_eq_nil_iff, List.getLast?_reverse]
    cases hdrop : cs.reverse.dropWhile (· ≠ '\n') with
    | nil => exact .inl rfl
    | cons c more =>
      have hc := List.head?_dropWhile_not (fun c => decide (c ≠ '\n')) cs.reverse
      rw [hdrop] at hc
      right
      simpa using hc

/-- The end of a source lies in what follows the last newline. -/
theorem exists_lies_ending (source : List Char) :
    ∃ before, source = before ++ (last source ++ []) ∧
      Lies before (last source) [] (byteLength source) (ending source) := by
  have hinner := newline_not_mem_last source
  obtain ⟨before, hsource, hstarts⟩ := exists_append_last source
  have hcount : source.count '\n' = before.count '\n' := by
    have := congrArg (List.count '\n') hsource
    rwa [List.count_append, List.count_eq_zero_of_not_mem hinner] at this
  have hlength := congrArg byteLength hsource
  rw [Text.byteLength_append] at hlength
  refine ⟨before, by rwa [List.append_nil], hstarts, hinner, .inl rfl, ?_, ?_, hlength, Nat.le_refl _⟩
  · rw [ending, hcount, Nat.add_comm]
  · simp [ending]

/-! ### Every place -/

/-- Wherever it was found, a line lies in its source. -/
theorem exists_lies_of_at? {source : List Char} (h : at? source offset = some line) :
    ∃ before body behind, source = before ++ (body ++ behind) ∧ Lies before body behind offset line := by
  unfold at? at h
  split at h
  · rename_i found hfound
    cases h
    have hlines : ∃ before body behind, (split source).flatten = before ++ (body ++ behind) ∧
        Lies before body behind offset line := (lined_split source).exists_lies (.inl rfl) hfound
    rwa [flatten_split] at hlines
  · split at h
    · rename_i hend
      cases h
      obtain ⟨before, hsource, hlies⟩ := exists_lies_ending source
      exact ⟨before, last source, [], hsource, hend ▸ hlies⟩
    · cases h

/-- Every place up to the end of a source is in a line, and no other place is. -/
theorem at?_isSome_iff {source : List Char} : (at? source offset).isSome = true ↔ offset ≤ byteLength source := by
  have hinside : inside? 1 0 offset (split source) = none ↔ byteLength source ≤ offset := by
    rw [inside?_eq_none_iff (Nat.zero_le offset), flatten_split, Nat.zero_add]
  unfold at?
  split
  · rename_i line hfound
    rw [hfound] at hinside
    simp only [reduceCtorEq, false_iff] at hinside
    simp only [Option.isSome_some, true_iff]
    omega
  · rename_i hnone
    have hle := hinside.1 hnone
    split
    · simp only [Option.isSome_some, true_iff]
      omega
    · simp only [Option.isSome_none, Bool.false_eq_true, false_iff]
      omega

/-- One rule says what is found at every offset, be it inside the source, on a newline, inside a character or at the
end: the line that the bytes of the source have there. Nothing is found beyond the end. -/
theorem at?_eq_place (source : String) (offset : Nat) :
    (at? source.toList offset).map
        (fun line => (line.number, (String.ofList line.text).toUTF8.data.toList, line.column)) =
      if offset ≤ source.utf8ByteSize then some (place source.toUTF8.data.toList offset) else none := by
  have hsome : (at? source.toList offset).isSome = true ↔ offset ≤ source.utf8ByteSize := by
    rw [at?_isSome_iff, Text.byteLength_toList]
  cases hfound : at? source.toList offset with
  | none =>
    rw [hfound] at hsome
    rw [if_neg fun hle => by simpa using hsome.2 hle]
    rfl
  | some line =>
    rw [hfound] at hsome
    obtain ⟨before, body, behind, hsource, hlies⟩ := exists_lies_of_at? hfound
    rw [if_pos (hsome.1 rfl), Option.map_some, ← Text.utf8_toList, ← Text.utf8_toList, String.toList_ofList, hsource,
      hlies.place_eq]

end Line

end BraceLang
