/-!
# Byte lengths of texts

Offsets into a source count the bytes of its UTF-8 encoding. Texts are taken apart as lists of characters,
so this module gives such a list its byte length and the rest of a list from a byte offset on, which exists
only where a character starts or the text ends.
-/

set_option autoImplicit false

namespace BraceLang.Text

/-- The number of bytes that `cs` takes in UTF-8, in which offsets are counted. -/
def byteLength (cs : List Char) : Nat :=
  cs.foldr (fun c n => c.utf8Size + n) 0

/-- No characters take no bytes, which is where the offsets of a source start. -/
@[simp]
theorem byteLength_nil : byteLength [] = 0 := rfl

/-- One more character in front adds its own bytes, between one and four of them. -/
@[simp]
theorem byteLength_cons (c : Char) (cs : List Char) :
    byteLength (c :: cs) = c.utf8Size + byteLength cs := rfl

/-- The bytes of a text are those of its parts, so that the offset of a lexeme is the length of what
precedes it. -/
@[simp]
theorem byteLength_append (cs ds : List Char) :
    byteLength (cs ++ ds) = byteLength cs + byteLength ds := by
  induction cs with
  | nil => simp
  | cons c cs ih => rw [List.cons_append, byteLength_cons, ih, byteLength_cons, Nat.add_assoc]

/-- The bytes of a string built from characters are those of the characters. -/
theorem utf8ByteSize_ofList (cs : List Char) : (String.ofList cs).utf8ByteSize = byteLength cs := by
  induction cs with
  | nil => simp
  | cons c cs ih =>
    have hcons : String.ofList (c :: cs) = String.singleton c ++ String.ofList cs := by
      rw [String.singleton_eq_ofList, ← String.ofList_append, List.singleton_append]
    rw [hcons, String.utf8ByteSize_append, ih, String.utf8ByteSize_singleton, byteLength_cons]

/-- The bytes of a string are those of its characters, so the size of a source is that of what is read of
it. -/
theorem byteLength_toList (s : String) : byteLength s.toList = s.utf8ByteSize := by
  rw [← utf8ByteSize_ofList, String.ofList_toList]

/-- What follows the first `n` bytes of `cs`, if a character starts there or `cs` ends there. -/
def dropBytes? : Nat → List Char → Option (List Char)
  | 0, cs => some cs
  | _ + 1, [] => none
  | n + 1, c :: cs => if c.utf8Size ≤ n + 1 then dropBytes? (n + 1 - c.utf8Size) cs else none

/-- The rest from byte `n` on is `ds` exactly when `n` bytes of whole characters stand before `ds`. -/
theorem dropBytes?_eq_some_iff {n : Nat} {cs ds : List Char} :
    dropBytes? n cs = some ds ↔ ∃ front, cs = front ++ ds ∧ byteLength front = n := by
  induction cs generalizing n with
  | nil =>
    cases n with
    | zero =>
      simp only [dropBytes?, Option.some.injEq]
      constructor
      · rintro rfl
        exact ⟨[], rfl, rfl⟩
      · rintro ⟨front, h, -⟩
        exact (List.append_eq_nil_iff.1 h.symm).2.symm
    | succ n =>
      simp only [dropBytes?, reduceCtorEq, false_iff, not_exists, not_and]
      intro front h
      obtain ⟨rfl, rfl⟩ := List.append_eq_nil_iff.1 h.symm
      simp
  | cons c cs ih =>
    have hc := c.utf8Size_pos
    cases n with
    | zero =>
      simp only [dropBytes?, Option.some.injEq]
      constructor
      · rintro rfl
        exact ⟨[], rfl, rfl⟩
      · rintro ⟨front, h, hlen⟩
        cases front with
        | nil => exact h
        | cons d front =>
          have hd := d.utf8Size_pos
          simp only [byteLength_cons] at hlen
          omega
    | succ n =>
      simp only [dropBytes?]
      split
      · rename_i hle
        rw [ih]
        constructor
        · rintro ⟨front, rfl, hlen⟩
          exact ⟨c :: front, rfl, by simp only [byteLength_cons]; omega⟩
        · rintro ⟨front, h, hlen⟩
          cases front with
          | nil => simp at hlen
          | cons d front =>
            obtain ⟨rfl, rfl⟩ := List.cons.inj h
            exact ⟨front, rfl, by simp only [byteLength_cons] at hlen; omega⟩
      · rename_i hlt
        simp only [reduceCtorEq, false_iff, not_exists, not_and]
        rintro front h hlen
        cases front with
        | nil => simp at hlen
        | cons d front =>
          obtain ⟨rfl, rfl⟩ := List.cons.inj h
          simp only [byteLength_cons] at hlen
          omega

end BraceLang.Text
