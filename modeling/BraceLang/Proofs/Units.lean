import BraceLang.Proofs.Longest

/-!
# Units of quoted literals

The pattern of a quoted literal divides what stands between the quotes into units: a backslash together with the
character after it, or another character alone. Unescaping knows nothing of this division. It goes on character by
character, and where a backslash makes no escape it takes the backslash alone and looks at the next character anew.

Both come to the same. The character after such a backslash is none that starts an escape, so what unescaping makes of
a unit depends on the unit alone (`unescape_written_append`), and a row of units denotes what its units denote one by
one (`unescape_units`). No text can be divided into units in two ways (`QuotedUnit.written_inj`), so there is no other
pairing of the backslashes than that of the pattern.
-/

set_option autoImplicit false

open scoped Computability

namespace BraceLang.Lexeme

/-- What the inside of a quoted literal is made of. -/
inductive QuotedUnit where
  /-- A backslash and a character that is no newline. -/
  | escape (c : Char) (h : c ≠ '\n')
  /-- A character other than the backslash. -/
  | plain (c : Char) (h : c ≠ '\\')

namespace QuotedUnit

/-- The characters of a unit, two of them for a backslash and what stands behind it. -/
def text : QuotedUnit → List Char
  | escape c _ => ['\\', c]
  | plain c _ => [c]

/-- The characters that a unit stands for. A backslash that makes no escape stands for itself. -/
def meaning : QuotedUnit → List Char
  | escape 'n' _ => ['\n']
  | escape 't' _ => ['\t']
  | escape 'r' _ => ['\r']
  | escape '0' _ => ['\x00']
  | escape '\\' _ => ['\\']
  | escape '"' _ => ['"']
  | escape '\'' _ => ['\'']
  | unit => unit.text

/-- The characters of a row of units, one unit after the other. -/
def written (units : List QuotedUnit) : List Char :=
  units.flatMap text

/-- The characters that a row of units stands for, unit by unit. -/
def decoded (units : List QuotedUnit) : List Char :=
  units.flatMap meaning

/-- The first unit of a row stands in front of the characters of the others. -/
@[simp]
theorem written_cons (unit : QuotedUnit) (units : List QuotedUnit) :
    written (unit :: units) = unit.text ++ written units := rfl

/-- What the first unit of a row stands for comes in front of what the others stand for. -/
@[simp]
theorem decoded_cons (unit : QuotedUnit) (units : List QuotedUnit) :
    decoded (unit :: units) = unit.meaning ++ decoded units := rfl

/-- Seven characters make an escape, and behind the backslash any other stays as it is. -/
theorem meaning_escape (c : Char) (h : c ≠ '\n') :
    (∃ e, escaped? c = some e ∧ (escape c h).meaning = [e]) ∨
    (escaped? c = none ∧ c ≠ '\\' ∧ (escape c h).meaning = ['\\', c]) := by
  unfold meaning
  split
  case h_8 hn ht hr h0 hslash hdouble hsingle =>
    have hne {d : Char} (hd : ∀ hd, escape c h = escape d hd → False) : (c == d) = false := by
      rw [beq_eq_false_iff_ne]
      rintro rfl
      exact hd h rfl
    refine .inr ⟨?_, beq_eq_false_iff_ne.1 (hne hslash), rfl⟩
    simp [escaped?, List.lookup_cons, hne hn, hne ht, hne hr, hne h0, hne hslash, hne hdouble, hne hsingle]
  all_goals
    rename_i heq
    cases heq
    exact .inl ⟨_, rfl, rfl⟩

end QuotedUnit

open QuotedUnit (written decoded)

/-! ### Unescaping unit by unit -/

/-- Whatever follows a unit, unescaping makes of it what it means and goes on behind it. -/
theorem unescape_unit_append (unit : QuotedUnit) (back : List Char) :
    unescape (unit.text ++ back) = unit.meaning ++ unescape back := by
  cases unit with
  | plain c h => exact unescape_cons h back
  | escape c h =>
    obtain ⟨e, hescaped, hmeaning⟩ | ⟨hescaped, hslash, hmeaning⟩ := QuotedUnit.meaning_escape c h
    · rw [hmeaning]
      exact unescape_escape hescaped back
    · rw [hmeaning]
      -- the backslash is kept, and the character behind it does not start an escape of its own
      calc unescape ('\\' :: c :: back) = '\\' :: unescape (c :: back) := unescape_backslash hescaped back
        _ = '\\' :: c :: unescape back := by rw [unescape_cons hslash]

/-- Whatever follows a row of units, they denote what they denote one by one. -/
theorem unescape_written_append (units : List QuotedUnit) (back : List Char) :
    unescape (written units ++ back) = decoded units ++ unescape back := by
  induction units with
  | nil => rfl
  | cons unit units ih =>
    rw [QuotedUnit.written_cons, QuotedUnit.decoded_cons, List.append_assoc, unescape_unit_append, ih,
      List.append_assoc]

/-- A row of units denotes what its units denote one by one. The induction is on the row. -/
theorem unescape_written (units : List QuotedUnit) : unescape (written units) = decoded units := by
  simpa using unescape_written_append units []

/-! ### Dividing into units -/

/-- The first character of a unit tells how long it is, so the first units of equal texts are equal. -/
theorem QuotedUnit.text_append_inj {unit other : QuotedUnit} {back back' : List Char}
    (h : unit.text ++ back = other.text ++ back') : unit = other ∧ back = back' := by
  cases unit with
  | escape c hc =>
    cases other with
    | escape d hd => simpa [text] using h
    | plain d hd => exact absurd (List.cons.inj h).1.symm hd
  | plain c hc =>
    cases other with
    | escape d hd => exact absurd (List.cons.inj h).1 hc
    | plain d hd => simpa [text] using h

/-- No text is divided into units in two ways, so that every backslash is paired in one way only. -/
theorem QuotedUnit.written_inj {units others : List QuotedUnit} (h : written units = written others) :
    units = others := by
  have hne (unit : QuotedUnit) (more : List QuotedUnit) : written (unit :: more) ≠ [] := by
    cases unit <;> simp [text]
  induction units generalizing others with
  | nil =>
    cases others with
    | nil => rfl
    | cons other others => exact absurd h.symm (hne other others)
  | cons unit units ih =>
    cases others with
    | nil => exact absurd h (hne unit units)
    | cons other others =>
      obtain ⟨rfl, hrest⟩ := text_append_inj h
      rw [ih hrest]

/-- What the pattern of a unit fits is a unit. -/
theorem QuotedUnit.exists_of_mem_language {q : Char} {cs : List Char} (h : cs ∈ (Pattern.unit q).language) :
    ∃ unit : QuotedUnit, unit.text = cs := by
  rcases Pattern.mem_language_either.1 h with hescape | ⟨c, hc, rfl⟩
  · obtain ⟨front, hfront, back, ⟨c, hc, rfl⟩, rfl⟩ := Pattern.mem_language_seq.1 hescape
    obtain ⟨slash, hslash, rfl⟩ := Pattern.mem_language_mark.1 hfront
    obtain rfl := List.mem_singleton.1 hslash
    exact ⟨.escape c (of_decide_eq_true hc), rfl⟩
  · exact ⟨.plain c (of_decide_eq_true hc).2, rfl⟩

/-- What a repetition of the pattern of a unit fits is a row of units. -/
theorem QuotedUnit.exists_written_of_mem_language {q : Char} {cs : List Char}
    (h : cs ∈ (Pattern.unit q).language∗) : ∃ units, written units = cs := by
  obtain ⟨parts, rfl, hparts⟩ := Language.mem_kstar.1 h
  clear h
  induction parts with
  | nil => exact ⟨[], rfl⟩
  | cons part parts ih =>
    obtain ⟨hpart, hmore⟩ := List.forall_mem_cons.1 hparts
    obtain ⟨unit, rfl⟩ := exists_of_mem_language hpart
    obtain ⟨units, hunits⟩ := ih hmore
    exact ⟨unit :: units, by rw [written_cons, hunits, List.flatten_cons]⟩

/-- Between its quotes a literal is a row of units. -/
theorem exists_written_of_next? {start : Nat} {cs rest : List Char} {lexeme : Lexeme}
    (hnext : next? start cs = some (lexeme, rest)) (hshape : lexeme.shape = .text ∨ lexeme.shape = .character) :
    ∃ (q : Char) (units : List QuotedUnit), lexeme.text = q :: (written units ++ [q]) := by
  -- both patterns are a quote, an inside and the same quote
  have hquoted {q : Char} {body : Pattern}
      (h : lexeme.text ∈ (Pattern.seq (.mark [q]) (.seq body (.mark [q]))).language) :
      ∃ inside ∈ body.language, lexeme.text = q :: (inside ++ [q]) := by
    obtain ⟨opening, hopening, more, hmore, htext⟩ := Pattern.mem_language_seq.1 h
    obtain ⟨inside, hinside, closing, hclosing, rfl⟩ := Pattern.mem_language_seq.1 hmore
    obtain ⟨c, hc, rfl⟩ := Pattern.mem_language_mark.1 hopening
    obtain ⟨d, hd, rfl⟩ := Pattern.mem_language_mark.1 hclosing
    obtain rfl := List.mem_singleton.1 hc
    obtain rfl := List.mem_singleton.1 hd
    exact ⟨inside, hinside, htext.symm⟩
  have hmem := text_mem_language hnext
  rcases hshape with hshape | hshape
  · rw [hshape] at hmem
    obtain ⟨inside, hinside, htext⟩ := hquoted hmem
    obtain ⟨units, rfl⟩ := QuotedUnit.exists_written_of_mem_language hinside
    exact ⟨'"', units, htext⟩
  · rw [hshape] at hmem
    obtain ⟨inside, hinside, htext⟩ := hquoted hmem
    obtain ⟨unit, rfl⟩ := QuotedUnit.exists_of_mem_language hinside
    exact ⟨'\'', [unit], by simpa [written] using htext⟩

/-- What stands between the quotes of a literal denotes what its units denote. -/
theorem value_of_written {lexeme : Lexeme} {q : Char} {units : List QuotedUnit}
    (hshape : lexeme.shape = .text ∨ lexeme.shape = .character)
    (htext : lexeme.text = q :: (written units ++ [q])) : lexeme.value = String.ofList (decoded units) := by
  have hvalue : lexeme.value = String.ofList (unescape lexeme.text.tail.dropLast) := by
    rcases hshape with hshape | hshape <;> simp [value, hshape]
  rw [hvalue, htext, List.tail_cons, List.dropLast_concat, unescape_written]

/-! ### Two readings of escapes -/

/-- A row of units is unescaped unit by unit, whatever text follows it, and a text has one row of units at most. A
quoted literal has one, the one that its pattern found, and its value is what these units denote. -/
theorem unescape_units :
    (∀ units : List QuotedUnit, unescape (written units) = decoded units) ∧
    (∀ (units : List QuotedUnit) (back : List Char),
      unescape (written units ++ back) = unescape (written units) ++ unescape back) ∧
    (∀ units others : List QuotedUnit, written units = written others → units = others) ∧
    ∀ (start : Nat) (cs rest : List Char) (lexeme : Lexeme), next? start cs = some (lexeme, rest) →
      lexeme.shape = .text ∨ lexeme.shape = .character →
      ∃ (q : Char) (units : List QuotedUnit), lexeme.text = q :: (written units ++ [q]) ∧
        lexeme.value = String.ofList (decoded units) := by
  refine ⟨unescape_written, fun units back => ?_, fun _ _ => QuotedUnit.written_inj, ?_⟩
  · rw [unescape_written_append, unescape_written]
  · intro start cs rest lexeme hnext hshape
    obtain ⟨q, units, htext⟩ := exists_written_of_next? hnext hshape
    exact ⟨q, units, htext, value_of_written hshape htext⟩

/-- A backslash that makes no escape, in front of an escaped backslash and a letter that would make one. -/
theorem unescape_units_sample :
    next? 0 ['"', '\\', 'q', '\\', '\\', 'n', '"', ';'] =
      some (⟨.text, 0, ['"', '\\', 'q', '\\', '\\', 'n', '"']⟩, [';']) ∧
    ∃ (q : Char) (units : List QuotedUnit),
      ['"', '\\', 'q', '\\', '\\', 'n', '"'] = q :: (written units ++ [q]) ∧
      ['\\', 'q', '\\', 'n'] = decoded units := by
  have hnext : next? 0 ['"', '\\', 'q', '\\', '\\', 'n', '"', ';'] =
      some (⟨.text, 0, ['"', '\\', 'q', '\\', '\\', 'n', '"']⟩, [';']) := by decide
  obtain ⟨q, units, htext, hvalue⟩ := unescape_units.2.2.2 _ _ _ _ hnext (.inl rfl)
  exact ⟨hnext, q, units, htext, String.ofList_injective hvalue⟩

end BraceLang.Lexeme
