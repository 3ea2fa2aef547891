import BraceLang.Proofs.Longest
import BraceLang.Proofs.Scanning

/-!
# Where a source cannot be cut into tokens

A source is cut from left to right, each time at the end of the longest lexeme, until nothing is left or a character
is reached that starts no lexeme. Which characters these are depends on what follows them (`StartsNone`): most start
a lexeme whatever follows, an exclamation mark needs an equals sign behind it, a quote needs the rest of its literal,
and all other characters never start one.

So a source has no tokens exactly where such a character is reached, and it is what the complaint is about
(`tokenize_error_exact`). What stands before it has tokens on its own: lexemes that were the longest in front of
some text stay so when the text is cut behind them (`Longest.cut`).
-/

set_option autoImplicit false

open scoped Computability

namespace BraceLang

open Text (byteLength isBoundary)

namespace Lexeme

variable {start : Nat} {c : Char} {cs front back rest : List Char}

/-! ### Characters that start no lexeme -/

/-- A character in front of `cs` that starts no lexeme, stated without the shapes that are tried. -/
inductive StartsNone : Char → List Char → Prop
  /-- No white space, no letter, digit or underscore, and none of the signs. -/
  | foreign {c : Char} {cs : List Char} (hblank : Text.isBlank c = false) (hpart : isWordPart c = false)
      (hsign : c ∉ Shape.signs) : StartsNone c cs
  | exclamation {cs : List Char} (h : cs.head? ≠ some '=') : StartsNone '!' cs
  /-- A double quote that no units and a second one follow. -/
  | text {cs : List Char} (h : ∀ units ∈ (Pattern.unit '"').language∗, ¬ units ++ ['"'] <+: cs) : StartsNone '"' cs
  /-- A single quote that no unit and a second one follow. -/
  | character {cs : List Char} (h : ∀ unit ∈ (Pattern.unit '\'').language, ¬ unit ++ ['\''] <+: cs) :
      StartsNone '\'' cs

/-- No lexeme starts at a place exactly if none of the shapes has an extent there. -/
theorem next?_eq_none_iff_extent? : next? start cs = none ↔ ∀ shape : Shape, shape.extent? cs = none := by
  rw [next?, List.findSome?_eq_none_iff]
  exact ⟨fun h shape => by simpa using h shape shape.mem_all, fun h shape _ => by simp [h shape]⟩

/-- Whatever follows a lexeme of one character, it starts a lexeme. -/
theorem next?_ne_none_of_single {shape : Shape} (h : shape.extent? [c] = some 1) (cs : List Char) :
    next? start (c :: cs) ≠ none := by
  intro hnone
  obtain ⟨n, hextent, -⟩ := Shape.exists_extent?_of_mem (Shape.take_mem_language h) cs
  have hshape := next?_eq_none_iff_extent?.1 hnone shape
  rw [List.take_succ_cons, List.take_zero, List.singleton_append, hshape] at hextent
  cases hextent

/-- Only a shape that starts with the first character of a text can fit it. -/
theorem next?_eq_none_of_starts (h : ∀ shape : Shape, shape.starts c = true → shape.extent? (c :: cs) = none) :
    next? start (c :: cs) = none := by
  refine next?_eq_none_iff_extent?.2 fun shape => ?_
  by_cases hc : shape.starts c = true
  · exact h shape hc
  · exact Shape.extent?_eq_none (Bool.eq_false_iff.2 hc) cs

/-- The characters that do not make a lexeme alone, with the only shape that starts with each. -/
def Shape.incomplete : List (Char × Shape) :=
  [('!', comparison), ('"', text), ('\'', character)]

/-- A text with such a character in front starts with a lexeme only if the shape fits. -/
theorem next?_eq_none_iff_of_incomplete {shape : Shape} (h : (c, shape) ∈ Shape.incomplete) :
    next? start (c :: cs) = none ↔ shape.extent? (c :: cs) = none := by
  constructor
  · exact fun hnone => next?_eq_none_iff_extent?.1 hnone shape
  · refine fun hnone => next?_eq_none_of_starts fun other hother => ?_
    have hall : ∀ pair ∈ Shape.incomplete, ∀ other ∈ Shape.all, other.starts pair.1 = true → other = pair.2 := by
      decide +kernel
    rw [hall _ h other other.mem_all hother, hnone]

/-- An exclamation mark starts a comparison only with an equals sign behind it. -/
theorem extent?_comparison_eq_none_iff :
    Shape.comparison.extent? ('!' :: cs) = none ↔ cs.head? ≠ some '=' := by
  cases cs with
  | nil => simp [Shape.extent?, comparison?]
  | cons d cs => by_cases hd : d = '=' <;> simp [Shape.extent?, comparison?, hd]

/-- No front of a text that starts with a quote fits a quoted pattern exactly where the inside and a second quote do
not follow. -/
theorem Pattern.forall_quoted_iff {q : Char} {body : Pattern} :
    (∀ front ∈ (seq (mark [q]) (seq body (mark [q]))).language, ¬ front <+: q :: cs) ↔
      ∀ inside ∈ body.language, ¬ inside ++ [q] <+: cs := by
  have hmark {front : List Char} : front ∈ (mark [q]).language ↔ front = [q] := by
    simp [mem_language_mark]
  constructor
  · intro h inside hinside hbegins
    have hclosed := mem_language_seq.2 ⟨inside, hinside, [q], hmark.2 rfl, rfl⟩
    refine h _ (mem_language_seq.2 ⟨[q], hmark.2 rfl, _, hclosed, rfl⟩) ?_
    exact List.cons_prefix_cons.2 ⟨rfl, hbegins⟩
  · rintro h front hfront hbegins
    obtain ⟨opening, hopening, more, hmore, rfl⟩ := mem_language_seq.1 hfront
    obtain ⟨inside, hinside, closing, hclosing, rfl⟩ := mem_language_seq.1 hmore
    obtain rfl := hmark.1 hopening
    obtain rfl := hmark.1 hclosing
    exact h inside hinside (List.cons_prefix_cons.1 hbegins).2

/-- A double quote starts no literal exactly if no row of units behind it is closed by another one. -/
theorem extent?_text_eq_none_iff :
    Shape.text.extent? ('"' :: cs) = none ↔ ∀ units ∈ (Pattern.unit '"').language∗, ¬ units ++ ['"'] <+: cs :=
  Shape.extent?_eq_none_iff.trans Pattern.forall_quoted_iff

/-- A single quote starts no literal exactly if no unit behind it is closed by another one. -/
theorem extent?_character_eq_none_iff :
    Shape.character.extent? ('\'' :: cs) = none ↔
      ∀ unit ∈ (Pattern.unit '\'').language, ¬ unit ++ ['\''] <+: cs :=
  Shape.extent?_eq_none_iff.trans Pattern.forall_quoted_iff

/-- Word characters and white space start a lexeme, and so does every sign but three. -/
theorem exists_single (hc : ¬ (Text.isBlank c = false ∧ isWordPart c = false ∧ c ∉ Shape.signs)) :
    c ∈ ['!', '"', '\''] ∨ ∃ shape : Shape, shape.extent? [c] = some 1 := by
  by_cases hsign : c ∈ Shape.signs
  -- the shapes before these are white space, comments, words and the literals
  · have hall : (Shape.signs.all fun c =>
        c ∈ ['!', '"', '\''] ∨ ∃ shape ∈ Shape.all.drop 6, shape.extent? [c] = some 1) = true := by
      decide
    have hsingle := of_decide_eq_true (List.all_eq_true.1 hall c hsign)
    exact hsingle.imp_right fun ⟨shape, _, hshape⟩ => ⟨shape, hshape⟩
  · right
    by_cases hblank : Text.isBlank c = true
    · exact ⟨.blank, by simp [Shape.extent?, run?, hblank]⟩
    · have hpart : isWordPart c = true := by
        by_contra hpart
        exact hc ⟨Bool.eq_false_iff.2 hblank, Bool.eq_false_iff.2 hpart, hsign⟩
      by_cases hdigit : c.isDigit = true
      · exact ⟨.number, by simp [Shape.extent?, run?, hdigit]⟩
      · have hstart : isWordStart c = true := by
          simpa [isWordPart, isWordStart, Char.isAlphanum, hdigit] using hpart
        exact ⟨.word, by simp [Shape.extent?, word?, hstart]⟩

/-- A text that is not empty starts with no lexeme exactly if its first character starts none. -/
theorem next?_eq_none_iff : next? start (c :: cs) = none ↔ StartsNone c cs := by
  constructor
  · intro h
    have hextent := next?_eq_none_iff_extent?.1 h
    by_cases hforeign : Text.isBlank c = false ∧ isWordPart c = false ∧ c ∉ Shape.signs
    · exact .foreign hforeign.1 hforeign.2.1 hforeign.2.2
    · -- one of three characters whose lexemes may not be complete, or one that always starts a lexeme
      obtain hc | ⟨shape, hshape⟩ := exists_single hforeign
      · simp only [List.mem_cons, List.not_mem_nil, or_false] at hc
        rcases hc with rfl | rfl | rfl
        · exact .exclamation (extent?_comparison_eq_none_iff.1 (hextent .comparison))
        · exact .text (extent?_text_eq_none_iff.1 (hextent .text))
        · exact .character (extent?_character_eq_none_iff.1 (hextent .character))
      · exact absurd h (next?_ne_none_of_single hshape cs)
  · intro h
    cases h with
    | foreign hblank hpart hsign =>
      refine next?_eq_none_of_starts fun shape hshape => ?_
      have hmem := Shape.mem_of_not_mem_signs hsign hshape
      simp only [List.mem_cons, List.not_mem_nil, or_false] at hmem
      rcases hmem with rfl | rfl | rfl
      · exact absurd hshape (by simp [Shape.starts, hblank])
      · rw [isWordPart_of_isWordStart hshape] at hpart
        cases hpart
      · have hdigit : c.isDigit = true := hshape
        simp [isWordPart, Char.isAlphanum, hdigit] at hpart
    | exclamation h =>
      exact (next?_eq_none_iff_of_incomplete (by decide)).2 (extent?_comparison_eq_none_iff.2 h)
    | text h => exact (next?_eq_none_iff_of_incomplete (by decide)).2 (extent?_text_eq_none_iff.2 h)
    | character h => exact (next?_eq_none_iff_of_incomplete (by decide)).2 (extent?_character_eq_none_iff.2 h)

/-! ### Rows of longest lexemes -/

/-- A lexeme that is the longest in front of a text stays so when the text is cut behind it. -/
theorem Longest.cut (h : Longest front (front ++ cs)) (hback : back <+: cs) : Longest front (front ++ back) where
  isPrefix := List.prefix_append _ _
  fits := h.fits
  length_le := fun shape other hother hbegins =>
    h.length_le shape other hother (hbegins.trans ((List.prefix_append_right_inj front).2 hback))

/-- The longest front of a text that fits is the lexeme that is cut off. -/
theorem Longest.exists_next? (h : Longest front (front ++ rest)) (start : Nat) :
    ∃ lexeme : Lexeme, lexeme.text = front ∧ lexeme.start = start ∧
      next? start (front ++ rest) = some (lexeme, rest) := by
  obtain ⟨shape, hshape⟩ := h.fits
  have hexists : ∃ cut, next? start (front ++ rest) = some cut :=
    exists_next?_iff.2 ⟨shape, front, hshape, h.isPrefix⟩
  obtain ⟨⟨lexeme, rest'⟩, hnext⟩ := hexists
  have hlongest := longest_of_next? hnext
  obtain ⟨shape', hshape'⟩ := hlongest.fits
  have hlength : lexeme.text.length = front.length :=
    Nat.le_antisymm (h.length_le shape' _ hshape' hlongest.isPrefix)
      (hlongest.length_le shape _ hshape h.isPrefix)
  obtain ⟨htext, rfl⟩ := List.append_inj (next?_append hnext) hlength
  obtain ⟨-, -, hstart, -, -⟩ := next?_eq_some hnext
  exact ⟨lexeme, htext, hstart, hnext⟩

/-- A row of lexemes in front of `rest`, each of them the longest in front of what follows. -/
inductive Scanned (rest : List Char) : List Char → Prop
  | nil : Scanned rest []
  | cons {front more : List Char} (h : Longest front (front ++ (more ++ rest))) (hmore : Scanned rest more) :
      Scanned rest (front ++ more)

/-- The row stays one when the text is cut behind it. -/
theorem Scanned.cut (h : Scanned rest front) : Scanned [] front := by
  induction h with
  | nil => exact .nil
  | cons h _ ih =>
    refine .cons (h.cut ?_) ih
    rw [List.append_nil]
    exact List.prefix_append _ _

/-- Every text is a row of lexemes and a rest that no lexeme starts. -/
theorem exists_scanned (start : Nat) (cs : List Char) :
    ∃ front rest, cs = front ++ rest ∧ Scanned rest front ∧ next? start rest = none := by
  induction hn : cs.length using Nat.strongRecOn generalizing cs with
  | ind n ih =>
    cases h : next? start cs with
    | none => exact ⟨[], cs, rfl, .nil, h⟩
    | some cut =>
      obtain ⟨lexeme, more⟩ := cut
      obtain ⟨front, rest, rfl, hscanned, hnone⟩ := ih more.length (hn ▸ next?_length h) more rfl
      have happend := next?_append h
      have hlongest := longest_of_next? h
      rw [← happend] at hlongest
      exact ⟨lexeme.text ++ front, rest, by rw [← happend, List.append_assoc], .cons hlongest hscanned, hnone⟩

end Lexeme

open Lexeme

/-! ### Sources without tokens -/

/-- The tokens of a row of lexemes come in front of those of what follows it. -/
theorem Lexeme.Scanned.exists_tokensAt {front rest : List Char} (h : Scanned rest front) (file : String) (start : Nat) :
    ∃ tokens, tokensAt file start (front ++ rest) =
      (tokensAt file (start + byteLength front) rest).map (tokens ++ ·) := by
  induction h generalizing start with
  | nil => exact ⟨[], (map_nil_append _).symm⟩
  | @cons front more h hmore ih =>
    obtain ⟨lexeme, rfl, rfl, hnext⟩ := h.exists_next? start
    obtain ⟨tokens, htokens⟩ := ih lexeme.stop
    refine ⟨(lexeme.token? file).toList ++ tokens, ?_⟩
    rw [List.append_assoc, tokensAt_of_next?_eq_some hnext, htokens, map_append_map_append, stop,
      Text.byteLength_append, Nat.add_assoc]

/-- A row of lexemes has been cut off the front of a source, and the next character starts no lexeme. -/
structure Blocked (source front : List Char) (c : Char) (rest : List Char) : Prop where
  split : source = front ++ c :: rest
  scanned : Scanned (c :: rest) front
  startsNone : StartsNone c rest

/-- Where a source is blocked by a character, it is what the complaint is about. -/
theorem Blocked.tokenize_eq_error {source file : String} {front rest : List Char} {c : Char}
    (h : Blocked source.toList front c rest) :
    tokenize source file =
      .error ⟨.unrecognised (String.singleton c), .ofBytes file (byteLength front)⟩ := by
  obtain ⟨tokens, htokens⟩ := h.scanned.exists_tokensAt file 0
  rw [← h.split, tokensAt_of_next?_eq_none (next?_eq_none_iff.2 h.startsNone), Nat.zero_add] at htokens
  exact htokens

/-- What stands before the character has tokens, so that the first fault of a source is the one that is
reported. -/
theorem Blocked.tokenize_front {source front rest : List Char} {c : Char} (h : Blocked source front c rest)
    (file : String) : ∃ tokens, tokenize (String.ofList front) file = .ok tokens := by
  obtain ⟨tokens, htokens⟩ := h.scanned.cut.exists_tokensAt file 0
  rw [List.append_nil, tokensAt_nil] at htokens
  exact ⟨_, by rw [tokenize, String.toList_ofList]; exact htokens⟩

/-- A source without tokens is blocked by a character, since the lexemes before it end somewhere. -/
theorem exists_blocked {source file : String} {diagnostic : Diagnostic}
    (h : tokenize source file = .error diagnostic) : ∃ front c rest, Blocked source.toList front c rest := by
  obtain ⟨front, rest, hsplit, hscanned, hnone⟩ := exists_scanned 0 source.toList
  cases rest with
  | nil =>
    obtain ⟨tokens, htokens⟩ := hscanned.exists_tokensAt file 0
    rw [← hsplit, tokensAt_nil] at htokens
    cases h.symm.trans htokens
  | cons c rest => exact ⟨front, c, rest, hsplit, hscanned, next?_eq_none_iff.1 hnone⟩

/-- A source whose offsets fit into a word cannot be cut into tokens exactly where, after lexemes that are each the
longest there, a character is reached that starts no lexeme. The complaint is then about this one character and stands
where it does, which is between characters and before the end of the source. What stands before it has tokens. -/
theorem tokenize_error_exact {source : String} (file? : Option String)
    (hsize : source.utf8ByteSize < UInt32.size) :
    ((∃ diagnostic, tokenize source (file?.getD defaultFile) = .error diagnostic) ↔
      ∃ front c rest, Blocked source.toList front c rest) ∧
    ∀ front c rest, Blocked source.toList front c rest →
      (∃ position, tokenize source (file?.getD defaultFile) =
          .error ⟨.unrecognised (String.singleton c), position⟩ ∧
        position.file = file?.getD defaultFile ∧ position.offset.toNat = byteLength front) ∧
      isBoundary source.toList (byteLength front) = true ∧ byteLength front < source.utf8ByteSize ∧
      ∃ tokens, tokenize (String.ofList front) (file?.getD defaultFile) = .ok tokens := by
  refine ⟨⟨fun ⟨diagnostic, h⟩ => exists_blocked h, fun ⟨front, c, rest, h⟩ => ⟨_, h.tokenize_eq_error⟩⟩, ?_⟩
  intro front c rest h
  have hbefore : byteLength front < source.utf8ByteSize := by
    have hpos := c.utf8Size_pos
    rw [← Text.byteLength_toList, h.split, Text.byteLength_append, Text.byteLength_cons]
    omega
  have hoffset := Position.toNat_offset_ofBytes (file?.getD defaultFile) (Nat.lt_trans hbefore hsize)
  refine ⟨⟨_, h.tokenize_eq_error, rfl, hoffset⟩, ?_, hbefore, h.tokenize_front _⟩
  rw [h.split]
  exact Text.isBoundary_append front _

/-- Two characters between single quotes are one too many, which shows behind a literal that takes more bytes than it
has characters. -/
theorem tokenize_error_exact_sample :
    let source := "\"é\" 'ab'"
    source.utf8ByteSize < UInt32.size ∧ Blocked source.toList ['"', 'é', '"', ' '] '\'' ['a', 'b', '\''] ∧
      ∃ position, tokenize source ((none : Option String).getD defaultFile) = .error ⟨.unrecognised "'", position⟩ ∧
        position.file = "shell" ∧ position.offset.toNat = 5 := by
  intro source
  have hsize : source.utf8ByteSize < UInt32.size := by decide
  have htext : Longest ['"', 'é', '"'] ['"', 'é', '"', ' ', '\'', 'a', 'b', '\''] :=
    longest_of_next? (show next? 0 _ = some (⟨.text, 0, ['"', 'é', '"']⟩, [' ', '\'', 'a', 'b', '\'']) by decide)
  have hblank : Longest [' '] [' ', '\'', 'a', 'b', '\''] :=
    longest_of_next? (show next? 0 _ = some (⟨.blank, 0, [' ']⟩, ['\'', 'a', 'b', '\'']) by decide)
  have hblocked : Blocked source.toList ['"', 'é', '"', ' '] '\'' ['a', 'b', '\''] := by
    refine ⟨by decide, .cons htext (.cons hblank .nil), ?_⟩
    exact next?_eq_none_iff.1 (show next? 0 _ = none by decide)
  exact ⟨hsize, hblocked, ((tokenize_error_exact none hsize).2 _ _ _ hblocked).1⟩

end BraceLang
