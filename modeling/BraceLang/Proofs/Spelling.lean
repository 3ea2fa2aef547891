import BraceLang.Proofs.Ahead
import BraceLang.Proofs.Shapes

/-!
# Writing words

A text spells a word (`ReadAs`) if it is read as this word from the front of any text that goes on with white
space. Names and reserved words are spelled by their own text because white space ends a word, and so are the
marks because none of them goes on with white space; any literal is spelled between double quotes, with a
backslash before every backslash and every double quote inside, because what is written there has no quote of
its own and stands for the text again. A word is written in one of these ways (`Word.written`), and `Readable`
if it is read as itself from what is written.

`Yields` says which words a text is cut into, and its rules build texts up from the right: the spelling of a
word in front of a separated text, and white space in front of any text. So a text of readable words with
single spaces between them gives these words again (`tokenize_text`).
-/

set_option autoImplicit false

namespace BraceLang

namespace Lexeme

/-! ### Quoted literals -/

/-- The characters with a backslash before each backslash and each double quote. -/
def escape (cs : List Char) : List Char :=
  cs.flatMap fun c => if c = '\\' ∨ c = '"' then ['\\', c] else [c]

/-- There is nothing to escape in an empty text. -/
@[simp]
theorem escape_nil : escape [] = [] := rfl

/-- A backslash or a double quote gets a backslash in front of it. -/
theorem escape_cons_special {c : Char} (h : c = '\\' ∨ c = '"') (cs : List Char) :
    escape (c :: cs) = '\\' :: c :: escape cs := by
  simp [escape, h]

/-- Any other character is written as it is, a newline included. -/
theorem escape_cons {c : Char} (h : ¬ (c = '\\' ∨ c = '"')) (cs : List Char) :
    escape (c :: cs) = c :: escape cs := by
  simp [escape, h]

/-- What is written with escapes stands for what was to be written. -/
theorem unescape_escape_eq (cs : List Char) : unescape (escape cs) = cs := by
  induction cs with
  | nil => rfl
  | cons c cs ih =>
    by_cases h : c = '\\' ∨ c = '"'
    · have hescaped : escaped? c = some c := by
        rcases h with rfl | rfl <;> rfl
      rw [escape_cons_special h, unescape_escape hescaped, ih]
    · rw [escape_cons h, unescape_cons (fun hc => h (.inl hc)), ih]

/-- A quote after a text with escapes is the first to close it. -/
theorem closing?_escape (cs rest : List Char) (n : Nat) :
    closing? '"' n (escape cs ++ '"' :: rest) = some (n + (escape cs).length + 1) := by
  have hplain (c : Char) (hc : ¬ (c = '\\' ∨ c = '"')) (n : Nat) (ds : List Char) (hds : ds ≠ []) :
      closing? '"' n (c :: ds) = closing? '"' (n + 1) ds := by
    obtain ⟨hslash, hquote⟩ := not_or.1 hc
    cases ds with
    | nil => exact absurd rfl hds
    | cons d ds => simp [closing?, hslash, hquote]
  induction cs generalizing n with
  | nil => cases rest <;> simp [closing?]
  | cons c cs ih =>
    by_cases h : c = '\\' ∨ c = '"'
    · have hline : c ≠ '\n' := by rcases h with rfl | rfl <;> decide
      rw [escape_cons_special h]
      simp only [List.cons_append, List.length_cons]
      rw [closing?, if_neg (by decide), if_pos rfl, if_neg hline, ih]
      congr 1
      omega
    · rw [escape_cons h, List.cons_append, hplain c h n _ (by simp), ih, List.length_cons]
      congr 1
      omega

/-! ### The first lexeme of a text -/

/-- Whether a text is empty or goes on with white space. -/
def Separated (cs : List Char) : Prop :=
  ∀ c, cs.head? = some c → Text.isBlank c = true

/-- At the end of a text every word ends. -/
@[simp]
theorem separated_nil : Separated [] := by
  simp [Separated]

/-- A word ends in front of white space, and in front of no other character for sure. -/
@[simp]
theorem separated_cons {c : Char} {cs : List Char} :
    Separated (c :: cs) ↔ Text.isBlank c = true := by
  simp [Separated]

/-- A separated text does not go on with a character that is not white space. -/
theorem Separated.head?_ne {cs : List Char} (h : Separated cs) {c : Char}
    (hc : Text.isBlank c = false) : cs.head? ≠ some c := by
  intro hhead
  simp [h c hhead] at hc

/-- The first shape that fits decides, as long as none of the shapes before it fits. -/
theorem next?_of_first {start : Nat} {text rest : List Char} {shape : Shape} (before after : List Shape)
    (hall : Shape.all = before ++ shape :: after)
    (hbefore : ∀ other ∈ before, other.extent? (text ++ rest) = none)
    (hextent : shape.extent? (text ++ rest) = some text.length) :
    next? start (text ++ rest) = some (⟨shape, start, text⟩, rest) := by
  have hnone : before.findSome? (fun other => (other.extent? (text ++ rest)).map fun n =>
      ((⟨other, start, (text ++ rest).take n⟩ : Lexeme), (text ++ rest).drop n)) = none := by
    rw [List.findSome?_eq_none_iff]
    intro other hother
    rw [hbefore other hother]
    rfl
  rw [next?, hall, List.findSome?_append, hnone]
  simp [hextent]

/-- Where the first shape that starts with the first character fits, it decides. -/
theorem next?_of_starts {start : Nat} {c : Char} {text rest : List Char} {shape : Shape}
    (hfirst : Shape.all.find? (fun other => other.starts c) = some shape)
    (hextent : shape.extent? (c :: text ++ rest) = some (c :: text).length) :
    next? start (c :: text ++ rest) = some (⟨shape, start, c :: text⟩, rest) := by
  obtain ⟨-, before, after, hall, hbefore⟩ := List.find?_eq_some_iff_append.1 hfirst
  refine next?_of_first before after hall (fun other hother => ?_) hextent
  exact Shape.extent?_eq_none (by simpa using hbefore other hother) _

/-! ### Words -/

/-- Whether a text is a word: a letter or an underscore, then letters, digits and underscores. -/
def isWord : List Char → Bool
  | c :: cs => isWordStart c && cs.all isWordPart
  | [] => false

/-- The visible characters of ASCII are not white space, so that words start at once. -/
theorem not_blank_of_toNat {c : Char} (hlow : 33 ≤ c.toNat) (hhigh : c.toNat ≤ 126) :
    Text.isBlank c = false := by
  simp only [Text.isBlank, Text.Ranges.contains, Text.blankRanges, List.any_cons, List.any_nil,
    Bool.or_false, Bool.or_eq_false_iff, Bool.and_eq_false_iff, decide_eq_false_iff_not]
  omega

/-- The parts of a word are visible characters of ASCII. -/
theorem toNat_of_isWordPart {c : Char} (h : isWordPart c = true) : 48 ≤ c.toNat ∧ c.toNat ≤ 122 := by
  change (((decide (c.val ≥ 'A'.val ∧ c.val ≤ 'Z'.val)
    || (decide (c.val ≥ 'a'.val) && decide (c.val ≤ 'z'.val)))
    || (decide (c.val ≥ '0'.val) && decide (c.val ≤ '9'.val))) || c == '_') = true at h
  simp only [Bool.or_eq_true, Bool.and_eq_true, decide_eq_true_eq, beq_iff_eq, ge_iff_le,
    UInt32.le_iff_toNat_le] at h
  rcases h with ((⟨hlow, hhigh⟩ | ⟨hlow, hhigh⟩) | ⟨hlow, hhigh⟩) | rfl
  · exact ⟨Nat.le_trans (by decide) hlow, Nat.le_trans hhigh (by decide)⟩
  · exact ⟨Nat.le_trans (by decide) hlow, hhigh⟩
  · exact ⟨hlow, Nat.le_trans hhigh (by decide)⟩
  · decide

/-- What a word may start with, it may also go on with. -/
theorem isWordPart_of_isWordStart {c : Char} (h : isWordStart c = true) : isWordPart c = true := by
  simp only [isWordStart, Bool.or_eq_true] at h
  simp only [isWordPart, Char.isAlphanum, Bool.or_eq_true]
  exact h.imp_left .inl

/-- No part of a word is white space, so that a word ends in front of it. -/
theorem not_blank_of_isWordPart {c : Char} (h : isWordPart c = true) : Text.isBlank c = false := by
  obtain ⟨hlow, hhigh⟩ := toNat_of_isWordPart h
  exact not_blank_of_toNat (by omega) (by omega)

/-- White space is no part of a word, so a word ends before it. -/
theorem takeWhile_wordPart {cs rest : List Char} (h : cs.all isWordPart = true)
    (hrest : Separated rest) : (cs ++ rest).takeWhile isWordPart = cs := by
  rw [List.takeWhile_append_of_pos (List.all_eq_true.1 h)]
  cases rest with
  | nil => simp
  | cons c rest =>
    have hpart : ¬ isWordPart c = true := by
      intro hpart
      have hblank := not_blank_of_isWordPart hpart
      rw [separated_cons.1 hrest] at hblank
      cases hblank
    rw [List.takeWhile_cons_of_neg hpart, List.append_nil]

/-- A character that starts a word starts no shape before that of words. -/
theorem find?_starts_word {c : Char} (h : isWordStart c = true) :
    Shape.all.find? (fun shape => shape.starts c) = some .word := by
  have hpart := isWordPart_of_isWordStart h
  have hblank := not_blank_of_isWordPart hpart
  have hslash : c ≠ '/' := by
    rintro rfl
    cases hpart
  simp [Shape.all, Shape.starts, hblank, hslash, h]

/-- A word in front of something that ends it is a lexeme, and it is the whole word. -/
theorem next?_word {start : Nat} {text rest : List Char} (h : isWord text = true)
    (hrest : Separated rest) : next? start (text ++ rest) = some (⟨.word, start, text⟩, rest) := by
  cases text with
  | nil => cases h
  | cons c cs =>
    obtain ⟨hstart, hpart⟩ := Bool.and_eq_true_iff.1 h
    refine next?_of_starts (find?_starts_word hstart) ?_
    have hend := takeWhile_wordPart hpart hrest
    simp [Shape.extent?, word?, hstart, hend, Nat.add_comm]

/-! ### Literals and marks -/

/-- A text in double quotes is a lexeme whatever follows, if it has been escaped. -/
theorem next?_text {start : Nat} {cs rest : List Char} :
    next? start (('"' :: escape cs ++ ['"']) ++ rest) =
      some (⟨.text, start, '"' :: escape cs ++ ['"']⟩, rest) := by
  refine next?_of_starts (by decide) ?_
  have hclose := closing?_escape cs rest 1
  simp [Shape.extent?, text?, hclose]
  omega

/-- A comparison of two characters is one whatever follows, also another equals sign. -/
theorem comparison?_two (c : Char) (hc : c ∈ ['=', '!', '<', '>']) (rest : List Char) :
    comparison? (c :: '=' :: rest) = some 2 := by
  rw [comparison?, if_pos ⟨rfl, hc⟩]

/-- A comparison of one character must not be followed by an equals sign. -/
theorem comparison?_one {c : Char} (hc : c = '<' ∨ c = '>') {rest : List Char}
    (hrest : rest.head? ≠ some '=') : comparison? (c :: rest) = some 1 := by
  cases rest with
  | nil => rw [comparison?, if_pos hc]
  | cons d rest =>
    have hd : d ≠ '=' := by simpa using hrest
    rw [comparison?, if_neg (fun h => hd h.1), if_pos hc]

/-- A single equals sign is no comparison. -/
theorem comparison?_equals {rest : List Char} (hrest : rest.head? ≠ some '=') :
    comparison? ('=' :: rest) = none := by
  cases rest with
  | nil => rfl
  | cons d rest =>
    have hd : d ≠ '=' := by simpa using hrest
    simp [comparison?, hd]

/-- A slash without another one behind it starts no comment. -/
theorem comment?_slash {rest : List Char} (hrest : rest.head? ≠ some '/') :
    comment? ('/' :: rest) = none := by
  cases rest with
  | nil => rfl
  | cons d rest =>
    have hd : d ≠ '/' := by simpa using hrest
    simp [comment?, hd]

/-- Where two shapes start with one character, the second is left if the first does not fit. -/
theorem next?_of_second {start : Nat} {c : Char} {rest : List Char} {shape : Shape} (first : Shape)
    (before after : List Shape) (hall : Shape.all = before ++ shape :: after)
    (hbefore : ∀ other ∈ before, other = first ∨ other.starts c = false)
    (hfirst : first.extent? (c :: rest) = none) (hextent : shape.extent? (c :: rest) = some 1) :
    next? start (c :: rest) = some (⟨shape, start, [c]⟩, rest) := by
  show next? start ([c] ++ rest) = _
  refine next?_of_first before after hall (fun other hother => ?_) hextent
  obtain rfl | hother := hbefore other hother
  · exact hfirst
  · exact Shape.extent?_eq_none hother _

/-- An equals sign is an assignment unless another one follows. -/
theorem next?_assignment {start : Nat} {rest : List Char} (hrest : Separated rest) :
    next? start ('=' :: rest) = some (⟨.assignment, start, ['=']⟩, rest) :=
  next?_of_second .comparison (Shape.all.take 11) (Shape.all.drop 12) rfl (by decide)
    (comparison?_equals (hrest.head?_ne (by decide))) rfl

/-- A slash is an operator where white space or the end of the text follows. -/
theorem next?_slash {start : Nat} {rest : List Char} (hrest : Separated rest) :
    next? start ('/' :: rest) = some (⟨.arithmetic, start, ['/']⟩, rest) :=
  next?_of_second .comment (Shape.all.take 15) [] rfl (by decide)
    (comment?_slash (hrest.head?_ne (by decide))) rfl

/-- A run of white space is a lexeme of its own. -/
theorem next?_blank {start : Nat} {c : Char} (hc : Text.isBlank c = true) (cs : List Char) :
    next? start (c :: cs) =
      some (⟨.blank, start, c :: cs.takeWhile Text.isBlank⟩, cs.dropWhile Text.isBlank) := by
  have hextent : Shape.blank.extent? (c :: cs.takeWhile Text.isBlank ++ cs.dropWhile Text.isBlank) =
      some (c :: cs.takeWhile Text.isBlank).length := by
    simp [Shape.extent?, run?, hc]
  have hcs : c :: cs = c :: cs.takeWhile Text.isBlank ++ cs.dropWhile Text.isBlank := by
    rw [List.cons_append, List.takeWhile_append_dropWhile]
  rw [hcs]
  exact next?_of_first [] _ rfl (by simp) hextent

end Lexeme

open Lexeme (Separated isWord escape next? segment)

/-! ### Words that are read as they are written -/

namespace Word

/-- A text that is read as the word wherever it is written in front of white space or nothing. -/
structure ReadAs (text : List Char) (word : Word) : Prop where
  next : ∃ shape, ∀ start : Nat,
    (⟨shape, start, text⟩ : Lexeme).kind? = some word.kind ∧
    (⟨shape, start, text⟩ : Lexeme).value = word.value ∧
    ∀ rest, Separated rest → next? start (text ++ rest) = some (⟨shape, start, text⟩, rest)

/-- How a word is written: a literal in double quotes, and any other word as it is. -/
def written (word : Word) : List Char :=
  if word.kind = .literal then '"' :: escape word.value.toList ++ ['"'] else word.value.toList

/-- A word that is read as itself wherever it is written in front of white space or nothing. -/
abbrev Readable (word : Word) : Prop :=
  ReadAs word.written word

/-- A word stands for itself, with the kind of a reserved word if it is one and as a name otherwise. -/
theorem readAs_of_isWord {value : String} {kind : Kind} (h : isWord value.toList = true)
    (hkind : (Kind.ofWord? value).getD .identifier = kind) : ReadAs value.toList ⟨kind, value⟩ := by
  refine ⟨.word, fun start => ⟨?_, ?_, fun rest hrest => Lexeme.next?_word h hrest⟩⟩
  · simp [Lexeme.kind?, hkind]
  · simp [Lexeme.value]

/-- What stands between quotes, with its escapes, stands for a literal of any text. -/
theorem readAs_quoted (value : String) :
    ReadAs ('"' :: escape value.toList ++ ['"']) ⟨.literal, value⟩ := by
  refine ⟨.text, fun start => ⟨rfl, ?_, fun rest hrest => Lexeme.next?_text⟩⟩
  simp [Lexeme.value, Lexeme.unescape_escape_eq]

/-- Names and keywords are readable as the kinds of words that they are. The two reserved words that are
literals are written between quotes, like any other literal. -/
theorem readable_of_isWord {value : String} {kind : Kind} (h : isWord value.toList = true)
    (hkind : (Kind.ofWord? value).getD .identifier = kind) (hliteral : kind ≠ .literal) :
    Readable ⟨kind, value⟩ := by
  have hwritten : written ⟨kind, value⟩ = value.toList := if_neg hliteral
  rw [Readable, hwritten]
  exact readAs_of_isWord h hkind

/-- Literals are readable, whatever they stand for, since what needs an escape has one. -/
theorem readable_literal (value : String) : Readable ⟨.literal, value⟩ :=
  readAs_quoted value

/-- Whatever is no literal is spelled by its own text. -/
theorem Readable.readAs_value {word : Word} (h : Readable word) (hliteral : word.kind ≠ .literal) :
    ReadAs word.value.toList word := by
  have hwritten : word.written = word.value.toList := if_neg hliteral
  rwa [Readable, hwritten] at h

/-- A mark stands for a word if the first shape that starts with its first character fits it in front of white
space, and has the kind and the value of the word. -/
theorem readAs_mark {word : Word} (c : Char) (cs : List Char) (shape : Lexeme.Shape)
    (hlexeme : ∀ start, (⟨shape, start, c :: cs⟩ : Lexeme).kind? = some word.kind ∧
      (⟨shape, start, c :: cs⟩ : Lexeme).value = word.value)
    (hfirst : Lexeme.Shape.all.find? (fun other => other.starts c) = some shape)
    (hextent : ∀ rest, Separated rest →
      shape.extent? (c :: cs ++ rest) = some (c :: cs).length) : ReadAs (c :: cs) word :=
  ⟨shape, fun start => ⟨(hlexeme start).1, (hlexeme start).2,
    fun rest hrest => Lexeme.next?_of_starts hfirst (hextent rest hrest)⟩⟩

/-- Every comparison is readable, also one without a meaning. -/
theorem readable_comparison {value : String} (h : value ∈ ["==", "!=", "<=", ">=", "<", ">"]) :
    Readable ⟨.compareOp, value⟩ := by
  have hone (rest : List Char) (hrest : Separated rest) : rest.head? ≠ some '=' :=
    hrest.head?_ne (by decide)
  simp only [List.mem_cons, List.not_mem_nil, or_false] at h
  rcases h with rfl | rfl | rfl | rfl | rfl | rfl
  · exact readAs_mark '=' ['='] .comparison (fun _ => ⟨rfl, rfl⟩) (by decide)
      fun rest _ => Lexeme.comparison?_two '=' (by decide) rest
  · exact readAs_mark '!' ['='] .comparison (fun _ => ⟨rfl, rfl⟩) (by decide)
      fun rest _ => Lexeme.comparison?_two '!' (by decide) rest
  · exact readAs_mark '<' ['='] .comparison (fun _ => ⟨rfl, rfl⟩) (by decide)
      fun rest _ => Lexeme.comparison?_two '<' (by decide) rest
  · exact readAs_mark '>' ['='] .comparison (fun _ => ⟨rfl, rfl⟩) (by decide)
      fun rest _ => Lexeme.comparison?_two '>' (by decide) rest
  · exact readAs_mark '<' [] .comparison (fun _ => ⟨rfl, rfl⟩) (by decide)
      fun rest hrest => Lexeme.comparison?_one (.inl rfl) (hone rest hrest)
  · exact readAs_mark '>' [] .comparison (fun _ => ⟨rfl, rfl⟩) (by decide)
      fun rest hrest => Lexeme.comparison?_one (.inr rfl) (hone rest hrest)

/-- Every arithmetic operator is readable, also the one without a meaning. -/
theorem readable_arithmetic {value : String} (h : value ∈ ["+", "-", "*", "/", "%"]) :
    Readable ⟨.mathOp, value⟩ := by
  simp only [List.mem_cons, List.not_mem_nil, or_false] at h
  rcases h with rfl | rfl | rfl | rfl | rfl
  · exact readAs_mark '+' [] .arithmetic (fun _ => ⟨rfl, rfl⟩) (by decide) fun _ _ => rfl
  · exact readAs_mark '-' [] .arithmetic (fun _ => ⟨rfl, rfl⟩) (by decide) fun _ _ => rfl
  · exact readAs_mark '*' [] .arithmetic (fun _ => ⟨rfl, rfl⟩) (by decide) fun _ _ => rfl
  · exact ⟨.arithmetic, fun start => ⟨rfl, rfl, fun _ => Lexeme.next?_slash⟩⟩
  · exact readAs_mark '%' [] .arithmetic (fun _ => ⟨rfl, rfl⟩) (by decide) fun _ _ => rfl

end Word

/-- The text of the words of a kind that all are the same. -/
def Kind.spelling : Kind → String
  | confirm => ":"
  | assignment => "="
  | openParen => "("
  | closeParen => ")"
  | openCurly => "\x7b"
  | closeCurly => "\x7d"
  | comma => ","
  | semicolon => ";"
  | ifWord => "if"
  | elseWord => "else"
  | whileWord => "while"
  | forWord => "for"
  | returnWord => "return"
  | importWord => "import"
  | entryWord => "entry"
  | endOfInput | identifier | literal | typeKeyword | mathOp | compareOp => ""

namespace Word

/-- The word of a kind that has one word only. -/
def fixed (kind : Kind) : Word :=
  ⟨kind, kind.spelling⟩

/-- A word whose text follows from its kind is readable: a reserved word, a bracket or another sign. -/
@[simp]
theorem readable_fixed {kind : Kind} (hvalue : kind.hasValue = false) (hend : kind ≠ .endOfInput) :
    Readable (fixed kind) := by
  cases kind with
  | endOfInput => exact absurd rfl hend
  | identifier | literal | typeKeyword | mathOp | compareOp => cases hvalue
  | ifWord | elseWord | whileWord | forWord | returnWord | importWord | entryWord =>
    exact readable_of_isWord (by decide) (by decide) (by decide)
  | assignment => exact ⟨.assignment, fun start => ⟨rfl, rfl, fun _ => Lexeme.next?_assignment⟩⟩
  | confirm =>
    exact readAs_mark ':' [] .colon (fun _ => ⟨rfl, rfl⟩) (by decide) fun _ _ => rfl
  | openParen =>
    exact readAs_mark '(' [] .openParen (fun _ => ⟨rfl, rfl⟩) (by decide) fun _ _ => rfl
  | closeParen =>
    exact readAs_mark ')' [] .closeParen (fun _ => ⟨rfl, rfl⟩) (by decide) fun _ _ => rfl
  | openCurly =>
    exact readAs_mark '{' [] .openCurly (fun _ => ⟨rfl, rfl⟩) (by decide) fun _ _ => rfl
  | closeCurly =>
    exact readAs_mark '}' [] .closeCurly (fun _ => ⟨rfl, rfl⟩) (by decide) fun _ _ => rfl
  | comma =>
    exact readAs_mark ',' [] .comma (fun _ => ⟨rfl, rfl⟩) (by decide) fun _ _ => rfl
  | semicolon =>
    exact readAs_mark ';' [] .semicolon (fun _ => ⟨rfl, rfl⟩) (by decide) fun _ _ => rfl

/-! ### Texts and their words -/

/-- Cut into lexemes, the text gives the words, with nothing left. -/
def Yields (cs : List Char) (words : List Word) : Prop :=
  ∀ (file : String) (start : Nat),
    ((segment start cs).lexemes.filterMap (Lexeme.token? file)).map Token.word = words ∧
      (segment start cs).rest = []

variable {cs : List Char} {word : Word} {words : List Word}

/-- An empty text gives no words. -/
theorem yields_nil : Yields [] [] := by
  intro file start
  simp [Lexeme.segment_of_next?_eq_none (show next? start [] = none from rfl)]

/-- The spelling of a word in front of a separated text adds the word. -/
theorem Yields.cons {text : List Char} (hword : ReadAs text word) (hcs : Separated cs) (h : Yields cs words) :
    Yields (text ++ cs) (word :: words) := by
  intro file start
  obtain ⟨shape, hshape⟩ := hword.next
  obtain ⟨hkind, hvalue, hnext⟩ := hshape start
  obtain ⟨hwords, hrest⟩ := h file (Lexeme.stop ⟨shape, start, text⟩)
  have htoken : (Lexeme.token? file ⟨shape, start, text⟩).map Token.word = some word := by
    simp [Lexeme.token?, hkind, hvalue, Token.word]
  obtain ⟨token, htoken, htword⟩ := Option.map_eq_some_iff.1 htoken
  rw [Lexeme.segment_of_next?_eq_some (hnext cs hcs)]
  refine ⟨?_, hrest⟩
  rw [List.filterMap_cons_some htoken, List.map_cons, htword, hwords]

/-- White space adds no word, also where it makes a run of white space longer. -/
theorem Yields.blank {c : Char} (hc : Text.isBlank c = true) (h : Yields cs words) :
    Yields (c :: cs) words := by
  intro file start
  rw [Lexeme.segment_of_next?_eq_some (Lexeme.next?_blank hc cs), List.filterMap_cons_none rfl]
  cases cs with
  | nil => exact h file _
  | cons d cs =>
    by_cases hd : Text.isBlank d = true
    -- the run of white space at the front of the text ends where the longer one does
    · obtain ⟨hwords, hrest⟩ := h file (start + c.utf8Size)
      rw [Lexeme.segment_of_next?_eq_some (Lexeme.next?_blank hd cs)] at hwords hrest
      rw [List.filterMap_cons_none rfl] at hwords
      simp only [List.takeWhile_cons_of_pos hd, List.dropWhile_cons_of_pos hd]
      simp only [Lexeme.stop, Text.byteLength_cons, Nat.add_assoc] at hwords hrest ⊢
      exact ⟨hwords, hrest⟩
    · simp only [List.takeWhile_cons_of_neg hd, List.dropWhile_cons_of_neg hd]
      exact h file _

/-- The text of words, with single spaces between them and nothing around them. -/
def text (words : List Word) : List Char :=
  [' '].intercalate (words.map written)

/-- The text of several words is the first one as it is written, a space, and the text of the others. -/
theorem text_cons_cons (word next : Word) (words : List Word) :
    text (word :: next :: words) = word.written ++ ' ' :: text (next :: words) := by
  simp [text, List.intercalate_cons_cons]

/-- A text of readable words gives these words, because the spaces end every one of them. -/
theorem yields_text {words : List Word} (hread : ∀ word ∈ words, Readable word) :
    Yields (text words) words := by
  induction words with
  | nil => exact yields_nil
  | cons word words ih =>
    obtain ⟨hword, hwords⟩ := List.forall_mem_cons.1 hread
    cases words with
    | nil =>
      have hone := yields_nil.cons hword Lexeme.separated_nil
      simpa [text] using hone
    | cons next words =>
      rw [text_cons_cons]
      have hspace : Text.isBlank ' ' = true := by decide
      exact ((ih hwords).blank hspace).cons hword (Lexeme.separated_cons.2 hspace)

/-- The tokens of a text are its words and an end token. -/
theorem Yields.tokenize (h : Yields cs words) (file : String) :
    ∃ tokens, BraceLang.tokenize (String.ofList cs) file = .ok tokens ∧
      tokens.map Token.word = words ++ [⟨.endOfInput, "EOF"⟩] := by
  obtain ⟨hwords, hrest⟩ := h file 0
  have hok : BraceLang.tokenize (String.ofList cs) file =
      .ok ((segment 0 cs).lexemes.filterMap (Lexeme.token? file)
        ++ [Token.ending (.covering file (segment 0 cs).stop 0)]) := by
    rw [BraceLang.tokenize, String.toList_ofList, Token.ofSegmentation, hrest]
  refine ⟨_, hok, ?_⟩
  rw [List.map_append, hwords]
  rfl

/-- The words of a written text are those it was written from. -/
theorem tokenize_text {words : List Word} (hread : ∀ word ∈ words, Readable word) (file : String) :
    ∃ tokens, tokenize (String.ofList (text words)) file = .ok tokens ∧
      tokens.map Token.word = words ++ [⟨.endOfInput, "EOF"⟩] :=
  (yields_text hread).tokenize file

end Word

end BraceLang
