import BraceLang.Proofs.Spelling

/-!
# Layout does not matter

Words may be written with any white space and any comments between them. A `Parting` is what separates two
words: it starts with white space and goes on with white space and comments, each of which ends with its
line. `Word.laid` writes words with partings of their own, and reading such a text gives the words again
(`tokenize_laid`), for every word that the language has and every way to spell it: names, reserved words,
operators and punctuation marks as they are, and a literal of any text between quotes. The reserved words
`true` and `false` are literals too, and so are read alike with and without quotes. These are all the words
that sources hold (`lexical_of_tokenize`), and their short texts tell them apart
(`Token.brief_eq_iff_of_tokenize`).

That a parting starts with white space matters: a comment right behind the operator `/` would be a comment
one character earlier.
-/

set_option autoImplicit false

namespace BraceLang

open Lexeme (Separated escape isWord next?)

/-! ### Partings -/

/-- White space and comments, each of which ends with its line. -/
inductive Layout : List Char → Prop
  | nil : Layout []
  | blank {c : Char} {cs : List Char} (hc : Text.isBlank c = true) (more : Layout cs) : Layout (c :: cs)
  | comment {body cs : List Char} (hbody : '\n' ∉ body) (more : Layout cs) :
      Layout ('/' :: '/' :: body ++ '\n' :: cs)

/-- Layout that starts with white space, which ends whatever word stands before it. -/
def Parting (cs : List Char) : Prop :=
  Layout cs ∧ ∃ c ds, cs = c :: ds ∧ Text.isBlank c = true

/-- A parting ends the word before it, whatever follows the parting. -/
theorem Parting.separated {cs : List Char} (h : Parting cs) (rest : List Char) :
    Separated (cs ++ rest) := by
  obtain ⟨-, c, ds, rfl, hc⟩ := h
  exact Lexeme.separated_cons.2 hc

/-- A comment is read up to the newline that ends it. -/
theorem Lexeme.next?_comment {start : Nat} {body : List Char} (hbody : '\n' ∉ body) (cs : List Char) :
    next? start ('/' :: '/' :: body ++ '\n' :: cs) =
      some (⟨.comment, start, '/' :: '/' :: body⟩, '\n' :: cs) := by
  have hline : (body ++ '\n' :: cs).takeWhile (· ≠ '\n') = body := by
    have hpos : ∀ c ∈ body, decide (c ≠ '\n') = true := by
      intro c hc
      exact decide_eq_true fun h => hbody (h ▸ hc)
    rw [List.takeWhile_append_of_pos hpos]
    simp
  refine next?_of_starts (by decide) ?_
  simp only [Shape.extent?, List.cons_append, comment?, and_self, if_true, hline, List.length_cons]
  congr 1
  omega

namespace Word

variable {cs : List Char} {words : List Word}

/-- A lexeme that is no token adds no word to what the text behind it yields. -/
theorem Yields.skip {text : List Char} {lexeme : Nat → Lexeme}
    (hnext : ∀ start, next? start text = some (lexeme start, cs))
    (hkind : ∀ start, (lexeme start).kind? = none) (h : Yields cs words) : Yields text words := by
  intro file start
  obtain ⟨hwords, hrest⟩ := h file (lexeme start).stop
  rw [Lexeme.segment_of_next?_eq_some (hnext start)]
  refine ⟨?_, hrest⟩
  rw [List.filterMap_cons_none (by simp [Lexeme.token?, hkind]), hwords]

/-- A comment and the newline that ends it add no word. -/
theorem Yields.comment {body : List Char} (hbody : '\n' ∉ body) (h : Yields cs words) :
    Yields ('/' :: '/' :: body ++ '\n' :: cs) words := by
  have hline : Yields ('\n' :: cs) words := h.blank (by decide)
  exact hline.skip (fun _ => Lexeme.next?_comment hbody cs) fun _ => rfl

/-- Layout adds no word, however much of it there is. The induction is on the pieces of the layout. -/
theorem Yields.layout {gap : List Char} (hgap : Layout gap) (h : Yields cs words) :
    Yields (gap ++ cs) words := by
  induction hgap with
  | nil => exact h
  | blank hc more ih => exact ih.blank hc
  | comment hbody more ih =>
    rw [List.append_assoc]
    exact ih.comment hbody

/-! ### Words with layout between them -/

/-- The words of the language and their spellings: names, reserved words, operators and punctuation marks are
spelled by their own text, and a literal of any text between quotes. -/
inductive Lexical : List Char → Word → Prop
  | name {value : String} (h : isWord value.toList = true) (hfree : Kind.ofWord? value = none) :
      Lexical value.toList ⟨.identifier, value⟩
  | reserved {value : String} {kind : Kind} (h : (value, kind) ∈ Kind.reserved) :
      Lexical value.toList ⟨kind, value⟩
  | literal (value : String) : Lexical ('"' :: escape value.toList ++ ['"']) ⟨.literal, value⟩
  | comparison {value : String} (h : value ∈ ["==", "!=", "<=", ">=", "<", ">"]) :
      Lexical value.toList ⟨.compareOp, value⟩
  | arithmetic {value : String} (h : value ∈ ["+", "-", "*", "/", "%"]) :
      Lexical value.toList ⟨.mathOp, value⟩
  | punctuation {kind : Kind} (h : kind ∈ [.assignment, .confirm, .semicolon, .comma, .openCurly,
      .closeCurly, .openParen, .closeParen]) : Lexical kind.spelling.toList (fixed kind)

/-- A reserved word is a word, and it is found by its text. -/
theorem isWord_of_reserved {value : String} {kind : Kind} (h : (value, kind) ∈ Kind.reserved) :
    isWord value.toList = true ∧ Kind.ofWord? value = some kind := by
  have hall : ∀ entry ∈ Kind.reserved,
      isWord entry.1.toList = true ∧ Kind.ofWord? entry.1 = some entry.2 := by decide
  exact hall (value, kind) h

/-- Every spelling of a word of the language is read as this word. -/
theorem Lexical.readAs {text : List Char} {word : Word} (h : Lexical text word) : ReadAs text word := by
  cases h with
  | name h hfree => exact readAs_of_isWord h (by simp [hfree])
  | reserved h =>
    obtain ⟨hword, hkind⟩ := isWord_of_reserved h
    exact readAs_of_isWord hword (by simp [hkind])
  | literal value => exact readAs_quoted value
  | comparison h => exact (readable_comparison h).readAs_value nofun
  | arithmetic h => exact (readable_arithmetic h).readAs_value nofun
  | @punctuation kind h =>
    have hfixed : ∀ kind ∈ [Kind.assignment, .confirm, .semicolon, .comma, .openCurly, .closeCurly,
        .openParen, .closeParen], kind.hasValue = false ∧ kind ≠ .endOfInput ∧ kind ≠ .literal := by decide
    obtain ⟨hvalue, hend, hliteral⟩ := hfixed kind h
    exact (readable_fixed hvalue hend).readAs_value hliteral

/-- A word in a text: what stands in front of it, and how it is spelled. -/
structure Piece where
  gap : List Char
  text : List Char
  word : Word

/-- Words, each as it is spelled and with what stands in front of it, and what stands behind the last. -/
def laid (pieces : List Piece) (trail : List Char) : List Char :=
  pieces.flatMap (fun piece => piece.gap ++ piece.text) ++ trail

/-- A text that is laid out starts with the gap and the text of its first piece. -/
theorem laid_cons (piece : Piece) (pieces : List Piece) (trail : List Char) :
    laid (piece :: pieces) trail = piece.gap ++ (piece.text ++ laid pieces trail) := by
  simp [laid]

/-- Words with partings in front of all of them are read one by one, whatever they are. -/
theorem yields_laid {pieces : List Piece} {trail : List Char}
    (hwords : ∀ piece ∈ pieces, ReadAs piece.text piece.word) (hgaps : ∀ piece ∈ pieces, Parting piece.gap)
    (htrail : trail = [] ∨ Parting trail) :
    Separated (laid pieces trail) ∧ Yields (laid pieces trail) (pieces.map Piece.word) := by
  induction pieces with
  | nil =>
    rcases htrail with rfl | htrail
    · exact ⟨Lexeme.separated_nil, yields_nil⟩
    · have hseparated := htrail.separated []
      have hyields := yields_nil.layout htrail.1
      rw [List.append_nil] at hseparated hyields
      exact ⟨hseparated, hyields⟩
  | cons piece pieces ih =>
    obtain ⟨hword, hwords⟩ := List.forall_mem_cons.1 hwords
    obtain ⟨hgap, hgaps⟩ := List.forall_mem_cons.1 hgaps
    obtain ⟨hseparated, hyields⟩ := ih hwords hgaps
    rw [laid_cons]
    exact ⟨hgap.separated _, (hyields.cons hword hseparated).layout hgap.1⟩

end Word

open Word (Lexical Piece laid)

/-- Words of the language are read again from any text that has partings between them, and partings or
nothing before the first and behind the last, however each of them is spelled. -/
theorem tokenize_laid {pieces : List Piece} {trail : List Char}
    (hwords : ∀ piece ∈ pieces, Lexical piece.text piece.word)
    (hlead : ∀ piece ∈ pieces.head?, piece.gap = [] ∨ Parting piece.gap)
    (hgaps : ∀ piece ∈ pieces.tail, Parting piece.gap) (htrail : trail = [] ∨ Parting trail)
    (file : String) :
    ∃ tokens last, tokenize (String.ofList (laid pieces trail)) file = .ok (tokens ++ [last]) ∧
      last.kind = .endOfInput ∧ tokens.map Token.word = pieces.map Piece.word := by
  have hyields : Word.Yields (laid pieces trail) (pieces.map Piece.word) := by
    cases pieces with
    | nil => exact (Word.yields_laid (by simp) (by simp) htrail).2
    | cons piece pieces =>
      -- nothing has to stand before the first word, so it is taken off on its own
      obtain ⟨hword, hwords⟩ := List.forall_mem_cons.1 hwords
      obtain ⟨hseparated, hrest⟩ :=
        Word.yields_laid (fun piece hpiece => (hwords piece hpiece).readAs) hgaps htrail
      have hfirst := hrest.cons hword.readAs hseparated
      rw [Word.laid_cons]
      rcases hlead piece rfl with hnil | hparting
      · rwa [hnil, List.nil_append]
      · exact hfirst.layout hparting.1
  obtain ⟨tokens, hok, hmap⟩ := hyields.tokenize file
  obtain ⟨body, lasts, rfl, hbody, hlasts⟩ := List.map_eq_append_iff.1 hmap
  obtain ⟨last, rfl, hlast⟩ := List.map_eq_singleton_iff.1 hlasts
  exact ⟨body, last, hok, congrArg Word.kind hlast, hbody⟩

/-- A slash before white space and comments, a literal that looks like a comment and ends with a backslash,
a reserved word that is a literal, without quotes and between them, and a name that starts like a reserved
word. -/
theorem tokenize_laid_sample :
    let pieces : List Piece :=
      [⟨[], "/".toList, ⟨.mathOp, "/"⟩⟩,
       ⟨"\u2003// /\n//\n".toList, '"' :: escape "// \"\n\\".toList ++ ['"'], ⟨.literal, "// \"\n\\"⟩⟩,
       ⟨"\t".toList, "true".toList, ⟨.literal, "true"⟩⟩,
       ⟨"\t".toList, '"' :: escape "true".toList ++ ['"'], ⟨.literal, "true"⟩⟩,
       ⟨"\t".toList, "iffy".toList, ⟨.identifier, "iffy"⟩⟩]
    (∀ piece ∈ pieces, Lexical piece.text piece.word) ∧
      (∀ piece ∈ pieces.head?, piece.gap = [] ∨ Parting piece.gap) ∧
      (∀ piece ∈ pieces.tail, Parting piece.gap) ∧
      ∃ tokens last, tokenize (String.ofList (laid pieces [])) "shell" = .ok (tokens ++ [last]) ∧
        last.kind = .endOfInput ∧ tokens.map Token.word = pieces.map Piece.word := by
  intro pieces
  have hwords : ∀ piece ∈ pieces, Lexical piece.text piece.word := by
    simp only [pieces, List.forall_mem_cons]
    exact ⟨.arithmetic (by decide), .literal _, .reserved (by decide), .literal _,
      .name (by decide) (by decide), by simp⟩
  have hlead : ∀ piece ∈ pieces.head?, piece.gap = [] ∨ Parting piece.gap := by simp [pieces]
  have hshort : Layout ('/' :: '/' :: [] ++ '\n' :: []) := .comment (by simp) .nil
  have hlong : Layout ('/' :: '/' :: [' ', '/'] ++ '\n' :: ['/', '/', '\n']) :=
    .comment (by decide) hshort
  have htab : Parting ['\t'] := ⟨.blank (by decide) .nil, '\t', [], rfl, by decide⟩
  have hgaps : ∀ piece ∈ pieces.tail, Parting piece.gap := by
    simp only [pieces, List.tail_cons, List.forall_mem_cons]
    exact ⟨⟨.blank (by decide) hlong, '\u2003', _, rfl, by decide⟩, htab, htab, htab, by simp⟩
  exact ⟨hwords, hlead, hgaps, tokenize_laid hwords hlead hgaps (.inl rfl) "shell"⟩

/-! ### The words of sources -/

/-- A reserved word is found in the list of all of them. -/
theorem Kind.mem_reserved {value : String} {kind : Kind} (h : Kind.ofWord? value = some kind) :
    (value, kind) ∈ Kind.reserved := by
  obtain ⟨before, after, hsplit, -⟩ := List.lookup_eq_some_iff.1 h
  simp [hsplit]

namespace Lexeme

variable {start : Nat} {cs rest : List Char} {lexeme : Lexeme} {kind : Kind}

/-- A lexeme of the shape of words is a letter or an underscore, followed by such and by digits. -/
theorem isWord_of_word? {n : Nat} (h : word? cs = some n) : isWord (cs.take n) = true := by
  cases cs with
  | nil => cases h
  | cons c cs =>
    rw [word?] at h
    split at h
    · rename_i hc
      obtain rfl := Option.some.inj h
      have htake : cs.take (cs.takeWhile isWordPart).length = cs.takeWhile isWordPart :=
        (List.prefix_iff_eq_take.1 (List.takeWhile_prefix isWordPart)).symm
      rw [Nat.add_comm, List.take_succ_cons, htake, isWord, hc, Bool.true_and]
      exact List.all_eq_true.2 fun d hd => List.mem_takeWhile_imp hd
    · cases h

/-- Every lexeme that is a token is a word of the language. Literals are so whatever they are written as: a
number or a character between single quotes stands for a text that double quotes would serve as well. -/
theorem exists_lexical (h : next? start cs = some (lexeme, rest)) (hkind : lexeme.kind? = some kind) :
    ∃ text, Lexical text ⟨kind, lexeme.value⟩ := by
  obtain ⟨n, hextent, -, htext, -⟩ := next?_eq_some h
  -- the lexemes of a single sign differ in the sign only
  have hmark {c : Char} {other : Kind} (hmem : mark? [c] cs = some n)
      (hvalue : lexeme.value = String.ofList lexeme.text) (hspelling : String.ofList [c] = other.spelling)
      (hother : other ∈ [Kind.assignment, .confirm, .semicolon, .comma, .openCurly, .closeCurly, .openParen,
        .closeParen]) : ∃ text, Lexical text ⟨other, lexeme.value⟩ := by
    obtain ⟨d, hd, htake⟩ := mark?_eq_some hmem
    obtain rfl := List.mem_singleton.1 hd
    rw [hvalue, htext, htake, hspelling]
    exact ⟨_, .punctuation hother⟩
  cases hshape : lexeme.shape <;> rw [hshape] at hextent <;>
    simp only [kind?, hshape, Option.some.injEq, reduceCtorEq] at hkind <;> subst hkind
  case word =>
    have hvalue : lexeme.value = String.ofList lexeme.text := by simp [value, hshape]
    rw [hvalue]
    cases hword : Kind.ofWord? (String.ofList lexeme.text) with
    | none =>
      refine ⟨_, .name ?_ hword⟩
      rw [String.toList_ofList, htext]
      exact isWord_of_word? hextent
    | some kind => exact ⟨_, .reserved (Kind.mem_reserved hword)⟩
  case comparison =>
    have hvalue : lexeme.value = String.ofList lexeme.text := by simp [value, hshape]
    rw [hvalue, htext]
    exact ⟨_, .comparison (comparison?_eq_some hextent)⟩
  case arithmetic =>
    obtain ⟨c, hc, htake⟩ := mark?_eq_some hextent
    have hvalue : lexeme.value = String.ofList [c] := by simp [value, hshape, htext, htake]
    rw [hvalue]
    refine ⟨_, .arithmetic ?_⟩
    simp only [List.mem_cons, List.not_mem_nil, or_false] at hc
    rcases hc with rfl | rfl | rfl | rfl | rfl <;> decide
  case number | text | character => exact ⟨_, .literal _⟩
  case openCurly | closeCurly | openParen | closeParen | assignment | colon | semicolon | comma =>
    exact hmark hextent (by simp [value, hshape]) rfl (by decide)

/-- Every lexeme of a text stood at the front of some text when it was cut off. -/
theorem exists_next?_of_mem_segment (h : lexeme ∈ (segment start cs).lexemes) :
    ∃ start cs rest, next? start cs = some (lexeme, rest) := by
  induction hn : cs.length using Nat.strongRecOn generalizing start cs with
  | ind n ih =>
    cases hnext : next? start cs with
    | none =>
      rw [segment_of_next?_eq_none hnext] at h
      cases h
    | some cut =>
      obtain ⟨first, rest⟩ := cut
      rw [segment_of_next?_eq_some hnext] at h
      rcases List.mem_cons.1 h with rfl | hmem
      · exact ⟨start, cs, rest, hnext⟩
      · exact ih rest.length (hn ▸ next?_length hnext) hmem rfl

end Lexeme

/-- The words of the language are all that sources hold: every token is one of them, or the end token. -/
theorem lexical_of_tokenize {source file : String} {tokens : List Token}
    (h : tokenize source file = .ok tokens) {token : Token} (hmem : token ∈ tokens) :
    token.word = ⟨.endOfInput, "EOF"⟩ ∨ ∃ text, Lexical text token.word := by
  rw [tokenize, Token.ofSegmentation] at h
  split at h
  · obtain rfl := Except.ok.inj h
    rcases List.mem_append.1 hmem with htoken | hend
    · obtain ⟨lexeme, hlexeme, htoken⟩ := List.mem_filterMap.1 htoken
      obtain ⟨kind, hkind, rfl⟩ := Option.map_eq_some_iff.1 htoken
      obtain ⟨start, cs, rest, hnext⟩ := Lexeme.exists_next?_of_mem_segment hlexeme
      exact .inr (Lexeme.exists_lexical hnext hkind)
    · obtain rfl := List.mem_singleton.1 hend
      exact .inl rfl
  · cases h

/-- No word of the language is an end token: the end of a source is spelled by nothing. -/
theorem Word.Lexical.kind_ne_endOfInput {text : List Char} {word : Word} (h : Lexical text word) :
    word.kind ≠ .endOfInput := by
  cases h with
  | name | literal | comparison | arithmetic => exact nofun
  | @reserved value kind h =>
    have hall : ∀ entry ∈ Kind.reserved, entry.2 ≠ .endOfInput := by decide
    exact hall (value, kind) h
  | @punctuation kind h =>
    rintro rfl
    revert h
    decide

/-- A word of a kind whose words are all the same is spelled as the kind is. -/
theorem Word.Lexical.value_eq {text : List Char} {word : Word} (h : Lexical text word)
    (hvalue : word.kind.hasValue = false) : word.value = word.kind.spelling := by
  cases h with
  | name | literal | comparison | arithmetic => cases hvalue
  | @reserved value kind h =>
    have hall : ∀ entry ∈ Kind.reserved,
        entry.2.hasValue = false → entry.1 = entry.2.spelling := by decide
    exact hall (value, kind) h hvalue
  | punctuation => rfl

namespace Token

/-- The short text of a token shows its kind and, for the kinds that have values, its value. -/
theorem brief_eq_iff {token other : Token} :
    token.brief = other.brief ↔
      token.kind = other.kind ∧ (token.kind.hasValue = true → token.value = other.value) := by
  have hshown (token : Token) : ∃ shown, token.brief.toList = token.kind.name.toList ++ ' ' :: shown := by
    unfold brief
    split <;> simp
  constructor
  · intro h
    -- names of kinds hold no space, so the name is what stands before the first one
    have hname (token : Token) :
        token.brief.toList.takeWhile (· ≠ ' ') = token.kind.name.toList := by
      have hfree (kind : Kind) : kind.name.toList.all (· ≠ ' ') = true := by
        cases kind <;> decide
      obtain ⟨shown, hshown⟩ := hshown token
      rw [hshown, List.takeWhile_append_of_pos (List.all_eq_true.1 (hfree token.kind))]
      simp
    have hkind : token.kind = other.kind := by
      apply Kind.name_inj
      rw [← String.toList_inj, ← hname token, ← hname other, h]
    refine ⟨hkind, fun hvalue => ?_⟩
    rw [brief, brief, ← hkind, if_pos hvalue, if_pos hvalue] at h
    simpa [← String.toList_inj] using h
  · rintro ⟨hkind, hvalue⟩
    rw [brief, brief, ← hkind]
    split
    · rw [hvalue ‹_›]
    · rfl

/-- The short text is enough to tell tokens of sources apart: the values that it leaves out are the same for
all tokens of their kind. -/
theorem brief_eq_iff_of_tokenize {source file source' file' : String} {tokens tokens' : List Token}
    (h : tokenize source file = .ok tokens) (h' : tokenize source' file' = .ok tokens') {token other : Token}
    (hmem : token ∈ tokens) (hmem' : other ∈ tokens') : token.brief = other.brief ↔ token.word = other.word := by
  have hspelled {token : Token} (hword : token.word = ⟨.endOfInput, "EOF"⟩ ∨ ∃ text, Lexical text token.word)
      (hplain : token.kind.hasValue = false) :
      token.value = if token.kind = .endOfInput then "EOF" else token.kind.spelling := by
    rcases hword with hend | ⟨text, hlexical⟩
    · obtain ⟨hkind, hvalue⟩ := Word.mk.inj hend
      rw [if_pos hkind, hvalue]
    · exact (hlexical.value_eq hplain).trans (if_neg hlexical.kind_ne_endOfInput).symm
  rw [brief_eq_iff]
  constructor
  · rintro ⟨hkind, hvalue⟩
    have hsame : token.value = other.value := by
      by_cases hplain : token.kind.hasValue = false
      · rw [hspelled (lexical_of_tokenize h hmem) hplain,
          hspelled (lexical_of_tokenize h' hmem') (hkind ▸ hplain), hkind]
      · exact hvalue (by simpa using hplain)
    rw [word, word, hkind, hsame]
  · intro hword
    obtain ⟨hkind, hvalue⟩ := Word.mk.inj hword
    exact ⟨hkind, fun _ => hvalue⟩

end Token

end BraceLang
