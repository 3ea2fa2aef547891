import BraceLang.Proofs.Shapes

/-!
# Tokens tile their source

Cutting a source into tokens loses nothing. Each token but the last covers a slice of the source, the
slices follow each other, and all that stands between them is white space and comments; the last token
marks the end. `Tiles` says so in terms of the byte offsets that the tokens carry, and `tokenize_tiles`
says it of the tokens of every source whose offsets fit into a word.

The argument goes through `Tiling`, which takes a text apart from the left: a gap, a slice with its token,
and the rest. Every lexeme either makes the next gap longer or is the next slice (`tiling_segment`), and
each clause of `Tiles` is an induction on a tiling, for a text that stands behind some other text.
-/

set_option autoImplicit false

namespace BraceLang

open Text (byteLength dropBytes?)

/-! ### Slices -/

namespace Text

/-- Whether byte `n` of a text is where a character starts or where the text ends. -/
def isBoundary (cs : List Char) (n : Nat) : Bool :=
  (dropBytes? n cs).isSome

/-- The characters of a text from byte `start` up to byte `stop`, where both are boundaries. -/
def slice (cs : List Char) (start stop : Nat) : List Char :=
  match dropBytes? start cs, dropBytes? stop cs with
  | some back, some rest => back.take (back.length - rest.length)
  | _, _ => []

/-- To drop as many bytes as a text has leaves what follows the text. -/
theorem dropBytes?_append (front back : List Char) :
    dropBytes? (byteLength front) (front ++ back) = some back :=
  dropBytes?_eq_some_iff.2 ⟨front, rfl, rfl⟩

/-- There is a boundary behind every text, whatever follows it. -/
theorem isBoundary_append (front back : List Char) :
    isBoundary (front ++ back) (byteLength front) = true := by
  rw [isBoundary, dropBytes?_append]
  rfl

/-- A piece of a text is the slice between the bytes before it and those up to its end. -/
theorem slice_append (front piece back : List Char) :
    slice (front ++ piece ++ back) (byteLength front) (byteLength front + byteLength piece) =
      piece := by
  have hstart : dropBytes? (byteLength front) (front ++ piece ++ back) = some (piece ++ back) := by
    rw [List.append_assoc]
    exact dropBytes?_append front (piece ++ back)
  have hstop : dropBytes? (byteLength front + byteLength piece) (front ++ piece ++ back) =
      some back := by
    rw [← byteLength_append]
    exact dropBytes?_append (front ++ piece) back
  rw [slice, hstart, hstop]
  simp

/-- The slice up to the last byte is all that is left. -/
theorem slice_rest (front back : List Char) :
    slice (front ++ back) (byteLength front) (byteLength (front ++ back)) = back := by
  have h := slice_append front back []
  rwa [List.append_nil, ← byteLength_append] at h

/-- A text that is not empty has bytes, so that tokens cover something. -/
theorem byteLength_pos {cs : List Char} (h : cs ≠ []) : 0 < byteLength cs := by
  cases cs with
  | nil => exact absurd rfl h
  | cons c cs =>
    have := c.utf8Size_pos
    rw [byteLength_cons]
    omega

end Text

open Text (slice isBoundary)

/-! ### Gaps -/

/-- What may stand between tokens, in front of `rest`: white space, and comments, each of which goes on up
to a newline or the end of the input. -/
inductive Gap (rest : List Char) : List Char → Prop
  | nil : Gap rest []
  | blank {c : Char} {gap : List Char} (hc : Text.isBlank c = true) (more : Gap rest gap) :
      Gap rest (c :: gap)
  | comment {body gap : List Char} (hbody : '\n' ∉ body) (hend : Lexeme.EndsLine (gap ++ rest))
      (more : Gap rest gap) : Gap rest ('/' :: '/' :: body ++ gap)

/-- White space in front of a gap is part of the gap. -/
theorem Gap.blanks {rest gap cs : List Char} (hcs : ∀ c ∈ cs, Text.isBlank c = true)
    (h : Gap rest gap) : Gap rest (cs ++ gap) := by
  induction cs with
  | nil => exact h
  | cons c cs ih =>
    obtain ⟨hc, hcs⟩ := List.forall_mem_cons.1 hcs
    exact .blank hc (ih hcs)

/-! ### Tokens and what they cover -/

namespace Token

/-- The number of bytes before the token, as its span says. -/
def start (token : Token) : Nat :=
  token.span.start.offset.toNat

/-- The number of bytes up to the end of the token. -/
def stop (token : Token) : Nat :=
  token.span.stop.offset.toNat

/-- Whether the span of a token reaches from one byte to another of the file. -/
structure Covers (token : Token) (file : String) (start stop : Nat) : Prop where
  files : token.span.start.file = file ∧ token.span.stop.file = file
  start_eq : token.start = start
  stop_eq : token.stop = stop

/-- A span keeps offsets that fit into a word, so that the token covers what it was made for. -/
theorem covers_covering (kind : Kind) (value file : String) {start length : Nat}
    (h : start + length < UInt32.size) :
    Covers ⟨kind, value, .covering file start length⟩ file start (start + length) where
  files := ⟨rfl, rfl⟩
  start_eq := Position.toNat_offset_ofBytes file (by omega)
  stop_eq := Position.toNat_offset_ofBytes file h

end Token

/-- The text that a slice stands for: what its inside denotes if it starts with a quote, and itself
otherwise. -/
def Lexeme.denoted (slice : List Char) : List Char :=
  if slice.head? = some '"' ∨ slice.head? = some '\'' then unescape slice.tail.dropLast else slice

/-- The tokens of a text that stands at offset `start`: each covers a slice behind a gap, and an end token
stands behind the last gap. -/
inductive Tiling (file : String) : Nat → List Char → List Token → Prop
  | ending {start : Nat} {gap : List Char} {token : Token} (hgap : Gap [] gap)
      (hkind : token.kind = .endOfInput) (hvalue : token.value = "EOF")
      (hcovers : token.Covers file (start + byteLength gap) (start + byteLength gap)) :
      Tiling file start gap [token]
  | token {start : Nat} {gap slice rest : List Char} {token : Token} {tokens : List Token}
      (hgap : Gap (slice ++ rest) gap) (hslice : slice ≠ []) (hkind : token.kind ≠ .endOfInput)
      (hvalue : token.value = String.ofList (Lexeme.denoted slice))
      (hcovers : token.Covers file (start + byteLength gap)
        (start + byteLength gap + byteLength slice))
      (more : Tiling file (start + byteLength gap + byteLength slice) rest tokens) :
      Tiling file start (gap ++ slice ++ rest) (token :: tokens)

/-! ### Lexemes as gaps and slices -/

namespace Lexeme

/-- A lexeme that is no token makes the gap behind it longer. -/
theorem gap_of_kind?_eq_none {start : Nat} {cs rest gap : List Char} {lexeme : Lexeme}
    (hnext : next? start cs = some (lexeme, gap ++ rest)) (hkind : lexeme.kind? = none)
    (h : Gap rest gap) : Gap rest (lexeme.text ++ gap) := by
  obtain ⟨n, hextent, -, htext, hrest⟩ := next?_eq_some hnext
  cases hshape : lexeme.shape with
  | blank =>
    rw [hshape] at hextent
    rw [htext]
    exact h.blanks (run?_eq_some hextent)
  | comment =>
    rw [hshape] at hextent
    obtain ⟨body, hbody, hline, hend⟩ := comment?_eq_some hextent
    rw [htext, hbody]
    exact .comment hline (hrest ▸ hend) h
  | word | number | text | character | openCurly | closeCurly | openParen | closeParen | comparison
  | assignment | colon | semicolon | comma | arithmetic => simp [kind?, hshape] at hkind

/-- No reserved word is an end token, since none is spelled in that way. -/
theorem ofWord?_ne_endOfInput (word : String) : Kind.ofWord? word ≠ some .endOfInput := by
  intro h
  obtain ⟨before, after, hsplit, -⟩ := List.lookup_eq_some_iff.1 h
  have hmem : (word, Kind.endOfInput) ∈ Kind.reserved := by simp [hsplit]
  simp [Kind.reserved] at hmem

/-- No lexeme is an end token, so that the end token of a source is the only one. -/
theorem kind?_ne_endOfInput (lexeme : Lexeme) : lexeme.kind? ≠ some .endOfInput := by
  cases hshape : lexeme.shape with
  | word =>
    cases hword : Kind.ofWord? (String.ofList lexeme.text) with
    | none => simp [kind?, hshape, hword]
    | some kind =>
      have hne := ofWord?_ne_endOfInput (String.ofList lexeme.text)
      rw [hword] at hne
      simpa [kind?, hshape, hword] using hne
  | _ => simp [kind?, hshape]

/-- The value of a lexeme is what its characters stand for. -/
theorem value_eq_denoted {start : Nat} {cs rest : List Char} {lexeme : Lexeme}
    (h : next? start cs = some (lexeme, rest)) :
    lexeme.value = String.ofList (denoted lexeme.text) := by
  obtain ⟨c, text, htext, hstarts⟩ := exists_cons_of_next? h
  cases hshape : lexeme.shape with
  | text | character =>
    rw [hshape] at hstarts
    have hc := of_decide_eq_true hstarts
    simp [value, hshape, denoted, htext, hc]
  -- of the other shapes, none starts with a quote
  | _ =>
    have hquote : ¬ (c = '"' ∨ c = '\'') := by
      rintro (rfl | rfl) <;> rw [hshape] at hstarts <;> revert hstarts <;> decide
    simp [value, hshape, denoted, htext, hquote]

end Lexeme

open Lexeme (next? segment)

/-- A lexeme that is no token goes to the first gap. -/
theorem Tiling.skip {file : String} {start : Nat} {cs rest : List Char} {lexeme : Lexeme}
    {tokens : List Token} (hnext : next? start cs = some (lexeme, rest)) (hkind : lexeme.kind? = none)
    (h : Tiling file (start + byteLength lexeme.text) rest tokens) : Tiling file start cs tokens := by
  have hcs : lexeme.text ++ rest = cs := Lexeme.next?_append hnext
  subst hcs
  cases h with
  | @ending _ _ token hgap hend hvalue hcovers =>
    rw [← List.append_nil rest] at hnext
    refine .ending (Lexeme.gap_of_kind?_eq_none hnext hkind hgap) hend hvalue ?_
    rwa [Text.byteLength_append, ← Nat.add_assoc]
  | @token _ gap slice rest token tokens hgap hslice hend hvalue hcovers more =>
    rw [List.append_assoc] at hnext
    have htiling : Tiling file start (lexeme.text ++ gap ++ slice ++ rest) (token :: tokens) := by
      refine .token (Lexeme.gap_of_kind?_eq_none hnext hkind hgap) hslice hend hvalue ?_ ?_
      · rwa [Text.byteLength_append, ← Nat.add_assoc]
      · rwa [Text.byteLength_append, ← Nat.add_assoc]
    rwa [List.append_assoc, List.append_assoc, ← List.append_assoc gap] at htiling

/-- The tokens of a segmentation that reaches the end of its text tile the text. -/
theorem tiling_segment {file : String} {start : Nat} {cs : List Char}
    (hsize : start + byteLength cs < UInt32.size) (hrest : (segment start cs).rest = []) :
    Tiling file start cs ((segment start cs).lexemes.filterMap (Lexeme.token? file)
      ++ [Token.ending (.covering file (segment start cs).stop 0)]) := by
  induction hn : cs.length using Nat.strongRecOn generalizing start cs with
  | ind n ih =>
    cases hnext : next? start cs with
    | none =>
      rw [Lexeme.segment_of_next?_eq_none hnext] at hrest ⊢
      obtain rfl : cs = [] := hrest
      exact .ending .nil rfl rfl (Token.covers_covering _ _ _ (by simpa using hsize))
    | some cut =>
      obtain ⟨lexeme, rest⟩ := cut
      obtain ⟨-, -, hstart, -, -⟩ := Lexeme.next?_eq_some hnext
      have hcs := Lexeme.next?_append hnext
      have hstop : lexeme.stop = start + byteLength lexeme.text := by rw [Lexeme.stop, hstart]
      have hbytes : byteLength cs = byteLength lexeme.text + byteLength rest := by
        rw [← hcs, Text.byteLength_append]
      rw [Lexeme.segment_of_next?_eq_some hnext] at hrest ⊢
      have htail := ih rest.length (hn ▸ Lexeme.next?_length hnext) (by omega) hrest rfl
      rw [hstop] at htail ⊢
      cases hkind : lexeme.kind? with
      | none =>
        rw [List.filterMap_cons_none (by simp [Lexeme.token?, hkind])]
        -- blanks and comments become part of the gap before the next token
        exact htail.skip hnext hkind
      | some kind =>
        have htoken : Lexeme.token? file lexeme =
            some ⟨kind, lexeme.value, .covering file start (byteLength lexeme.text)⟩ := by
          simp [Lexeme.token?, hkind, hstart]
        have hslice : lexeme.text ≠ [] := by
          obtain ⟨c, text, htext, -⟩ := Lexeme.exists_cons_of_next? hnext
          simp [htext]
        have hend : kind ≠ .endOfInput := by
          rintro rfl
          exact Lexeme.kind?_ne_endOfInput lexeme hkind
        have hcovers := Token.covers_covering kind lexeme.value file
          (show start + byteLength lexeme.text < UInt32.size by omega)
        rw [List.filterMap_cons_some htoken, ← hcs]
        exact .token .nil hslice hend (Lexeme.value_eq_denoted hnext) hcovers htail

/-! ### What a tiling says about its source -/

namespace Tiling

variable {file : String} {start : Nat} {text : List Char} {tokens : List Token}

/-- The last token, and only it, is an end token, and it stands behind the text. -/
theorem ending_eq (h : Tiling file start text tokens) :
    ∃ body last, tokens = body ++ [last] ∧ (∀ token ∈ body, token.kind ≠ .endOfInput) ∧
      last.kind = .endOfInput ∧ last.value = "EOF" ∧
      last.start = start + byteLength text ∧ last.stop = start + byteLength text := by
  induction h with
  | @ending start gap token hgap hkind hvalue hcovers =>
    exact ⟨[], token, rfl, by simp, hkind, hvalue, hcovers.start_eq, hcovers.stop_eq⟩
  | @token start gap slice rest token tokens hgap hslice hkind hvalue hcovers more ih =>
    obtain ⟨body, last, rfl, hbody, hend, heof, hstart, hstop⟩ := ih
    refine ⟨token :: body, last, rfl, ?_, hend, heof, ?_, ?_⟩
    · exact List.forall_mem_cons.2 ⟨hkind, hbody⟩
    · simpa [Nat.add_assoc] using hstart
    · simpa [Nat.add_assoc] using hstop

/-- Every span names the file, at its start and at its stop. -/
theorem files (h : Tiling file start text tokens) :
    ∀ token ∈ tokens, token.span.start.file = file ∧ token.span.stop.file = file := by
  induction h with
  | ending hgap hkind hvalue hcovers => simpa using hcovers.files
  | token hgap hslice hkind hvalue hcovers more ih => exact List.forall_mem_cons.2 ⟨hcovers.files, ih⟩

/-- Tokens start one behind the other, and none of them before the text. -/
theorem pairwise_start (h : Tiling file start text tokens) :
    (∀ token ∈ tokens, start ≤ token.start) ∧
      tokens.Pairwise fun token next => token.start < next.start := by
  induction h with
  | @ending start gap token hgap hkind hvalue hcovers =>
    have := hcovers.start_eq
    simp only [List.mem_singleton, forall_eq, List.pairwise_singleton, and_true]
    omega
  | @token start gap slice rest token tokens hgap hslice hkind hvalue hcovers more ih =>
    obtain ⟨hle, hpairs⟩ := ih
    have hstart := hcovers.start_eq
    have hpos := Text.byteLength_pos hslice
    constructor
    · refine List.forall_mem_cons.2 ⟨by omega, fun next hnext => ?_⟩
      have := hle next hnext
      omega
    · refine List.pairwise_cons.2 ⟨fun next hnext => ?_, hpairs⟩
      have := hle next hnext
      omega

/-- Where a token is in the text: its slice is found between the offsets that its span says, and denotes its
value. -/
theorem split_token (h : Tiling file start text tokens) {token : Token} (hmem : token ∈ tokens)
    (hkind : token.kind ≠ .endOfInput) :
    ∃ before slice after, text = before ++ slice ++ after ∧ slice ≠ [] ∧
      token.value = String.ofList (Lexeme.denoted slice) ∧
      token.Covers file (start + byteLength before) (start + byteLength before + byteLength slice) := by
  induction h with
  | ending hgap hend hvalue hcovers =>
    obtain rfl := List.mem_singleton.1 hmem
    exact absurd hend hkind
  | @token start gap slice rest first tokens hgap hslice hend hvalue hcovers more ih =>
    obtain rfl | hmem := List.mem_cons.1 hmem
    · exact ⟨gap, slice, rest, rfl, hslice, hvalue, hcovers⟩
    · obtain ⟨before, piece, after, rfl, hpiece, hdenoted, hplace⟩ := ih hmem
      refine ⟨gap ++ slice ++ before, piece, after, by simp, hpiece, hdenoted, ?_⟩
      simpa [Nat.add_assoc] using hplace

/-- The edges of the gaps: each gap reaches from the end of a token, or the start of the text, to the start
of the next token. -/
def edges (start : Nat) (tokens : List Token) : List (Nat × Nat) :=
  (start :: tokens.map Token.stop).zip (tokens.map Token.start)

/-- Where a gap is in the text: between two tokens, or in front of the first or behind the last of them. -/
theorem split_gap (h : Tiling file start text tokens) {left right : Nat}
    (hmem : (left, right) ∈ edges start tokens) :
    ∃ before gap after, text = before ++ gap ++ after ∧ Gap after gap ∧
      left = start + byteLength before ∧ right = left + byteLength gap := by
  induction h with
  | @ending start gap token hgap hkind hvalue hcovers =>
    obtain ⟨rfl, rfl⟩ : left = start ∧ right = token.start := by simpa [edges] using hmem
    exact ⟨[], gap, [], by simp, hgap, rfl, hcovers.start_eq⟩
  | @token start gap slice rest token tokens hgap hslice hkind hvalue hcovers more ih =>
    obtain ⟨rfl, rfl⟩ | hmem : (left = start ∧ right = token.start) ∨
        (left, right) ∈ edges token.stop tokens := by
      simpa [edges] using hmem
    · exact ⟨[], gap, slice ++ rest, by simp, hgap, rfl, hcovers.start_eq⟩
    · rw [hcovers.stop_eq] at hmem
      obtain ⟨before, between, after, rfl, hbetween, hleft, hright⟩ := ih hmem
      refine ⟨gap ++ slice ++ before, between, after, by simp, hbetween, ?_, hright⟩
      simpa [Nat.add_assoc] using hleft

/-- Gaps and slices, one after the other, are the text. Since the offsets count in the source, the text
stands behind some other text here, which grows as what is left of the source gets shorter. -/
theorem flatten_pieces (h : Tiling file start text tokens) (front : List Char)
    (hfront : byteLength front = start) :
    ((start :: tokens.map Token.stop).zip tokens).flatMap (fun piece =>
      slice (front ++ text) piece.1 piece.2.start ++
        slice (front ++ text) piece.2.start piece.2.stop) = text := by
  induction h generalizing front with
  | @ending start gap token hgap hkind hvalue hcovers =>
    have hleft := Text.slice_append front gap []
    have hright := Text.slice_append (front ++ gap) [] []
    simp only [List.append_nil, Text.byteLength_append, Text.byteLength_nil, Nat.add_zero, hfront]
      at hleft hright
    simp [hcovers.start_eq, hcovers.stop_eq, hleft, hright]
  | @token start gap slice rest token tokens hgap hslice hkind hvalue hcovers more ih =>
    have hleft := Text.slice_append front gap (slice ++ rest)
    have hright := Text.slice_append (front ++ gap) slice rest
    have hrest := ih (front ++ gap ++ slice) (by simp [hfront, Nat.add_assoc])
    simp only [List.append_assoc, Text.byteLength_append, hfront] at hleft hright hrest
    simp only [List.append_assoc, List.map_cons, List.zip_cons_cons, List.flatMap_cons,
      hcovers.start_eq, hcovers.stop_eq, hleft, hright, hrest]

end Tiling

/-! ### The tokens of a source -/

/-- What it means that tokens tile a source: their slices and the gaps between them make up all of it. -/
structure Tiles (file : String) (source : List Char) (tokens : List Token) : Prop where
  /-- The last token, and only it, is an end token, which covers nothing at the end of the source. -/
  ending : ∃ body last, tokens = body ++ [last] ∧ (∀ token ∈ body, token.kind ≠ .endOfInput) ∧
    last.kind = .endOfInput ∧ last.value = "EOF" ∧
    last.start = byteLength source ∧ last.stop = byteLength source
  /-- Every span names the file. -/
  files : ∀ token ∈ tokens, token.span.start.file = file ∧ token.span.stop.file = file
  /-- Every span lies between characters. -/
  boundaries : ∀ token ∈ tokens,
    isBoundary source token.start = true ∧ isBoundary source token.stop = true
  /-- Every other token covers a slice that is not empty, and its value is what the slice stands for. -/
  slices : ∀ token ∈ tokens, token.kind ≠ .endOfInput → token.start < token.stop ∧
    token.value = String.ofList (Lexeme.denoted (slice source token.start token.stop))
  /-- No token ends behind the start of the next, and what is between them is a gap. -/
  gaps : ∀ edge ∈ Tiling.edges 0 tokens, edge.1 ≤ edge.2 ∧
    Gap (slice source edge.2 (byteLength source)) (slice source edge.1 edge.2)
  /-- Gaps and slices, one after the other, are the source. -/
  whole : ((0 :: tokens.map Token.stop).zip tokens).flatMap (fun piece =>
    slice source piece.1 piece.2.start ++ slice source piece.2.start piece.2.stop) = source

/-- The tokens of a source that a tiling takes apart from its start. -/
theorem Tiling.tiles {file : String} {source : List Char} {tokens : List Token}
    (h : Tiling file 0 source tokens) : Tiles file source tokens := by
  obtain ⟨body, last, hbody, hothers, hkind, hvalue, hstart, hstop⟩ := h.ending_eq
  rw [Nat.zero_add] at hstart hstop
  -- a token before the end is a piece of the source between two others
  have hslice (token : Token) (hmem : token ∈ tokens) (hne : token.kind ≠ .endOfInput) :
      isBoundary source token.start = true ∧ isBoundary source token.stop = true ∧
        token.start < token.stop ∧
        token.value = String.ofList (Lexeme.denoted (slice source token.start token.stop)) := by
    obtain ⟨before, piece, after, rfl, hpiece, hdenoted, hcovers⟩ := h.split_token hmem hne
    rw [hcovers.start_eq, hcovers.stop_eq, Nat.zero_add, Text.slice_append]
    refine ⟨?_, ?_, Nat.lt_add_of_pos_right (Text.byteLength_pos hpiece), hdenoted⟩
    · rw [List.append_assoc]
      exact Text.isBoundary_append before (piece ++ after)
    · rw [← Text.byteLength_append]
      exact Text.isBoundary_append (before ++ piece) after
  refine ⟨⟨body, last, hbody, hothers, hkind, hvalue, hstart, hstop⟩, h.files, ?_, ?_, ?_, ?_⟩
  · intro token hmem
    by_cases hend : token.kind = .endOfInput
    · obtain rfl : token = last := by
        rw [hbody, List.mem_append, List.mem_singleton] at hmem
        exact hmem.resolve_left fun hmem => hothers token hmem hend
      have hend := Text.isBoundary_append source []
      rw [List.append_nil] at hend
      rw [hstart, hstop]
      exact ⟨hend, hend⟩
    · obtain ⟨hleft, hright, -, -⟩ := hslice token hmem hend
      exact ⟨hleft, hright⟩
  · intro token hmem hne
    exact (hslice token hmem hne).2.2
  · rintro ⟨left, right⟩ hmem
    obtain ⟨before, gap, after, rfl, hgap, rfl, rfl⟩ := h.split_gap hmem
    have hrest := Text.slice_rest (before ++ gap) after
    rw [Text.byteLength_append before gap] at hrest
    rw [Nat.zero_add, hrest, Text.slice_append]
    exact ⟨Nat.le_add_right _ _, hgap⟩
  · exact h.flatten_pieces [] rfl

/-- Where a source can be cut into tokens, these are taken off it from left to right. -/
theorem tiling_of_tokenize {source file : String} {tokens : List Token}
    (hsize : source.utf8ByteSize < UInt32.size) (h : tokenize source file = .ok tokens) :
    Tiling file 0 source.toList tokens := by
  have hbytes : 0 + byteLength source.toList < UInt32.size := by
    rwa [Nat.zero_add, Text.byteLength_toList]
  cases hrest : (segment 0 source.toList).rest with
  | nil =>
    have htiling : Tiling file 0 source.toList _ := tiling_segment hbytes hrest
    simp only [tokenize, Token.ofSegmentation, hrest, Except.ok.injEq] at h
    rwa [h] at htiling
  | cons c rest => simp [tokenize, Token.ofSegmentation, hrest] at h

/-- The tokens of a source whose offsets fit into a word tile the source, which is called `shell` if it
comes without a name. -/
theorem tokenize_tiles {source : String} {file? : Option String} {tokens : List Token}
    (hsize : source.utf8ByteSize < UInt32.size)
    (h : tokenize source (file?.getD defaultFile) = .ok tokens) :
    Tiles (file?.getD defaultFile) source.toList tokens :=
  (tiling_of_tokenize hsize h).tiles

/-- A source with a comment, an escape and characters of two bytes. -/
theorem tokenize_tiles_sample :
    let source := "x // é\n\"é\\n\"\t"
    let tokens : List Token :=
      [⟨.identifier, "x", .covering "shell" 0 1⟩, ⟨.literal, "é\n", .covering "shell" 8 6⟩,
       .ending (.covering "shell" 15 0)]
    source.utf8ByteSize < UInt32.size ∧
      tokenize source ((none : Option String).getD defaultFile) = .ok tokens ∧
      Tiles defaultFile source.toList tokens := by
  intro source tokens
  have hsize : source.utf8ByteSize < UInt32.size := by decide
  have hok : tokenize source ((none : Option String).getD defaultFile) = .ok tokens := by decide +kernel
  exact ⟨hsize, hok, tokenize_tiles hsize hok⟩

/-- The end token is the exception: its value is no slice of the source. -/
theorem ending_value_ne_slice :
    ¬ ∀ (source file : String) (tokens : List Token), source.utf8ByteSize < UInt32.size →
      tokenize source file = .ok tokens → ∀ token ∈ tokens,
        token.value = String.ofList (Lexeme.denoted (slice source.toList token.start token.stop)) := by
  intro h
  have hok : tokenize "" "shell" = .ok [.ending (.covering "shell" 0 0)] := by decide +kernel
  have hvalue := h "" "shell" _ (by decide) hok _ (List.mem_singleton.2 rfl)
  revert hvalue
  decide

end BraceLang
