import BraceLang.Proofs.Cascade
import BraceLang.Proofs.Names

/-!
# Diagnostics follow the source

Where a source has been cut into tokens, its diagnostics stand where these tokens start. The complaints behind
them come in the order of the tokens and are at most two about each (`Word.complaints_orderly`), and the
tokens of a source start one behind the other. So the diagnostics of a source come in source order
(`diagnostics_ordered`), and at most two of them stand at any place before its end
(`countP_diagnostics_le_two`).
-/

set_option autoImplicit false

namespace BraceLang

open Complaint (times)
open Text (byteLength isBoundary)

/-- There are at most two complaints about any token of a stream other than an end token. -/
theorem times_complaints_le_two {tokens : List Token} {place : Nat} {token : Token}
    (htoken : (Cursor.closed tokens)[place]? = some token) (hk : token.kind ≠ .endOfInput) :
    times (Word.complaints (tokens.map Token.word)) place ≤ 2 := by
  refine (Word.complaints_orderly (tokens.map Token.word)).2 place token.word ?_ hk
  rw [Word.closed_map_word, List.getElem?_map, htoken, Option.map_some]

namespace Tiling

variable {file : String} {start : Nat} {text : List Char} {tokens : List Token}

/-- The tokens of a source are closed already, by the end token behind them. -/
theorem closed_eq (h : Tiling file start text tokens) : Cursor.closed tokens = tokens := by
  obtain ⟨body, last, rfl, -, hlast, -, -, -⟩ := h.ending_eq
  simp [Cursor.closed, hlast]

/-- A token before the end of the text is no end token. -/
theorem kind_ne_endOfInput (h : Tiling file start text tokens) {token : Token} (hmem : token ∈ tokens)
    (hlt : token.start < start + byteLength text) : token.kind ≠ .endOfInput := by
  obtain ⟨body, last, rfl, hbody, -, -, hstart, -⟩ := h.ending_eq
  obtain hmem | hmem := List.mem_append.1 hmem
  · exact hbody token hmem
  · obtain rfl := List.mem_singleton.1 hmem
    omega

variable {i j : Nat} {token next : Token}

/-- Of two tokens, the later one starts at a greater offset, since no token but the last is empty. -/
theorem start_lt (h : Tiling file start text tokens) (hi : tokens[i]? = some token)
    (hj : tokens[j]? = some next) (hlt : i < j) : token.start < next.start := by
  obtain ⟨hfirst, rfl⟩ := List.getElem?_eq_some_iff.1 hi
  obtain ⟨hsecond, rfl⟩ := List.getElem?_eq_some_iff.1 hj
  exact List.pairwise_iff_getElem.1 h.pairwise_start.2 i j hfirst hsecond hlt

/-- Offsets of tokens grow with their places, so that complaints in the order of the tokens are in the order
of the source. -/
theorem start_le (h : Tiling file start text tokens) (hi : tokens[i]? = some token)
    (hj : tokens[j]? = some next) (hle : i ≤ j) : token.start ≤ next.start := by
  obtain hlt | rfl := Nat.lt_or_eq_of_le hle
  · exact Nat.le_of_lt (h.start_lt hi hj hlt)
  · obtain rfl := Option.some.inj (hi.symm.trans hj)
    exact Nat.le_refl _

/-- No token starts behind the text, not even the end token. -/
theorem start_le_end (h : Tiling file start text tokens) (hmem : token ∈ tokens) :
    token.start ≤ start + byteLength text := by
  obtain ⟨i, hi⟩ := List.getElem?_of_mem hmem
  obtain ⟨body, last, rfl, -, -, -, hlast, -⟩ := h.ending_eq
  have hle : i ≤ body.length := by
    obtain ⟨hlt, -⟩ := List.getElem?_eq_some_iff.1 hi
    simpa [Nat.lt_succ_iff] using hlt
  rw [← hlast]
  exact h.start_le hi (List.getElem?_concat_length) hle

/-- Tokens that start at the same place are one, so that an offset tells which token a diagnostic is
about. -/
theorem eq_of_start_eq (h : Tiling file start text tokens) (hi : tokens[i]? = some token)
    (hj : tokens[j]? = some next) (heq : token.start = next.start) : i = j := by
  obtain hlt | heq' | hlt := Nat.lt_trichotomy i j
  · have := h.start_lt hi hj hlt
    omega
  · exact heq'
  · have := h.start_lt hj hi hlt
    omega

/-- Each complaint about the tokens of a source stands where one of them starts, whatever file name is used for
tokens without one. -/
theorem position_located (h : Tiling file start text tokens) {complaint : Complaint}
    (hmem : complaint ∈ Word.complaints (tokens.map Token.word)) (name : String) :
    ∃ token, tokens[complaint.place]? = some token ∧
      ((Cursor.ofTokens tokens name).located complaint).position =
        (Cursor.ofTokens tokens name).positionOf token := by
  have hplace := (parse_eq_reading tokens name).2.2 complaint hmem
  have hget : (Cursor.ofTokens tokens name).tokens.toList[complaint.place]? = some _ :=
    Cursor.getElem?_tokens hplace
  rw [show (Cursor.ofTokens tokens name).tokens.toList = Cursor.closed tokens from rfl, h.closed_eq] at hget
  exact ⟨_, hget, rfl⟩

/-- Complaints that stand at the same offset are about the same token. -/
theorem place_eq (h : Tiling file start text tokens) {complaint other : Complaint}
    (hmem : complaint ∈ Word.complaints (tokens.map Token.word))
    (hother : other ∈ Word.complaints (tokens.map Token.word)) (name : String)
    (heq : ((Cursor.ofTokens tokens name).located complaint).position.offset =
      ((Cursor.ofTokens tokens name).located other).position.offset) :
    complaint.place = other.place := by
  obtain ⟨token, htoken, hposition⟩ := h.position_located hmem name
  obtain ⟨next, hnext, hposition'⟩ := h.position_located hother name
  rw [hposition, hposition', Cursor.offset_positionOf, Cursor.offset_positionOf] at heq
  exact h.eq_of_start_eq htoken hnext (congrArg UInt32.toNat heq)

end Tiling

/-- Reported positions are those of the tokens themselves if the tokens name the file. -/
theorem Cursor.positionOf_eq {cursor : Cursor} {token : Token} (h : token.span.start.file = cursor.file) :
    cursor.positionOf token = token.span.start := by
  rw [positionOf, Position.orIn, ← h]
  exact ite_self _

/-! ### The diagnostics of a source -/

/-- Diagnostics come in source order. In every stream, the complaints that they are come in the order of the
tokens in question. So in a source whose offsets fit into a word, no diagnostic stands before an earlier one,
and each stands where a token starts, inside the source, between characters, and with the name of the
source. -/
theorem diagnostics_ordered :
    (∀ (tokens : List Token) (file : String),
      (parse tokens file).2 =
        (Word.complaints (tokens.map Token.word)).map (Cursor.ofTokens tokens file).located ∧
      (∀ complaint ∈ Word.complaints (tokens.map Token.word),
        complaint.place < (Cursor.closed tokens).length) ∧
      (Word.complaints (tokens.map Token.word)).Pairwise fun complaint next =>
        complaint.place ≤ next.place) ∧
    ∀ (source file : String) (tokens : List Token),
      source.utf8ByteSize < UInt32.size → tokenize source file = .ok tokens →
      ((parse tokens file).2.Pairwise fun diagnostic next =>
        diagnostic.position.offset ≤ next.position.offset) ∧
      ∀ diagnostic ∈ (parse tokens file).2,
        (∃ token ∈ tokens, diagnostic.position = token.span.start) ∧
        diagnostic.position.file = file ∧
        diagnostic.position.offset.toNat ≤ source.utf8ByteSize ∧
        isBoundary source.toList diagnostic.position.offset.toNat = true := by
  refine ⟨fun tokens file => ?_, fun source file tokens hsize htokens => ?_⟩
  · obtain ⟨-, hdiagnostics, hinside⟩ := parse_eq_reading tokens file
    exact ⟨hdiagnostics, hinside, (Word.complaints_orderly _).1⟩
  have htiling := tiling_of_tokenize hsize htokens
  rw [(parse_eq_reading tokens file).2.1]
  constructor
  · -- tokens of a source do not overlap, so their order is that of their offsets
    refine List.pairwise_map.2 ((Word.complaints_orderly _).1.imp_of_mem ?_)
    intro complaint next hmem hnext hle
    obtain ⟨token, htoken, hposition⟩ := htiling.position_located hmem file
    obtain ⟨other, hother, hposition'⟩ := htiling.position_located hnext file
    rw [hposition, hposition', Cursor.offset_positionOf, Cursor.offset_positionOf, UInt32.le_iff_toNat_le]
    exact htiling.start_le htoken hother hle
  · refine List.forall_mem_map.2 fun complaint hmem => ?_
    obtain ⟨token, htoken, hposition⟩ := htiling.position_located hmem file
    have hmem := List.mem_of_getElem? htoken
    have hfile := (htiling.files token hmem).1
    rw [hposition, Cursor.positionOf_eq hfile]
    refine ⟨⟨token, hmem, rfl⟩, hfile, ?_, (htiling.tiles.boundaries token hmem).1⟩
    have hle := htiling.start_le_end hmem
    rwa [Nat.zero_add, Text.byteLength_toList] at hle

/-- An operator that has been taken already, the operand that is missing behind it, and a bracket that starts no
item. -/
theorem diagnostics_ordered_sample :
    let source := "int:x=\"é\"%;\x7d"
    let tokens : List Token :=
      [⟨.typeKeyword, "int", .covering "shell" 0 3⟩, ⟨.confirm, ":", .covering "shell" 3 1⟩,
       ⟨.identifier, "x", .covering "shell" 4 1⟩, ⟨.assignment, "=", .covering "shell" 5 1⟩,
       ⟨.literal, "é", .covering "shell" 6 4⟩, ⟨.mathOp, "%", .covering "shell" 10 1⟩,
       ⟨.semicolon, ";", .covering "shell" 11 1⟩, ⟨.closeCurly, "\x7d", .covering "shell" 12 1⟩,
       .ending (.covering "shell" 13 0)]
    source.utf8ByteSize < UInt32.size ∧ tokenize source defaultFile = .ok tokens ∧
      (parse tokens defaultFile).2.map (fun diagnostic => diagnostic.position.offset) = [10, 11, 12] ∧
      ((parse tokens defaultFile).2.Pairwise fun diagnostic next =>
        diagnostic.position.offset ≤ next.position.offset) ∧
      ∀ diagnostic ∈ (parse tokens defaultFile).2,
        (∃ token ∈ tokens, diagnostic.position = token.span.start) ∧
        diagnostic.position.file = defaultFile ∧
        diagnostic.position.offset.toNat ≤ source.utf8ByteSize ∧
        isBoundary source.toList diagnostic.position.offset.toNat = true := by
  intro source tokens
  have hsize : source.utf8ByteSize < UInt32.size := by decide
  have hok : tokenize source defaultFile = .ok tokens := by decide +kernel
  exact ⟨hsize, hok, by decide +kernel, diagnostics_ordered.2 source defaultFile tokens hsize hok⟩

/-- At most two diagnostics are about any token other than an end token. In every stream this holds of the
complaints that the diagnostics are. So in a source whose offsets fit into a word at most two diagnostics stand
at any offset before its end, whatever file name is used for tokens without one. -/
theorem countP_diagnostics_le_two :
    (∀ (tokens : List Token) (file : String),
      (parse tokens file).2 =
        (Word.complaints (tokens.map Token.word)).map (Cursor.ofTokens tokens file).located ∧
      ∀ (place : Nat) (token : Token),
        (Cursor.closed tokens)[place]? = some token → token.kind ≠ .endOfInput →
        times (Word.complaints (tokens.map Token.word)) place ≤ 2) ∧
    ∀ (source file : String) (tokens : List Token),
      source.utf8ByteSize < UInt32.size → tokenize source file = .ok tokens →
      ∀ (name : String) (offset : Nat), offset < source.utf8ByteSize →
        ((parse tokens name).2.countP fun diagnostic => diagnostic.position.offset.toNat = offset) ≤ 2 := by
  refine ⟨fun tokens file => ⟨(parse_eq_reading tokens file).2.1, fun place token htoken hk => ?_⟩, ?_⟩
  · exact times_complaints_le_two htoken hk
  intro source file tokens hsize htokens name offset hoffset
  have htiling := tiling_of_tokenize hsize htokens
  rw [(parse_eq_reading tokens name).2.1, List.countP_map]
  by_cases hnone : ∀ complaint ∈ Word.complaints (tokens.map Token.word),
      ((Cursor.ofTokens tokens name).located complaint).position.offset.toNat ≠ offset
  · rw [List.countP_eq_zero.2 fun complaint hmem => by simpa using hnone complaint hmem]
    exact Nat.zero_le 2
  -- all complaints at the offset are about the token that one of them is about
  · push Not at hnone
    obtain ⟨complaint, hmem, rfl⟩ := hnone
    obtain ⟨token, htoken, hposition⟩ := htiling.position_located hmem name
    have hk : token.kind ≠ .endOfInput := by
      refine htiling.kind_ne_endOfInput (List.mem_of_getElem? htoken) ?_
      rw [hposition, Cursor.offset_positionOf] at hoffset
      rwa [Nat.zero_add, Text.byteLength_toList]
    refine Nat.le_trans (List.countP_mono_left fun other hother hat => ?_)
      (times_complaints_le_two (htiling.closed_eq.symm ▸ htoken) hk)
    have heq := UInt32.toNat_inj.1 (of_decide_eq_true hat)
    exact decide_eq_true (htiling.place_eq hother hmem name heq)

/-- The bracket stands in the place of an operand and of a parenthesis, so it is reported twice. As the bracket of
the block it is in its place. -/
theorem countP_diagnostics_le_two_sample :
    let source := "int f(int:a=\x7b\x7d"
    let tokens : List Token :=
      [⟨.typeKeyword, "int", .covering "shell" 0 3⟩, ⟨.identifier, "f", .covering "shell" 4 1⟩,
       ⟨.openParen, "(", .covering "shell" 5 1⟩, ⟨.typeKeyword, "int", .covering "shell" 6 3⟩,
       ⟨.confirm, ":", .covering "shell" 9 1⟩, ⟨.identifier, "a", .covering "shell" 10 1⟩,
       ⟨.assignment, "=", .covering "shell" 11 1⟩, ⟨.openCurly, "\x7b", .covering "shell" 12 1⟩,
       ⟨.closeCurly, "\x7d", .covering "shell" 13 1⟩, .ending (.covering "shell" 14 0)]
    source.utf8ByteSize < UInt32.size ∧ tokenize source defaultFile = .ok tokens ∧
      (parse tokens defaultFile).2.map (fun diagnostic => diagnostic.position.offset) = [12, 12] ∧
      ((parse tokens defaultFile).2.countP fun diagnostic => diagnostic.position.offset.toNat = 12) ≤ 2 ∧
      (Cursor.closed tokens)[7]? = some ⟨.openCurly, "\x7b", .covering "shell" 12 1⟩ ∧
      times (Word.complaints (tokens.map Token.word)) 7 ≤ 2 := by
  intro source tokens
  have hsize : source.utf8ByteSize < UInt32.size := by decide
  have hok : tokenize source defaultFile = .ok tokens := by decide +kernel
  have htoken : (Cursor.closed tokens)[7]? = some ⟨.openCurly, "\x7b", .covering "shell" 12 1⟩ := by decide +kernel
  refine ⟨hsize, hok, by decide +kernel, ?_, htoken, ?_⟩
  · exact countP_diagnostics_le_two.2 source defaultFile tokens hsize hok defaultFile 12 (by decide)
  · exact (countP_diagnostics_le_two.1 tokens defaultFile).2 7 _ htoken (by decide)

end BraceLang
