import BraceLang.Proofs.Reports

/-!
# Sources one after the other

A source that can be cut into tokens keeps its tokens when a newline and any other source are put behind it, and
the other source has the tokens that it has alone, only further back (`tokenize_append_line`). There are three
parts to it:

* a newline ends every lexeme outside quotes and white space, and it starts none, so the first lexeme of a text
  stays the same in front of a newline (`Lexeme.next?_append_line`);
* white space in front of a text moves its tokens and does nothing else (`tokensAt_blank`), also where a run of
  white space at the end of the first source grows into the second;
* which tokens a text has does not depend on where it stands (`tokensAt_raise`).
-/

set_option autoImplicit false

namespace BraceLang

open Text (byteLength)
open Lexeme (next? segment Shape)

/-! ### Lexemes in front of a newline -/

namespace Lexeme

variable {cs : List Char} {n : Nat}

/-- No lexeme but white space starts with a newline, so that a line behind a text adds nothing to the lexeme
before it. -/
theorem Shape.extent?_line {shape : Shape} (h : shape ≠ blank) (ds : List Char) :
    shape.extent? ('\n' :: ds) = none := by
  apply extent?_eq_none
  cases shape with
  | blank => exact absurd rfl h
  | _ => rfl

/-- Outside quotes a lexeme that is not white space is the same with a newline behind the text, and where there is
none there is still none. -/
theorem Shape.extent?_append_line {shape : Shape} (h : shape ∉ [blank, text, character])
    (cs ds : List Char) : shape.extent? (cs ++ '\n' :: ds) = shape.extent? cs := by
  cases cs with
  | nil =>
    rw [List.nil_append, extent?_line (by rintro rfl; simp at h)]
    cases shape <;> rfl
  | cons c cs =>
    cases shape with
    | blank | text | character => simp at h
    | number => simp only [extent?, run?, Text.takeWhile_append_cons (show Char.isDigit '\n' = false from rfl)]
    | word =>
      simp only [extent?, word?, List.cons_append, Text.takeWhile_append_cons (show isWordPart '\n' = false from rfl)]
    | comment =>
      cases cs with
      | nil => simp [extent?, comment?]
      | cons d cs =>
        have hbody := Text.takeWhile_append_cons (p := (· ≠ '\n')) (c := '\n') (by simp) cs ds
        simp only [extent?, comment?, List.cons_append, hbody]
    | comparison =>
      cases cs with
      | nil => simp [extent?, comparison?]
      | cons d cs => rfl
    | openCurly | closeCurly | openParen | closeParen | assignment | colon | semicolon | comma | arithmetic => rfl

/-- Between quotes nothing changes behind the closing one: the units before it are counted without looking
further. -/
theorem closing?_append {q : Char} {k : Nat} (h : closing? q k cs = some n) (ds : List Char) :
    closing? q k (cs ++ ds) = some n := by
  fun_induction closing? q k cs with
  | case1 k => cases h
  | case2 k => cases ds <;> simpa [closing?] using h
  | case3 k c hc => cases h
  | case4 k d cs => simpa [closing?] using h
  | case5 k cs hc => cases h
  | case6 k d cs hc hd ih => simpa [closing?, hc, hd] using ih h
  | case7 k c d cs hc hslash ih => simpa [closing?, hc, hslash] using ih h

/-- A literal between double quotes that is closed is the same with anything behind it. -/
theorem text?_append (h : text? cs = some n) (ds : List Char) : text? (cs ++ ds) = some n := by
  match cs, h with
  | c :: cs, h =>
    simp only [text?, List.cons_append] at h ⊢
    split at h
    · rename_i hc
      rw [if_pos hc, closing?_append h]
    · cases h

/-- A unit that is not the end of the text is the same with anything behind it. At the end, a backslash
could still take what follows. -/
theorem unit?_append {q : Char} (h : unit? q cs = some n) (hn : n < cs.length) (ds : List Char) :
    unit? q (cs ++ ds) = some n := by
  match cs, h with
  | [c], h =>
    simp only [unit?] at h
    split at h
    · cases h
    · obtain rfl := Option.some.inj h
      simp at hn
  | c :: d :: cs, h => exact h

/-- A literal between single quotes that is closed is the same with anything behind it. -/
theorem character?_append (h : character? cs = some n) (ds : List Char) : character? (cs ++ ds) = some n := by
  match cs, h with
  | c :: cs, h =>
    simp only [character?, List.cons_append] at h ⊢
    split at h
    · rename_i hc
      cases hunit : unit? '\'' cs with
      | none => simp [hunit] at h
      | some m =>
        simp only [hunit] at h
        split at h
        · rename_i hlast
          obtain ⟨hlt, -⟩ := List.getElem?_eq_some_iff.1 hlast
          rw [if_pos hc, unit?_append hunit hlt]
          simpa [List.getElem?_append_left hlt, hlast] using h
        · cases h
    · cases h

/-- A lexeme that is not white space stays the same with a newline and any text behind its text. -/
theorem Shape.extent?_append_of_some {shape : Shape} (hblank : shape ≠ blank)
    (h : shape.extent? cs = some n) (ds : List Char) : shape.extent? (cs ++ '\n' :: ds) = some n := by
  by_cases hquoted : shape ∈ [text, character]
  · simp only [List.mem_cons, List.not_mem_nil, or_false] at hquoted
    rcases hquoted with rfl | rfl
    · exact text?_append h _
    · exact character?_append h _
  · rw [extent?_append_line (by simpa [hblank] using hquoted), h]

/-- Two shapes start with the same character only where neither is quoted. -/
theorem Shape.eq_of_starts_quoted {shape other : Shape} {c : Char} (hquoted : other ∈ [text, character])
    (h : other.starts c = true) (hc : shape.starts c = true) : shape = other := by
  simp only [List.mem_cons, List.not_mem_nil, or_false] at hquoted
  rcases hquoted with rfl | rfl
  · obtain rfl : c = '"' := of_decide_eq_true h
    cases shape with
    | text => rfl
    | _ => cases hc
  · obtain rfl : c = '\'' := of_decide_eq_true h
    cases shape with
    | character => rfl
    | _ => cases hc

/-- The first lexeme of a text that does not start with white space stays the first with a newline and any text
behind. -/
theorem next?_append_line {start : Nat} {c : Char} {rest : List Char} {lexeme : Lexeme}
    (hc : Text.isBlank c = false) (h : next? start (c :: cs) = some (lexeme, rest)) (ds : List Char) :
    next? start (c :: cs ++ '\n' :: ds) = some (lexeme, rest ++ '\n' :: ds) := by
  obtain ⟨before, after, hall, hbefore, hextent, rfl⟩ := exists_first_of_next? h
  have hstarts := Shape.starts_of_extent? hextent
  have hblank : lexeme.shape ≠ .blank := by
    intro hshape
    rw [hshape, Shape.starts, hc] at hstarts
    cases hstarts
  have hsplit : c :: cs ++ '\n' :: ds = lexeme.text ++ (rest ++ '\n' :: ds) := by
    rw [← next?_append h, List.append_assoc]
  have hextent' := Shape.extent?_append_of_some hblank hextent ds
  have hbefore' : ∀ other ∈ before, other.extent? (c :: cs ++ '\n' :: ds) = none := by
    intro other hother
    by_cases hother' : other ∈ [.blank, .text, .character]
    -- where white space or a quoted shape starts here, the lexeme is of that shape, and it does fit
    · refine Shape.extent?_eq_none (Bool.eq_false_iff.2 fun hfits => ?_) _
      have heq : lexeme.shape = other := by
        obtain rfl | hquoted := List.mem_cons.1 hother'
        · simp [Shape.starts, hc] at hfits
        · exact Shape.eq_of_starts_quoted hquoted hfits hstarts
      rw [heq, hbefore other hother] at hextent
      cases hextent
    · rw [Shape.extent?_append_line hother', hbefore other hother]
  rw [hsplit] at hextent' hbefore' ⊢
  exact next?_of_first before after hall hbefore' hextent'

end Lexeme

/-! ### White space between the sources -/

section

variable {file : String} {start : Nat} {cs : List Char}

/-- White space in front of a text moves its tokens. Where the text starts with white space itself, the two runs
of white space end at the same place. -/
theorem tokensAt_blank {c : Char} (hc : Text.isBlank c = true) (cs : List Char) :
    tokensAt file start (c :: cs) = tokensAt file (start + c.utf8Size) cs := by
  have hskip {lexeme : Lexeme} {cs rest : List Char} {start : Nat} (hshape : lexeme.shape = .blank)
      (hnext : next? start cs = some (lexeme, rest)) :
      tokensAt file start cs = tokensAt file lexeme.stop rest := by
    have htoken : lexeme.token? file = none := by simp [Lexeme.token?, Lexeme.kind?, hshape]
    rw [tokensAt_of_next?_eq_some hnext, htoken]
    exact map_nil_append _
  rw [hskip rfl (Lexeme.next?_blank hc cs)]
  cases cs with
  | nil => rfl
  | cons d cs =>
    by_cases hd : Text.isBlank d = true
    · rw [hskip rfl (Lexeme.next?_blank hd cs), List.takeWhile_cons_of_pos hd, List.dropWhile_cons_of_pos hd]
      simp only [Lexeme.stop, Text.byteLength_cons, Nat.add_assoc]
    · rw [List.takeWhile_cons_of_neg hd, List.dropWhile_cons_of_neg hd]
      rfl

/-- A list of tokens is never empty, since the end token is always there. -/
theorem ne_nil_of_tokensAt {tokens : List Token} (h : tokensAt file start cs = .ok tokens) : tokens ≠ [] := by
  unfold tokensAt Token.ofSegmentation at h
  split at h
  · obtain rfl := Except.ok.inj h
    simp
  · cases h

/-- A text keeps its tokens, all but the end token, in front of a newline and any other text, and what follows
them is what the other text gives behind the newline. The induction is on the first text: white space at its
front is skipped on both sides, and any other lexeme is the same on both sides. -/
theorem tokensAt_append_line {tokens : List Token} (h : tokensAt file start cs = .ok tokens) (ds : List Char) :
    tokensAt file start (cs ++ '\n' :: ds) =
      (tokensAt file (start + byteLength cs + 1) ds).map (tokens.dropLast ++ ·) := by
  induction hn : cs.length using Nat.strongRecOn generalizing start cs tokens with
  | ind n ih =>
    cases cs with
    | nil =>
      rw [tokensAt_nil] at h
      obtain rfl := Except.ok.inj h
      rw [List.nil_append, tokensAt_blank (by decide)]
      exact (map_nil_append _).symm
    | cons c cs =>
      by_cases hc : Text.isBlank c = true
      · rw [tokensAt_blank hc] at h
        rw [List.cons_append, tokensAt_blank hc, ih cs.length (by simp [← hn]) h rfl, Text.byteLength_cons,
          ← Nat.add_assoc start]
      · cases hnext : next? start (c :: cs) with
        | none =>
          rw [tokensAt_of_next?_eq_none hnext] at h
          cases h
        | some cut =>
          obtain ⟨lexeme, rest⟩ := cut
          have hstop : lexeme.stop + byteLength rest = start + byteLength (c :: cs) := by
            rw [Lexeme.stop_of_next? hnext, ← Lexeme.next?_append hnext, Text.byteLength_append, Nat.add_assoc]
          have hnext' := Lexeme.next?_append_line (Bool.eq_false_iff.2 hc) hnext ds
          rw [tokensAt_of_next?_eq_some hnext] at h
          rw [tokensAt_of_next?_eq_some hnext', ← hstop]
          cases hmore : tokensAt file lexeme.stop rest with
          | error diagnostic =>
            rw [hmore] at h
            cases h
          | ok more =>
            rw [hmore] at h
            obtain rfl := Except.ok.inj h
            rw [ih rest.length (hn ▸ Lexeme.next?_length hnext) hmore rfl, map_append_map_append,
              List.dropLast_append_of_ne_nil (ne_nil_of_tokensAt hmore)]

end

/-! ### Texts further back -/

/-- The place `k` bytes on. -/
def Position.raise (k : Nat) (position : Position) : Position :=
  { position with offset := position.offset + UInt32.ofNat k }

/-- The place behind some bytes, moved by `k`, is the place behind `k` more of them, also where offsets wrap
around. -/
theorem Position.raise_ofBytes (k : Nat) (file : String) (bytes : Nat) :
    (ofBytes file bytes).raise k = ofBytes file (bytes + k) := by
  simp [raise, ofBytes]

/-- Where the offset stays below the word size, it is `k` larger. -/
theorem Position.toNat_offset_raise {k : Nat} {position : Position}
    (h : position.offset.toNat + k < UInt32.size) :
    (position.raise k).offset.toNat = position.offset.toNat + k := by
  have hk : (UInt32.ofNat k).toNat = k := UInt32.toNat_ofNat_of_lt' (by omega)
  rw [raise, UInt32.toNat_add, hk]
  exact Nat.mod_eq_of_lt h

/-- The stretch `k` bytes on. -/
def Span.raise (k : Nat) (span : Span) : Span :=
  ⟨span.start.raise k, span.stop.raise k⟩

/-- The token with its span `k` bytes on. -/
def Token.raise (k : Nat) (token : Token) : Token :=
  { token with span := token.span.raise k }

/-- The same complaint `k` bytes on. -/
def Diagnostic.raise (k : Nat) (diagnostic : Diagnostic) : Diagnostic :=
  { diagnostic with position := diagnostic.position.raise k }

/-- A stretch that is moved covers as many bytes, `k` bytes on. -/
theorem Span.raise_covering (k : Nat) (file : String) (start length : Nat) :
    (covering file start length).raise k = covering file (start + k) length := by
  simp only [raise, covering, Position.raise_ofBytes, Nat.add_right_comm]

namespace Lexeme

/-- The lexeme `k` bytes on. -/
def raise (k : Nat) (lexeme : Lexeme) : Lexeme :=
  { lexeme with start := lexeme.start + k }

/-- A lexeme that is moved ends `k` bytes later than before. -/
theorem stop_raise (k : Nat) (lexeme : Lexeme) : (lexeme.raise k).stop = lexeme.stop + k := by
  simp only [stop, raise, Nat.add_right_comm]

/-- The token of a lexeme that is moved is its token, moved. Where there is none, there still is none. -/
theorem token?_raise (k : Nat) (file : String) (lexeme : Lexeme) :
    (lexeme.raise k).token? file = (lexeme.token? file).map (Token.raise k) := by
  have hraised : (lexeme.raise k).token? file = lexeme.kind?.map fun kind =>
      ⟨kind, lexeme.value, .covering file (lexeme.start + k) (byteLength lexeme.text)⟩ := rfl
  rw [hraised, token?, Option.map_map]
  congr 1
  funext kind
  simp only [Function.comp_apply, Token.raise, Span.raise_covering]

/-- Which lexeme is first does not depend on where the text stands. -/
theorem next?_raise (k start : Nat) (cs : List Char) :
    next? (start + k) cs = (next? start cs).map fun cut => (cut.1.raise k, cut.2) := by
  rw [next?, next?, List.map_findSome?]
  congr 1
  funext shape
  simp [raise, Function.comp_def]

end Lexeme

/-- The tokens of a text further back are its tokens, each as much further back, and so is the complaint about
it. -/
theorem tokensAt_raise (k : Nat) (file : String) (start : Nat) (cs : List Char) :
    tokensAt file (start + k) cs =
      ((tokensAt file start cs).map (·.map (Token.raise k))).mapError (Diagnostic.raise k) := by
  induction hn : cs.length using Nat.strongRecOn generalizing start cs with
  | ind n ih =>
    have hraise := Lexeme.next?_raise k start cs
    cases hnext : next? start cs with
    | none =>
      rw [hnext, Option.map_none] at hraise
      cases cs with
      | nil =>
        rw [tokensAt_nil, tokensAt_nil, ← Span.raise_covering]
        rfl
      | cons c cs =>
        rw [tokensAt_of_next?_eq_none hnext, tokensAt_of_next?_eq_none hraise, ← Position.raise_ofBytes]
        rfl
    | some cut =>
      obtain ⟨lexeme, rest⟩ := cut
      rw [hnext, Option.map_some] at hraise
      rw [tokensAt_of_next?_eq_some hnext, tokensAt_of_next?_eq_some hraise, Lexeme.stop_raise,
        ih rest.length (hn ▸ Lexeme.next?_length hnext) lexeme.stop rest rfl, Lexeme.token?_raise]
      cases tokensAt file lexeme.stop rest <;> cases lexeme.token? file <;> rfl

/-! ### Two sources -/

namespace Tiling

/-- No token ends behind the text, so that no offset in it is greater than the length of the source. -/
theorem stop_le_end {file : String} {start : Nat} {text : List Char} {tokens : List Token} {token : Token}
    (h : Tiling file start text tokens) (hmem : token ∈ tokens) : token.stop ≤ start + byteLength text := by
  induction h with
  | @ending start gap last hgap hkind hvalue hcovers =>
    obtain rfl := List.mem_singleton.1 hmem
    exact Nat.le_of_eq hcovers.stop_eq
  | @token start gap slice rest first tokens hgap hslice hkind hvalue hcovers more ih =>
    simp only [Text.byteLength_append]
    obtain rfl | hmem := List.mem_cons.1 hmem
    · have := hcovers.stop_eq
      omega
    · have := ih hmem
      omega

end Tiling

/-- Two sources with a newline between them. Where the first can be cut into tokens, the two together have its
tokens without the end token and those of the second, all of them further back by the first source and the newline;
where the second cannot be cut into tokens, the two together cannot for the same reason, as much further back. -/
theorem tokenize_append_line {front back file : String} {tokens : List Token}
    (hsize : front.utf8ByteSize + 1 + back.utf8ByteSize < UInt32.size) (h : tokenize front file = .ok tokens) :
    let k := front.utf8ByteSize + 1
    (∃ last, tokens = tokens.dropLast ++ [last] ∧ last.kind = .endOfInput) ∧
    (∀ more, tokenize back file = .ok more →
      tokenize (front ++ "\n" ++ back) file = .ok (tokens.dropLast ++ more.map (Token.raise k)) ∧
      ∀ token ∈ more, (token.raise k).start = token.start + k ∧ (token.raise k).stop = token.stop + k) ∧
    ∀ diagnostic, tokenize back file = .error diagnostic →
      tokenize (front ++ "\n" ++ back) file = .error (diagnostic.raise k) ∧
      (diagnostic.raise k).cause = diagnostic.cause ∧
      (diagnostic.raise k).position.offset.toNat = diagnostic.position.offset.toNat + k := by
  intro k
  have hjoin : tokenize (front ++ "\n" ++ back) file =
      (((tokenize back file).map (·.map (Token.raise k))).mapError (Diagnostic.raise k)).map
        (tokens.dropLast ++ ·) := by
    have htext : (front ++ "\n" ++ back).toList = front.toList ++ '\n' :: back.toList := by
      simp
    have hfront : tokensAt file 0 front.toList = .ok tokens := h
    show tokensAt file 0 (front ++ "\n" ++ back).toList = _
    rw [htext, tokensAt_append_line hfront, Text.byteLength_toList, Nat.add_assoc, tokensAt_raise]
    rfl
  refine ⟨?_, fun more hmore => ⟨?_, fun token hmem => ?_⟩, fun diagnostic herror => ⟨?_, rfl, ?_⟩⟩
  · obtain ⟨body, last, rfl, -, hlast, -, -, -⟩ := (tiling_of_tokenize (by omega) h).ending_eq
    exact ⟨last, by simp, hlast⟩
  · rw [hjoin, hmore]
    rfl
  · have htiling := tiling_of_tokenize (by omega) hmore
    have hstart := htiling.start_le_end hmem
    have hstop := htiling.stop_le_end hmem
    rw [Nat.zero_add, Text.byteLength_toList] at hstart hstop
    exact ⟨Position.toNat_offset_raise (by unfold Token.start at hstart; omega),
      Position.toNat_offset_raise (by unfold Token.stop at hstop; omega)⟩
  · rw [hjoin, herror]
    rfl
  · have hle := offset_le_of_tokenize (by omega) herror
    exact Position.toNat_offset_raise (by omega)

/-- The newline ends a comment, and it keeps two equals signs apart that would be a comparison without it. A
character that no lexeme starts with is found behind it as well. -/
theorem tokenize_append_line_sample :
    let front := "a =// é\n="
    let tokens : List Token :=
      [⟨.identifier, "a", .covering "shell" 0 1⟩, ⟨.assignment, "=", .covering "shell" 2 1⟩,
       ⟨.assignment, "=", .covering "shell" 9 1⟩, .ending (.covering "shell" 10 0)]
    let more : List Token := [⟨.assignment, "=", .covering "shell" 0 1⟩, .ending (.covering "shell" 1 0)]
    let fault : Diagnostic := ⟨.unrecognised "@", .ofBytes "shell" 0⟩
    front.utf8ByteSize + 1 + "=".utf8ByteSize < UInt32.size ∧ tokenize front defaultFile = .ok tokens ∧
      tokenize "=" defaultFile = .ok more ∧ tokenize "@" defaultFile = .error fault ∧
      tokenize (front ++ "\n" ++ "=") defaultFile = .ok (tokens.dropLast ++ more.map (Token.raise 11)) ∧
      tokenize (front ++ "\n" ++ "@") defaultFile = .error (fault.raise 11) := by
  intro front tokens more fault
  have hsize : front.utf8ByteSize + 1 + "=".utf8ByteSize < UInt32.size := by decide
  have hok : tokenize front defaultFile = .ok tokens := by decide +kernel
  have hmore : tokenize "=" defaultFile = .ok more := by decide +kernel
  have hfault : tokenize "@" defaultFile = .error fault := by decide +kernel
  have hbytes : front.utf8ByteSize + 1 = 11 := by decide
  have hjoin := tokenize_append_line hsize hok
  have hsize' : front.utf8ByteSize + 1 + "@".utf8ByteSize < UInt32.size := by decide
  have hjoin' := tokenize_append_line hsize' hok
  rw [hbytes] at hjoin hjoin'
  exact ⟨hsize, hok, hmore, hfault, (hjoin.2.1 more hmore).1, (hjoin'.2.2 fault hfault).1⟩

end BraceLang
