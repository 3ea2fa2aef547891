import BraceLang.Proofs.Tiling
import BraceLang.Reader

/-!
# Scanning with a reader

A source is cut into tokens by a reader that goes over it once. Most of what the reader does may fail: it has
nothing to read past the end of the source or inside a character, its offset has to fit into a word, and the
quotes are cut off a literal at byte offsets, which have to lie between characters as well. `Reader.scan?` is one
step of the reader with all of these failures in it, and `Scans` is a run that meets none of them and ends.

On a source whose offsets fit into a word the reader never fails: it stands between characters before every step,
and what is in front of it is what is left of the source. So its run ends, and it ends with the tokens of the
source, or with the complaint about it (`scans_iff`).
-/

set_option autoImplicit false

namespace BraceLang

open Text (byteLength isBoundary slice)
open Lexeme (next? segment)

/-! ### Cutting quotes off -/

namespace Lexeme

/-- The characters between the first and the last byte of a text, if both bytes are characters of their own. -/
def inside? (text : List Char) : Option (List Char) :=
  let stop := byteLength text - 1
  if 1 ≤ stop ∧ isBoundary text 1 = true ∧ isBoundary text stop = true then some (slice text 1 stop)
  else none

/-- The value of a lexeme, with the quotes of a literal cut off at byte offsets. -/
def value? (lexeme : Lexeme) : Option String :=
  match lexeme.shape with
  | .text | .character => (inside? lexeme.text).map fun raw => String.ofList (unescape raw)
  | _ => some (String.ofList lexeme.text)

/-- Between quotes of one byte each stands all but the quotes. -/
theorem inside?_quoted {q : Char} (hq : q.utf8Size = 1) (raw : List Char) :
    inside? (q :: (raw ++ [q])) = some raw := by
  have hstop : byteLength (q :: (raw ++ [q])) - 1 = 1 + byteLength raw := by
    simp only [Text.byteLength_append, Text.byteLength_cons, Text.byteLength_nil, hq]
    omega
  have hfirst := Text.isBoundary_append [q] (raw ++ [q])
  have hlast := Text.isBoundary_append (q :: raw) [q]
  have hslice := Text.slice_append [q] raw [q]
  simp only [Text.byteLength_cons, Text.byteLength_nil, hq, Nat.add_zero] at hfirst hlast hslice
  rw [inside?, hstop, if_pos ⟨Nat.le_add_right 1 _, hfirst, hlast⟩]
  exact congrArg some hslice

/-- What closes a literal is its quote, and before that stands whatever was counted. -/
theorem closing?_eq_some {q : Char} {k n : Nat} {cs : List Char} (h : closing? q k cs = some n) :
    ∃ raw, cs.take (n - k) = raw ++ [q] := by
  fun_induction closing? q k cs with
  | case1 k => cases h
  | case2 k =>
    obtain rfl := Option.some.inj h
    exact ⟨[], by simp⟩
  | case3 k c hc => cases h
  | case4 k d cs =>
    obtain rfl := Option.some.inj h
    exact ⟨[], by simp⟩
  | case5 k cs hc => cases h
  | case6 k d cs hc hd ih =>
    obtain ⟨raw, hraw⟩ := ih h
    have hlt := closing?_bounds h
    refine ⟨'\\' :: d :: raw, ?_⟩
    rw [show n - k = n - (k + 2) + 1 + 1 by omega, List.take_succ_cons, List.take_succ_cons, hraw]
    rfl
  | case7 k c d cs hc hslash ih =>
    obtain ⟨raw, hraw⟩ := ih h
    have hlt := closing?_bounds h
    refine ⟨c :: raw, ?_⟩
    rw [show n - k = n - (k + 1) + 1 by omega, List.take_succ_cons, hraw]
    rfl

/-- A literal between double quotes is what stands between two of them. -/
theorem text?_eq_some {cs : List Char} {n : Nat} (h : text? cs = some n) :
    ∃ raw, cs.take n = '"' :: (raw ++ ['"']) := by
  match cs, h with
  | c :: cs, h =>
    simp only [text?] at h
    split at h
    · rename_i hc
      obtain ⟨raw, hraw⟩ := closing?_eq_some h
      have hlt := closing?_bounds h
      refine ⟨raw, ?_⟩
      rw [show n = n - 1 + 1 by omega, List.take_succ_cons, hraw, hc]
    · cases h

/-- A literal between single quotes is what stands between two of them. -/
theorem character?_eq_some {cs : List Char} {n : Nat} (h : character? cs = some n) :
    ∃ raw, cs.take n = '\'' :: (raw ++ ['\'']) := by
  match cs, h with
  | c :: cs, h =>
    simp only [character?] at h
    split at h
    · rename_i hc
      cases hunit : unit? '\'' cs with
      | none => simp [hunit] at h
      | some m =>
        simp only [hunit] at h
        split at h
        · rename_i hlast
          obtain rfl := Option.some.inj h
          exact ⟨cs.take m, by rw [List.take_succ_cons, List.take_add_one, hlast, hc]; rfl⟩
        · cases h
    · cases h

/-- The quotes of a literal can always be cut off, and what is left is what stands between them. -/
theorem value?_of_next? {start : Nat} {cs rest : List Char} {lexeme : Lexeme}
    (h : next? start cs = some (lexeme, rest)) : lexeme.value? = some lexeme.value := by
  obtain ⟨n, hextent, -, htext, -⟩ := next?_eq_some h
  cases hshape : lexeme.shape with
  | text =>
    rw [hshape] at hextent
    obtain ⟨raw, hraw⟩ := text?_eq_some hextent
    simp [value?, value, hshape, htext, hraw, inside?_quoted (show '"'.utf8Size = 1 from rfl) raw]
  | character =>
    rw [hshape] at hextent
    obtain ⟨raw, hraw⟩ := character?_eq_some hextent
    simp [value?, value, hshape, htext, hraw, inside?_quoted (show '\''.utf8Size = 1 from rfl) raw]
  | _ => simp [value?, value, hshape]

end Lexeme

/-! ### The tokens of a part of a source -/

/-- The tokens of a text that stands at offset `start` of `file`, or the complaint about it. -/
def tokensAt (file : String) (start : Nat) (cs : List Char) : Except Diagnostic (List Token) :=
  Token.ofSegmentation file (segment start cs)

/-- No tokens in front of the others change nothing about a result, whether there are tokens or a
complaint. -/
theorem map_nil_append (result : Except Diagnostic (List Token)) : result.map ([] ++ ·) = result := by
  cases result <;> rfl

/-- Tokens are put in front of others one list after the other. -/
theorem map_append_map_append (first second : List Token) (result : Except Diagnostic (List Token)) :
    (result.map (second ++ ·)).map (first ++ ·) = result.map (first ++ second ++ ·) := by
  cases result <;> simp [Except.map]

section

variable {file : String} {start : Nat} {cs rest : List Char}

/-- At the end of the source there is nothing but the end token, which covers no bytes. -/
theorem tokensAt_nil (file : String) (start : Nat) :
    tokensAt file start [] = .ok [.ending (.covering file start 0)] := by
  rw [tokensAt, Lexeme.segment_of_next?_eq_none (Lexeme.next?_nil start)]
  rfl

/-- A text that no lexeme starts is complained about, with its first character and where it stands. -/
theorem tokensAt_of_next?_eq_none {c : Char} (h : next? start (c :: cs) = none) :
    tokensAt file start (c :: cs) = .error ⟨.unrecognised (String.singleton c), .ofBytes file start⟩ := by
  rw [tokensAt, Lexeme.segment_of_next?_eq_none h]
  rfl

/-- The tokens of a text are the token that its first lexeme is, if it is one, and those of what follows. -/
theorem tokensAt_of_next?_eq_some {lexeme : Lexeme} (h : next? start cs = some (lexeme, rest)) :
    tokensAt file start cs = (tokensAt file lexeme.stop rest).map ((lexeme.token? file).toList ++ ·) := by
  rw [tokensAt, tokensAt, Lexeme.segment_of_next?_eq_some h]
  cases hrest : (segment lexeme.stop rest).rest with
  | nil => cases htoken : lexeme.token? file <;> simp [Token.ofSegmentation, hrest, htoken, Except.map]
  | cons c cs => simp [Token.ofSegmentation, hrest, Except.map]

end

/-! ### One step of the reader -/

namespace Reader

/-- The token that a lexeme in front of the reader is. There is none for white space and comments. -/
def tokens? (reader : Reader) (lexeme : Lexeme) : Option (List Token) :=
  match lexeme.kind? with
  | none => some []
  | some kind => do
    let value ← lexeme.value?
    let span ← reader.span? (byteLength lexeme.text)
    return [⟨kind, value, span⟩]

/-- What a step comes to: another step with the tokens so far, or the result of the run. -/
inductive Step where
  /-- The reader has moved on and found more tokens. -/
  | more (reader : Reader) (tokens : List Token)
  /-- The source has been read, or there is something in it that cannot be. -/
  | done (result : Except Diagnostic (List Token))

/-- One step, after the given tokens have been found: a lexeme is read, or the end, or nothing can be read. -/
def scan? (reader : Reader) (found : List Token) : Option Step :=
  if reader.atEnd then do
    let span ← reader.span? 0
    return .done (.ok (found ++ [.ending span]))
  else do
    let cs ← reader.remainder?
    match next? reader.offset cs with
    | none =>
      let c ← reader.char?
      return .done (.error ⟨.unrecognised (String.ofList c), reader.position⟩)
    | some (lexeme, _) =>
      let tokens ← reader.tokens? lexeme
      let after ← reader.advance? (byteLength lexeme.text)
      return .more after (found ++ tokens)

/-- A run of the reader that never fails and comes to a result. -/
inductive Scans : Reader → List Token → Except Diagnostic (List Token) → Prop
  | done {reader : Reader} {found : List Token} {result : Except Diagnostic (List Token)}
      (h : reader.scan? found = some (.done result)) : Scans reader found result
  | more {reader after : Reader} {found tokens : List Token} {result : Except Diagnostic (List Token)}
      (h : reader.scan? found = some (.more after tokens)) (rest : Scans after tokens result) :
      Scans reader found result

/-- A run comes to one result only, since every step is determined by the one before it. -/
theorem Scans.unique {reader : Reader} {found : List Token} {result result' : Except Diagnostic (List Token)}
    (h : Scans reader found result) (h' : Scans reader found result') : result = result' := by
  induction h with
  | done h => cases h' <;> simp_all
  | more h rest ih =>
    cases h' with
    | done h' => simp_all
    | more h' rest' =>
      rw [h] at h'
      obtain ⟨rfl, rfl⟩ := Step.more.inj (Option.some.inj h')
      exact ih rest'

/-! ### The reader between characters -/

/-- What is in front of the reader and what it has read are the whole source. -/
structure Between (reader : Reader) (rest : List Char) : Prop where
  size : reader.source.utf8ByteSize < UInt64.size
  split : ∃ front, reader.source.toList = front ++ rest ∧ reader.offset = byteLength front

namespace Between

variable {reader : Reader} {rest : List Char}

/-- What the reader has behind it and what it has in front of it are the bytes of the source. -/
theorem offset_add (h : reader.Between rest) :
    reader.offset + byteLength rest = reader.source.utf8ByteSize := by
  obtain ⟨front, hsource, hoffset⟩ := h.split
  rw [hoffset, ← Text.byteLength_append, ← hsource, Text.byteLength_toList]

/-- The reader is at the end of its source exactly if nothing is left in front of it. -/
theorem atEnd_iff (h : reader.Between rest) : reader.atEnd = true ↔ rest = [] := by
  have hadd := h.offset_add
  rw [atEnd, decide_eq_true_iff]
  constructor
  · intro hle
    by_contra hne
    have := Text.byteLength_pos hne
    omega
  · rintro rfl
    rw [Text.byteLength_nil] at hadd
    omega

/-- A reader that stands between characters has something to read, and that is the rest of the source. -/
theorem remainder?_eq (h : reader.Between rest) : reader.remainder? = some rest := by
  obtain ⟨front, hsource, hoffset⟩ := h.split
  rw [remainder?, hsource, hoffset]
  exact Text.dropBytes?_append front rest

/-- The offset behind a piece of what is left fits into a word. -/
theorem offsetAfter?_eq (h : reader.Between rest) {n : Nat} (hn : n ≤ byteLength rest) :
    reader.offsetAfter? n = some (reader.offset + n) := by
  have hadd := h.offset_add
  have hsize := h.size
  rw [offsetAfter?, if_pos (by omega)]

/-- A reader that stands between characters can span any bytes that are left, because offsets do not
overflow there. -/
theorem span?_eq (h : reader.Between rest) {n : Nat} (hn : n ≤ byteLength rest) :
    reader.span? n = some (.covering reader.file reader.offset n) := by
  rw [span?, h.offsetAfter?_eq hn]
  rfl

/-- Behind a piece of what is left the reader is between characters again. -/
theorem advance?_eq {piece : List Char} (h : reader.Between (piece ++ rest)) :
    ∃ after, reader.advance? (byteLength piece) = some after ∧ after.Between rest ∧
      after.file = reader.file ∧ after.offset = reader.offset + byteLength piece := by
  have hle : byteLength piece ≤ byteLength (piece ++ rest) := by simp
  refine ⟨{ reader with offset := reader.offset + byteLength piece }, ?_, ⟨h.size, ?_⟩, rfl, rfl⟩
  · rw [advance?, h.offsetAfter?_eq hle]
    rfl
  · obtain ⟨front, hsource, hoffset⟩ := h.split
    exact ⟨front ++ piece, by rw [hsource, List.append_assoc], by simp [hoffset]⟩

end Between

/-- A reader at the start of a source is between characters. -/
theorem between_ofSource {source file : String} (hsize : source.utf8ByteSize < UInt64.size) :
    (ofSource source file).Between source.toList :=
  ⟨hsize, [], rfl, rfl⟩

variable {reader : Reader} {rest : List Char}

/-- A lexeme in front of the reader gives the token that it is. -/
theorem tokens?_eq {after : List Char} {lexeme : Lexeme} (h : reader.Between rest)
    (hnext : next? reader.offset rest = some (lexeme, after)) :
    reader.tokens? lexeme = some (lexeme.token? reader.file).toList := by
  obtain ⟨-, -, hstart, -, -⟩ := Lexeme.next?_eq_some hnext
  have hle : byteLength lexeme.text ≤ byteLength rest := by simp [← Lexeme.next?_append hnext]
  cases hkind : lexeme.kind? with
  | none => simp [tokens?, Lexeme.token?, hkind]
  | some kind =>
    simp [tokens?, Lexeme.token?, hkind, Lexeme.value?_of_next? hnext, h.span?_eq hle, hstart]

/-- At the end of the source the step ends the run, with the tokens so far and the end token. -/
theorem scan?_nil (h : reader.Between []) (found : List Token) :
    reader.scan? found = some (.done (.ok (found ++ [.ending (.covering reader.file reader.offset 0)]))) := by
  rw [scan?, if_pos (h.atEnd_iff.2 rfl), h.span?_eq (Nat.zero_le _)]
  rfl

/-- Where nothing can be read, the step ends the run with a complaint about the first character. -/
theorem scan?_of_next?_eq_none {c : Char} {cs : List Char} (h : reader.Between (c :: cs))
    (hnext : next? reader.offset (c :: cs) = none) (found : List Token) :
    reader.scan? found = some (.done (.error ⟨.unrecognised (String.singleton c), reader.position⟩)) := by
  have hend : ¬ reader.atEnd = true := by simp [h.atEnd_iff]
  rw [scan?, if_neg hend]
  simp [char?, h.remainder?_eq, hnext]

/-- A step over a lexeme goes on behind it, between characters again, with its token added if it has one. -/
theorem scan?_of_next?_eq_some {after : List Char} {lexeme : Lexeme} (h : reader.Between rest)
    (hnext : next? reader.offset rest = some (lexeme, after)) (found : List Token) :
    ∃ next, reader.scan? found = some (.more next (found ++ (lexeme.token? reader.file).toList)) ∧
      next.Between after ∧ next.file = reader.file ∧ next.offset = lexeme.stop := by
  have hrest := Lexeme.next?_append hnext
  have hend : ¬ reader.atEnd = true := by
    obtain ⟨c, text, htext, -⟩ := Lexeme.exists_cons_of_next? hnext
    simp [h.atEnd_iff, ← hrest, htext]
  have htokens := tokens?_eq h hnext
  have hread := h.remainder?_eq
  rw [← hrest] at h
  obtain ⟨next, hadvance, hbetween, hfile, hoffset⟩ := h.advance?_eq
  refine ⟨next, ?_, hbetween, hfile, by rw [hoffset, Lexeme.stop_of_next? hnext]⟩
  rw [scan?, if_neg hend]
  simp [hread, hnext, htokens, hadvance]

/-! ### Whole runs -/

/-- The run from a place between characters finds the tokens of what is left. The induction is on what is left,
which each step makes shorter. -/
theorem scans_tokensAt (h : reader.Between rest) (found : List Token) :
    Scans reader found ((tokensAt reader.file reader.offset rest).map (found ++ ·)) := by
  induction hn : rest.length using Nat.strongRecOn generalizing reader rest found with
  | ind n ih =>
    cases hnext : next? reader.offset rest with
    | none =>
      cases rest with
      | nil =>
        rw [tokensAt_nil]
        exact .done (scan?_nil h found)
      | cons c cs =>
        rw [tokensAt_of_next?_eq_none hnext]
        exact .done (scan?_of_next?_eq_none h hnext found)
    | some cut =>
      obtain ⟨lexeme, after⟩ := cut
      obtain ⟨next, hstep, hbetween, hfile, hoffset⟩ := scan?_of_next?_eq_some h hnext found
      have hmore := ih after.length (hn ▸ Lexeme.next?_length hnext) hbetween
        (found ++ (lexeme.token? reader.file).toList) rfl
      rw [hfile, hoffset] at hmore
      rw [tokensAt_of_next?_eq_some hnext, map_append_map_append]
      exact .more hstep hmore

/-- The reader never fails on a source whose offsets fit into a word, and what it comes to are the tokens of the
source or the complaint about it. -/
theorem scans_iff {source file : String} (hsize : source.utf8ByteSize < UInt64.size)
    {result : Except Diagnostic (List Token)} :
    Scans (ofSource source file) [] result ↔ result = tokenize source file := by
  have hrun : Scans (ofSource source file) [] ((tokenize source file).map ([] ++ ·)) :=
    scans_tokensAt (between_ofSource hsize) []
  rw [map_nil_append] at hrun
  constructor
  · intro h
    exact h.unique hrun
  · rintro rfl
    exact hrun

end Reader

end BraceLang
