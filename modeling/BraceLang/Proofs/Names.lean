import BraceLang.Proofs.Account
import BraceLang.Proofs.Tiling
import Mathlib.Data.List.Nodup

/-!
# Names and literals are read once or reported

However malformed a source is, reading it loses no identifier and no literal without a word, and makes up
none: those that the tree holds, in the order of the source, are those of the tokens that no diagnostic is
about, in the order of the tokens (`names_parse`). Empty texts are left out on both sides, since the tree
has one wherever a name is missing.

`Retains` is the invariant: the names read so far are those of the unreported tokens behind the cursor, and
no name ahead has been reported. An event that reports a name leaves it behind, and one that reports and
stays put is about a token that is no name (`Event.retains`). A diagnostic is about one token only if all
tokens start at different places, which the tokens of a source do.
-/

set_option autoImplicit false

namespace BraceLang

/-! ### Names in trees and names among tokens -/

/-- The name or literal that a part of a tree is, with the kind of its token. -/
def Part.word? : Part → Option Word
  | name text | operand (.identifier text) => some ⟨.identifier, text⟩
  | path text | operand (.literal text) => some ⟨.literal, text⟩
  | _ => none

/-- The names and literals that a program holds, in the order of the source. -/
def Program.names (items : Program) : List Word :=
  (Program.parts items).filterMap Part.word?

/-- The words whose texts are not empty. A tree has an empty one wherever a name is missing, so these are
left out on both sides. -/
def Word.visible (words : List Word) : List Word :=
  words.filter fun word => word.value ≠ ""

/-- The visible words of two rows are those of the one and then those of the other. -/
@[simp]
theorem Word.visible_append (words others : List Word) :
    visible (words ++ others) = visible words ++ visible others :=
  List.filter_append words others

namespace Token

/-- Whether a token is an identifier or a literal. -/
def isName (token : Token) : Bool :=
  token.kind ∈ [Kind.identifier, .literal]

/-- Whether a diagnostic is about the place where a token starts. -/
def isReported (diagnostics : List Diagnostic) (token : Token) : Bool :=
  diagnostics.any fun diagnostic => diagnostic.position.offset = token.span.start.offset

/-- The names and literals among tokens that no diagnostic is about. -/
def unreported (diagnostics : List Diagnostic) (tokens : List Token) : List Word :=
  (tokens.filter fun token => token.isName && !token.isReported diagnostics).map word

/-- Whether all tokens start at different places. -/
def Distinct (tokens : List Token) : Prop :=
  (tokens.map fun token => token.span.start.offset).Nodup

variable {tokens front rest : List Token} {token : Token} {diagnostics : List Diagnostic}
  {diagnostic : Diagnostic}

/-- Whether a token is a name or a literal is told by its kind. -/
theorem isName_of_kind {kind : Kind} (h : token.kind = kind) :
    token.isName = decide (kind ∈ [Kind.identifier, .literal]) := by
  rw [isName, h]

/-- The unreported names of two rows of tokens are those of the one and then those of the other. -/
@[simp]
theorem unreported_append :
    unreported diagnostics (front ++ rest) =
      unreported diagnostics front ++ unreported diagnostics rest := by
  simp [unreported]

/-- A token that is no name adds nothing to the names, reported or not. -/
theorem unreported_of_not_name (h : token.isName = false) : unreported diagnostics [token] = [] := by
  simp [unreported, h]

/-- A token that a diagnostic is about adds nothing to the names that are left. -/
theorem unreported_of_reported (h : token.isReported diagnostics = true) :
    unreported diagnostics [token] = [] := by
  simp [unreported, h]

/-- A name that no diagnostic is about is one of the names that are left. -/
theorem unreported_of_name (hname : token.isName = true) (h : token.isReported diagnostics = false) :
    unreported diagnostics [token] = [token.word] := by
  simp [unreported, hname, h]

/-- Tokens without a name among them leave no names. -/
theorem unreported_eq_nil (h : ∀ token ∈ tokens, token.isName = false) :
    unreported diagnostics tokens = [] := by
  simp only [unreported, List.map_eq_nil_iff, List.filter_eq_nil_iff]
  intro token hmem
  simp [h token hmem]

/-- One more diagnostic is about the token that starts where it is, and about no other. -/
theorem isReported_snoc :
    token.isReported (diagnostics ++ [diagnostic]) =
      (token.isReported diagnostics ||
        decide (diagnostic.position.offset = token.span.start.offset)) := by
  simp [isReported]

/-- A diagnostic at a place where no name starts leaves all the names as they are. -/
theorem unreported_snoc (h : ∀ token ∈ tokens, token.isName = true →
    diagnostic.position.offset ≠ token.span.start.offset) :
    unreported (diagnostics ++ [diagnostic]) tokens = unreported diagnostics tokens := by
  refine congrArg (List.map word) (List.filter_congr fun token hmem => ?_)
  cases hname : token.isName with
  | false => rfl
  | true => simp [isReported_snoc, h token hmem hname]

/-- A name and a token that is none start at different places, so that no report about the one is about the
other. -/
theorem Distinct.offset_ne (h : Distinct tokens) {other : Token} (htoken : token ∈ tokens)
    (hother : other ∈ tokens) (hname : token.isName ≠ other.isName) :
    token.span.start.offset ≠ other.span.start.offset := by
  intro heq
  rw [List.inj_on_of_nodup_map h htoken hother heq] at hname
  exact hname rfl

/-- A token in the middle starts elsewhere than those around it. -/
theorem Distinct.offset_ne_middle (h : Distinct (front ++ token :: rest)) {other : Token}
    (hother : other ∈ front ++ rest) : token.span.start.offset ≠ other.span.start.offset := by
  rw [Distinct, List.map_append, List.map_cons, List.nodup_middle, ← List.map_append] at h
  intro heq
  exact (List.nodup_cons.1 h).1 (heq ▸ List.mem_map_of_mem hother)

end Token

/-! ### What a cursor retains -/

namespace Cursor

/-- The names that have been read are those of the tokens behind the cursor that have not been reported, and
no name ahead has been. -/
structure Retains (words : List Word) (cursor : Cursor) : Prop where
  behind : Word.visible (Token.unreported cursor.diagnostics.toList
    (cursor.tokens.toList.take cursor.pos)) = Word.visible words
  ahead : ∀ token ∈ cursor.tokens.toList.drop cursor.pos, token.isName = true →
    token.isReported cursor.diagnostics.toList = false

variable {cursor : Cursor} {words : List Word}

/-- The token at the place of a valid cursor is its current one. -/
theorem Valid.getElem?_pos (hc : cursor.Valid) :
    cursor.tokens.toList[cursor.pos]? = some cursor.current := by
  simp [current, tokenAt, Array.getD_eq_getD_getElem?, hc.inside]

/-- One token more behind the cursor is the current one, behind the others. -/
theorem Valid.take_succ (hc : cursor.Valid) :
    cursor.tokens.toList.take (cursor.pos + 1) =
      cursor.tokens.toList.take cursor.pos ++ [cursor.current] := by
  rw [List.take_add_one, hc.getElem?_pos]
  rfl

/-- A stream is the tokens behind the cursor, the current one and those after it. -/
theorem Valid.tokens_eq (hc : cursor.Valid) :
    cursor.tokens.toList = cursor.tokens.toList.take cursor.pos ++
      cursor.current :: cursor.tokens.toList.drop (cursor.pos + 1) := by
  have hsplit := List.take_append_drop (cursor.pos + 1) cursor.tokens.toList
  rw [hc.take_succ, List.append_assoc] at hsplit
  exact hsplit.symm

/-- The token that the cursor stands on is one of the stream. -/
theorem Valid.mem_current (hc : cursor.Valid) : cursor.current ∈ cursor.tokens.toList :=
  List.mem_of_getElem? hc.getElem?_pos

/-- The token behind the cursor is one of the stream, the first one where the cursor stands at the start. -/
theorem Valid.mem_previous (hc : cursor.Valid) : cursor.previous ∈ cursor.tokens.toList := by
  have hbefore : cursor.pos - 1 < cursor.tokens.size := Nat.lt_of_le_of_lt (Nat.sub_le _ _) hc.inside
  refine List.mem_of_getElem? (i := cursor.pos - 1) ?_
  simp [previous, tokenAt, Array.getD_eq_getD_getElem?, hbefore]

/-- Places to report at are those where tokens start, whether or not the token names a file. -/
@[simp]
theorem offset_positionOf (cursor : Cursor) (token : Token) :
    (cursor.positionOf token).offset = token.span.start.offset := by
  unfold positionOf Position.orIn
  split <;> rfl

/-- Words without texts count for nothing, such as those of a missing name. -/
theorem Retains.blank (h : cursor.Retains words) {blanks : List Word} (hblanks : Word.visible blanks = []) :
    cursor.Retains (words ++ blanks) :=
  ⟨by rw [h.behind, Word.visible_append, hblanks, List.append_nil], h.ahead⟩

/-- A report at a place where no name starts changes nothing about the names. -/
theorem Retains.reportAt (h : cursor.Retains words) (cause : Cause) {position : Position}
    (hplace : ∀ token ∈ cursor.tokens.toList, token.isName = true →
      position.offset ≠ token.span.start.offset) :
    (cursor.reportAt cause position).Retains words := by
  constructor
  · rw [diagnostics_reportAt, ← h.behind]
    refine congrArg Word.visible (Token.unreported_snoc fun token hmem => ?_)
    exact hplace token (List.mem_of_mem_take hmem)
  · intro token hmem hname
    rw [diagnostics_reportAt, Token.isReported_snoc, h.ahead token hmem hname]
    simpa using hplace token (List.mem_of_mem_drop hmem) hname

/-- A report about a token that is no name changes nothing about the names, because names start
elsewhere. -/
theorem Retains.reportOn (h : cursor.Retains words) (hd : Token.Distinct cursor.tokens.toList)
    (cause : Cause) {token : Token} (hmem : token ∈ cursor.tokens.toList) (hname : token.isName = false) :
    (cursor.reportAt cause (cursor.positionOf token)).Retains words := by
  refine h.reportAt cause fun other hother hisName => ?_
  rw [offset_positionOf]
  exact hd.offset_ne hmem hother (by rw [hname, hisName]; decide)

/-- A step past a token adds it to the names behind the cursor, if it is a name that has not been
reported. -/
theorem Retains.leave (h : cursor.Retains words) (hc : cursor.Valid)
    (hlast : cursor.pos + 1 < cursor.tokens.size) :
    cursor.step.Retains (words ++ Token.unreported cursor.diagnostics.toList [cursor.current]) := by
  rw [step, if_pos hlast]
  constructor
  · simp only [hc.take_succ, Token.unreported_append, Word.visible_append, h.behind]
  · intro token hmem
    exact h.ahead token (List.drop_subset_drop_left _ (Nat.le_succ _) hmem)

/-- A step past a token that is no name adds nothing. At the end of the input it may not lead anywhere. -/
theorem Retains.pass (h : cursor.Retains words) (hc : cursor.Valid)
    (hname : cursor.current.isName = false) : cursor.step.Retains words := by
  by_cases hlast : cursor.pos + 1 < cursor.tokens.size
  · have hleave := h.leave hc hlast
    rwa [Token.unreported_of_not_name hname, List.append_nil] at hleave
  · rwa [step, if_neg hlast]

/-- A name is not the last token of its stream, so that a step leaves it behind. -/
theorem Valid.not_last_of_isName (hc : cursor.Valid) (hname : cursor.current.isName = true) :
    cursor.pos + 1 < cursor.tokens.size := by
  refine hc.not_last fun hk => ?_
  rw [Token.isName_of_kind hk] at hname
  cases hname

/-- A step past a name adds it to what has been read, since no name ahead has been reported. -/
theorem Retains.keep (h : cursor.Retains words) (hc : cursor.Valid)
    (hname : cursor.current.isName = true) : cursor.step.Retains (words ++ [cursor.current.word]) := by
  have hahead : cursor.current ∈ cursor.tokens.toList.drop cursor.pos := by
    refine List.mem_of_getElem? (i := 0) ?_
    rw [List.getElem?_drop, Nat.add_zero, hc.getElem?_pos]
  have hleave := h.leave hc (hc.not_last_of_isName hname)
  rwa [Token.unreported_of_name hname (h.ahead _ hahead hname)] at hleave

/-- A token that is reported and left behind is retained by neither side, whether it is a name or not. -/
theorem Retains.skip (h : cursor.Retains words) (hc : cursor.Valid)
    (hd : Token.Distinct cursor.tokens.toList) (cause : Cause) :
    (cursor.report cause).step.Retains words := by
  cases hname : cursor.current.isName with
  | false => exact (h.reportOn hd cause hc.mem_current hname).pass ⟨hc.inside, hc.closed⟩ hname
  | true =>
    -- after the report and before the step, a name ahead has been reported, so the two go together
    have hlast := hc.not_last_of_isName hname
    have hstep : (cursor.report cause).step = { cursor.report cause with pos := cursor.pos + 1 } :=
      if_pos hlast
    have hpush : (cursor.report cause).diagnostics.toList =
        cursor.diagnostics.toList ++ [⟨cause, cursor.positionOf cursor.current⟩] :=
      diagnostics_reportAt cursor cause _
    rw [hc.tokens_eq] at hd
    have hother (token : Token) (hmem : token ∈ cursor.tokens.toList.take cursor.pos ++
        cursor.tokens.toList.drop (cursor.pos + 1)) :
        (cursor.positionOf cursor.current).offset ≠ token.span.start.offset := by
      rw [offset_positionOf]
      exact hd.offset_ne_middle hmem
    have hreported : cursor.current.isReported (cursor.report cause).diagnostics.toList = true := by
      simp [hpush, Token.isReported_snoc]
    have hbehind : Token.unreported (cursor.report cause).diagnostics.toList
        (cursor.tokens.toList.take (cursor.pos + 1)) =
          Token.unreported cursor.diagnostics.toList (cursor.tokens.toList.take cursor.pos) := by
      rw [hc.take_succ, Token.unreported_append, Token.unreported_of_reported hreported,
        List.append_nil, hpush]
      exact Token.unreported_snoc fun token hmem _ => hother token (List.mem_append_left _ hmem)
    rw [hstep]
    constructor
    · exact (congrArg Word.visible hbehind).trans h.behind
    · intro token hmem hisName
      rw [hpush, Token.isReported_snoc,
        h.ahead token (List.drop_subset_drop_left _ (Nat.le_succ _) hmem) hisName]
      simpa using hother token (List.mem_append_right _ hmem)

end Cursor

/-! ### Events -/

section

variable {cursor after : Cursor} {read : List Part} {words : List Word}

/-- A token that is demanded and missed has no text, so that no name is made up for it. -/
theorem Part.visible_demanded (wanted : Kind) :
    Word.visible ((Part.demanded wanted "").filterMap Part.word?) = [] := by
  cases wanted <;> rfl

/-- A token that is taken is read as a name exactly if it is one. -/
theorem retains_take (hc : cursor.Valid) (h : cursor.Retains words) :
    cursor.step.Retains
      (words ++ (Part.demanded cursor.kind cursor.current.value).filterMap Part.word?) := by
  cases hk : cursor.kind with
  | identifier | literal =>
    have hkeep := h.keep hc (Token.isName_of_kind hk)
    rwa [Token.word, show cursor.current.kind = _ from hk] at hkeep
  | _ => simpa [Part.demanded] using h.pass hc (Token.isName_of_kind hk)

/-- A type retains the names: a name in its place is reported and left behind. -/
theorem retains_dataType (hc : cursor.Valid) (hd : Token.Distinct cursor.tokens.toList)
    (h : cursor.Retains words) : (Production.dataType cursor).2.Retains words := by
  obtain ⟨-, hrun⟩ | ⟨text, hk, -, hrun⟩ | ⟨hk, -, hrun⟩ := Production.dataType_cases cursor
  · simp only [hrun]
    exact h.skip hc hd _
  · have hname : cursor.current.isName = false := Token.isName_of_kind hk
    have htokens : cursor.step.tokens = cursor.tokens := Cursor.tokens_step cursor
    simp only [hrun]
    exact (h.pass hc hname).reportOn (htokens ▸ hd) _ (htokens ▸ hc.mem_current) hname
  · simp only [hrun]
    exact h.pass hc (Token.isName_of_kind hk)

/-- An operand retains the name or the literal that it is. What is neither is reported and stays in
place. -/
theorem retains_operand (hc : cursor.Valid) (hd : Token.Distinct cursor.tokens.toList)
    (h : cursor.Retains words) :
    (Production.operand cursor).2.Retains
      (words ++ [Part.operand (Production.operand cursor).1].filterMap Part.word?) := by
  obtain ⟨hk, hrun⟩ | ⟨hk, hrun⟩ | ⟨hid, hlit, hrun⟩ := Production.operand_cases cursor
  · have hkeep := h.keep hc (Token.isName_of_kind hk)
    rw [Token.word, show cursor.current.kind = _ from hk] at hkeep
    simpa [hrun, Part.word?] using hkeep
  · have hkeep := h.keep hc (Token.isName_of_kind hk)
    rw [Token.word, show cursor.current.kind = _ from hk] at hkeep
    simpa [hrun, Part.word?] using hkeep
  · have hname : cursor.current.isName = false := by
      simp [Token.isName, show cursor.current.kind ≠ _ from hid, show cursor.current.kind ≠ _ from hlit]
    simp only [hrun]
    exact (h.reportOn hd _ hc.mem_current hname).blank rfl

/-- An event retains the names that it reads: none is lost without a report, and none is made up. -/
theorem Event.retains (event : Event cursor read after) (hc : cursor.Valid)
    (hd : Token.Distinct cursor.tokens.toList) (h : cursor.Retains words) :
    after.Retains (words ++ read.filterMap Part.word?) := by
  cases event with
  | take => exact retains_take hc h
  | miss => exact (h.skip hc hd _).blank (Part.visible_demanded _)
  | type => exact (retains_dataType hc hd h).blank rfl
  | operand => exact retains_operand hc hd h
  | operator hk =>
    obtain ⟨symbol, -, hrun⟩ | ⟨-, hrun⟩ := Production.mathOperator_cases cursor
    · simp only [hrun]
      exact (h.reportOn hd _ hc.mem_previous (Token.isName_of_kind hk)).blank rfl
    · simp only [hrun]
      exact h.blank rfl
  | comparison hk =>
    obtain ⟨symbol, -, hrun⟩ | ⟨-, hrun⟩ := Production.comparison_cases cursor
    · simp only [hrun]
      exact (h.reportOn hd _ hc.mem_previous (Token.isName_of_kind hk)).blank rfl
    · simp only [hrun]
      exact h.blank rfl
  | statement | stray => exact (h.skip hc hd _).blank rfl
  | unterminated hk | unclosed hk =>
    exact (h.reportOn hd _ hc.mem_current (Token.isName_of_kind hk)).blank rfl

/-- A whole account retains the names of its parts. The induction is on the account. -/
theorem Account.retains {start : Cursor} {parts : List Part} (account : Account start parts cursor)
    (hc : start.Valid) (hd : Token.Distinct start.tokens.toList) (h : start.Retains words) :
    cursor.Retains (words ++ parts.filterMap Part.word?) := by
  induction account with
  | start => simpa using h
  | next account event ih =>
    have hreach := account.reaches
    simpa using event.retains (hc.reaches hreach) (hreach.tokens ▸ hd) ih

end

/-! ### The names of a source -/

/-- The tokens of a source start at different places, because they tile it. -/
theorem Tiling.distinct {file : String} {start : Nat} {text : List Char} {tokens : List Token}
    (h : Tiling file start text tokens) : Token.Distinct tokens := by
  refine List.pairwise_map.2 (h.pairwise_start.2.imp fun hlt heq => ?_)
  exact Nat.ne_of_lt hlt (congrArg UInt32.toNat heq)

/-- Where only the last token ends the input, an ended cursor has passed all the others. -/
theorem Production.Ended.length_le {cursor : Cursor} (h : Ended cursor) {body : List Token} {last : Token}
    (htokens : cursor.tokens.toList = body ++ [last]) (hbody : ∀ token ∈ body, token.kind ≠ .endOfInput) :
    body.length ≤ cursor.pos := by
  obtain ⟨ending, hc, hk, hreach⟩ := h
  refine Nat.le_trans ?_ hreach.pos_le
  by_contra hlt
  have hcurrent := hc.getElem?_pos
  rw [← hreach.tokens, htokens, List.getElem?_append_left (by omega)] at hcurrent
  exact hbody _ (List.mem_of_getElem? hcurrent) hk

/-- Of a stream whose last token alone ends the input, a program holds the names that have not been
reported. -/
theorem Production.visible_names_program {cursor : Cursor} (hc : cursor.Valid)
    (hd : Token.Distinct cursor.tokens.toList) (hstart : cursor.Retains [])
    {body : List Token} {last : Token} (htokens : cursor.tokens.toList = body ++ [last])
    (hbody : ∀ token ∈ body, token.kind ≠ .endOfInput) (hlast : last.kind = .endOfInput) :
    Word.visible (Program.names (program cursor).1) =
      Word.visible (Token.unreported (program cursor).2.diagnostics.toList (body ++ [last])) := by
  have haccount := account_program hc
  have hbehind := (haccount.retains hc hd hstart).behind
  rw [haccount.reaches.tokens, htokens, List.nil_append] at hbehind
  have hpassed : body.length ≤ (program cursor).2.pos :=
    (ended_program hc).length_le (haccount.reaches.tokens ▸ htokens) hbody
  -- only the last token may still be ahead, and it is no name
  have hahead : ∀ token ∈ (body ++ [last]).drop (program cursor).2.pos, token.isName = false := by
    intro token hmem
    have hmem := List.drop_subset_drop_left _ hpassed hmem
    rw [List.drop_left, List.mem_singleton] at hmem
    exact Token.isName_of_kind (hmem ▸ hlast)
  calc Word.visible (Program.names (program cursor).1)
      = Word.visible (Token.unreported (program cursor).2.diagnostics.toList
          ((body ++ [last]).take (program cursor).2.pos)) := hbehind.symm
    _ = Word.visible (Token.unreported (program cursor).2.diagnostics.toList (body ++ [last])) := by
      rw [← List.take_append_drop (program cursor).2.pos (body ++ [last]), Token.unreported_append,
        Token.unreported_eq_nil hahead, List.append_nil, List.take_append_drop]

/-- The names and literals that a tree holds are those of the tokens that no diagnostic is about, for every
source whose offsets fit into a word and whatever is wrong with it. -/
theorem names_parse {source file : String} {tokens : List Token}
    (hsize : source.utf8ByteSize < UInt32.size) (htokens : tokenize source file = .ok tokens)
    (name : String) :
    Word.visible (Program.names (parse tokens name).1) =
      Word.visible (Token.unreported (parse tokens name).2 tokens) := by
  have htiling := tiling_of_tokenize hsize htokens
  have hd := htiling.distinct
  obtain ⟨body, last, rfl, hbody, hlast, -, -, -⟩ := htiling.ending_eq
  have hstream : (Cursor.ofTokens (body ++ [last]) name).tokens.toList = body ++ [last] := by
    simp [Cursor.ofTokens, Cursor.closed, hlast]
  have hstart : (Cursor.ofTokens (body ++ [last]) name).Retains [] := ⟨rfl, fun _ _ _ => rfl⟩
  refine Production.visible_names_program (Cursor.valid_ofTokens _ _) ?_ hstart hstream hbody hlast
  rwa [hstream]

/-- Two names in the place of statements are reported, and the other two are read. -/
theorem names_parse_sample :
    let source := "entry\x7bx f(y=z\x7d"
    let tokens : List Token :=
      [⟨.entryWord, "entry", .covering "shell" 0 5⟩, ⟨.openCurly, "\x7b", .covering "shell" 5 1⟩,
       ⟨.identifier, "x", .covering "shell" 6 1⟩, ⟨.identifier, "f", .covering "shell" 8 1⟩,
       ⟨.openParen, "(", .covering "shell" 9 1⟩, ⟨.identifier, "y", .covering "shell" 10 1⟩,
       ⟨.assignment, "=", .covering "shell" 11 1⟩, ⟨.identifier, "z", .covering "shell" 12 1⟩,
       ⟨.closeCurly, "\x7d", .covering "shell" 13 1⟩, .ending (.covering "shell" 14 0)]
    source.utf8ByteSize < UInt32.size ∧ tokenize source defaultFile = .ok tokens ∧
      Word.visible (Program.names (parse tokens defaultFile).1) =
        Word.visible (Token.unreported (parse tokens defaultFile).2 tokens) ∧
      Word.visible (Program.names (parse tokens defaultFile).1) =
        [⟨.identifier, "f"⟩, ⟨.identifier, "y"⟩] := by
  intro source tokens
  have hsize : source.utf8ByteSize < UInt32.size := by decide
  have hok : tokenize source defaultFile = .ok tokens := by decide +kernel
  refine ⟨hsize, hok, names_parse hsize hok defaultFile, ?_⟩
  decide +kernel

end BraceLang
