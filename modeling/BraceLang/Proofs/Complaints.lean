import BraceLang.Proofs.Forward
import BraceLang.Proofs.Simulation

/-!
# Reading does not look at spans

What is read from a token stream, what is reported and about which of its tokens depends on the kinds and the
values of the tokens alone. A `Complaint` is a cause and the place of a token in the stream.
`Word.complaints` lists the complaints about words without any spans, and on every stream with these words the
diagnostics are these complaints, each where its token starts (`parse_eq_reading`). So streams that differ in
their spans only give the same program and the same complaints (`parse_respanned`).

The complaints about words are found by reading tokens whose spans hold nothing but their places
(`Token.placed`), so that the place of a token can be read off a diagnostic about it. That other spans lead to
the same places is a simulation: two cursors over the same words stay at the same place, and their diagnostics
stay those of one list of complaints (`Cursor.Respanned`).
-/

set_option autoImplicit false

namespace BraceLang

/-- A complaint about the token at a place of the stream. -/
structure Complaint where
  cause : Cause
  /-- The number of tokens before the token in question. -/
  place : Nat
deriving DecidableEq, Inhabited

/-! ### Complaints on a stream -/

namespace Cursor

/-- A complaint as a diagnostic, which is where the token in question starts. -/
def located (cursor : Cursor) (complaint : Complaint) : Diagnostic :=
  ⟨complaint.cause, cursor.positionOf (cursor.tokenAt complaint.place)⟩

/-- The diagnostics so far are the given complaints, each about a token of the stream. -/
structure Traced (complaints : List Complaint) (cursor : Cursor) : Prop where
  located : cursor.diagnostics.toList = complaints.map cursor.located
  inside : ∀ complaint ∈ complaints, complaint.place < cursor.tokens.size

variable {cursor after : Cursor} {complaints : List Complaint}

/-- Inside the stream, the token at a place is the one that a cursor finds there. -/
theorem getElem?_tokens {place : Nat} (h : place < cursor.tokens.size) :
    cursor.tokens.toList[place]? = some (cursor.tokenAt place) := by
  simp [tokenAt, Array.getD_eq_getD_getElem?, h]

/-- Where a complaint is located does not change as reading goes on, because the tokens and the file stay
the same. -/
theorem Reaches.located_eq (h : cursor.Reaches after) : after.located = cursor.located := by
  funext complaint
  simp only [Cursor.located, positionOf, tokenAt, h.tokens, h.file]

/-- A step reports nothing, so that the complaints so far are the same. -/
theorem Traced.step (h : cursor.Traced complaints) : cursor.step.Traced complaints where
  located := by rw [diagnostics_step, (reaches_step cursor).located_eq, h.located]
  inside := by simpa using h.inside

/-- A report about a token of the stream is one more complaint. -/
theorem Traced.reportOn (h : cursor.Traced complaints) (cause : Cause) {place : Nat}
    (hplace : place < cursor.tokens.size) :
    (cursor.reportAt cause (cursor.positionOf (cursor.tokenAt place))).Traced
      (complaints ++ [⟨cause, place⟩]) where
  located := by
    rw [(reaches_reportAt cursor cause _).located_eq, List.map_append, ← h.located]
    simp [reportAt, Cursor.located]
  inside := by
    intro complaint hmem
    obtain hmem | hmem := List.mem_append.1 hmem
    · exact h.inside complaint hmem
    · obtain rfl := List.mem_singleton.1 hmem
      exact hplace

/-- A report about the current token is a complaint about the place of the cursor. -/
theorem Traced.report (h : cursor.Traced complaints) (hc : cursor.Valid) (cause : Cause) :
    (cursor.report cause).Traced (complaints ++ [⟨cause, cursor.pos⟩]) :=
  h.reportOn cause hc.inside

/-- A report about the token that has just been taken is a complaint about the place behind the cursor. -/
theorem Traced.reportTaken (h : cursor.Traced complaints) (hc : cursor.Valid) (cause : Cause) :
    (cursor.step.reportAt cause (cursor.step.positionOf cursor.current)).Traced
      (complaints ++ [⟨cause, cursor.pos⟩]) := by
  have htoken : cursor.step.tokenAt cursor.pos = cursor.current := by
    rw [tokenAt, tokens_step]
    rfl
  rw [← htoken]
  exact h.step.reportOn cause (by simpa using hc.inside)

/-! ### Streams with the same words -/

variable {twin : Cursor}

/-- Two cursors at the same place of streams with the same words, with the same complaints so far. -/
structure Respanned (cursor twin : Cursor) : Prop where
  valid : cursor.Valid ∧ twin.Valid
  words : cursor.tokens.toList.map Token.word = twin.tokens.toList.map Token.word
  pos : cursor.pos = twin.pos
  traced : ∃ complaints, cursor.Traced complaints ∧ twin.Traced complaints

/-- Streams with the same words are equally long, so that the two cursors come to the last token
together. -/
theorem Respanned.size_eq (h : cursor.Respanned twin) : cursor.tokens.size = twin.tokens.size := by
  simpa using congrArg List.length h.words

/-- Two cursors over the same words step together, with the same complaints as before. -/
theorem Respanned.step (h : cursor.Respanned twin) : cursor.step.Respanned twin.step where
  valid := ⟨h.valid.1.step, h.valid.2.step⟩
  words := by simpa using h.words
  pos := by
    unfold Cursor.step
    rw [h.pos, h.size_eq]
    split
    · rfl
    · exact h.pos
  traced := by
    obtain ⟨complaints, htraced, htraced'⟩ := h.traced
    exact ⟨complaints, htraced.step, htraced'.step⟩

instance : Simulation Respanned where
  valid h := h.valid
  ahead {cursor twin} h := by
    rw [Cursor.ahead, Cursor.ahead, List.map_drop, List.map_drop, h.words, h.pos]
  step h := h.step
  report {cursor twin} h cause := by
    obtain ⟨complaints, htraced, htraced'⟩ := h.traced
    have htraced' := htraced'.report h.valid.2 cause
    rw [← h.pos] at htraced'
    exact
      { valid := ⟨h.valid.1.reaches (reaches_reportAt _ _ _), h.valid.2.reaches (reaches_reportAt _ _ _)⟩
        words := h.words
        pos := h.pos
        traced := ⟨_, htraced.report h.valid.1 cause, htraced'⟩ }
  reportTaken {cursor twin} h _ cause := by
    obtain ⟨complaints, htraced, htraced'⟩ := h.traced
    have htraced' := htraced'.reportTaken h.valid.2 cause
    rw [← h.pos] at htraced'
    exact
      { valid := ⟨h.step.valid.1.reaches (reaches_reportAt _ _ _),
          h.step.valid.2.reaches (reaches_reportAt _ _ _)⟩
        words := h.step.words
        pos := h.step.pos
        traced := ⟨_, htraced.reportTaken h.valid.1 cause, htraced'⟩ }

end Cursor

/-! ### Complaints about words -/

/-- A token whose span holds nothing but a place: it starts in a file with a name of that length. -/
def Token.placed (place : Nat) (word : Word) : Token :=
  let start : Position := ⟨0, String.ofList (List.replicate place '.')⟩
  ⟨word.kind, word.value, ⟨start, start⟩⟩

/-- The complaint that a diagnostic about a placed token is. -/
def Diagnostic.complaint (diagnostic : Diagnostic) : Complaint :=
  ⟨diagnostic.cause, diagnostic.position.file.length⟩

namespace Word

/-- The words of a stream with those of an end token. -/
def closed (words : List Word) : List Word :=
  match words.getLast? with
  | some last => if last.kind = .endOfInput then words else words ++ [⟨.endOfInput, "EOF"⟩]
  | none => [⟨.endOfInput, "EOF"⟩]

/-- A stream of the given words, closed by an end token, whose spans hold nothing but places. -/
def stream (words : List Word) : List Token :=
  (closed words).mapIdx Token.placed

/-- The program that words hold, read from a stream whose spans hold nothing but places. -/
def program (words : List Word) : Program :=
  (parse (stream words) "").1

/-- What is wrong with words, and about which of them. No span has a part in it. -/
def complaints (words : List Word) : List Complaint :=
  (parse (stream words) "").2.map Diagnostic.complaint

/-- Closing a stream adds the words of an end token, whatever its span. -/
theorem closed_map_word (tokens : List Token) :
    closed (tokens.map Token.word) = (Cursor.closed tokens).map Token.word := by
  unfold closed Cursor.closed
  rw [List.getLast?_map]
  cases hlast : tokens.getLast? with
  | none => rfl
  | some last =>
    simp only [Option.map_some, Token.word]
    split
    · rfl
    · rw [List.map_append]
      rfl

/-- The words of a closed stream end with those of an end token. -/
theorem getLast?_closed (words : List Word) :
    (closed words).getLast?.map Word.kind = some .endOfInput := by
  unfold closed
  split
  · rename_i last hlast
    split
    · rename_i hkind
      rw [hlast, Option.map_some, hkind]
    · rw [List.getLast?_concat]
      rfl
  · rfl

/-- The words of a placed stream are those it was made of, closed by an end word. -/
theorem map_word_stream (words : List Word) : (stream words).map Token.word = closed words := by
  refine List.ext_getElem? fun i => ?_
  rw [stream, List.getElem?_map, List.getElem?_mapIdx, Option.map_map]
  exact congrFun Option.map_id _

/-- A stream of placed tokens is closed already, since the words were closed before they were placed. -/
theorem closed_stream (words : List Word) : Cursor.closed (stream words) = stream words := by
  have hlast := getLast?_closed words
  rw [← map_word_stream, List.getLast?_map, Option.map_map] at hlast
  obtain ⟨last, hlast, hkind⟩ := Option.map_eq_some_iff.1 hlast
  rw [Cursor.closed, hlast]
  exact if_pos hkind

/-- A file name that holds a place is a name, so that it is never replaced by that of the file being
read. -/
theorem replicate_ne_noFile (place : Nat) : String.ofList (List.replicate place '.') ≠ Position.noFile := by
  intro h
  have hlist : List.replicate place '.' = Position.noFile.toList := by rw [← h, String.toList_ofList]
  have hmem : '<' ∈ List.replicate place '.' := hlist ▸ by decide
  exact absurd (List.eq_of_mem_replicate hmem) (by decide)

/-- A complaint about placed words can be read off its diagnostic: the length of the name is the place. -/
theorem complaint_located {words : List Word} {cursor : Cursor}
    (htokens : cursor.tokens.toList = stream words) {complaint : Complaint}
    (hplace : complaint.place < cursor.tokens.size) :
    (cursor.located complaint).complaint = complaint := by
  obtain ⟨word, hword⟩ : ∃ word, cursor.tokenAt complaint.place = .placed complaint.place word := by
    have hget := Cursor.getElem?_tokens hplace
    rw [htokens, stream, List.getElem?_mapIdx] at hget
    obtain ⟨word, -, hword⟩ := Option.map_eq_some_iff.1 hget
    exact ⟨word, hword.symm⟩
  have hposition : cursor.positionOf (.placed complaint.place word) =
      ⟨0, String.ofList (List.replicate complaint.place '.')⟩ :=
    if_neg (replicate_ne_noFile _)
  rw [Cursor.located, hword, hposition, Diagnostic.complaint, String.length_ofList, List.length_replicate]

/-- The complaints that the diagnostics about placed words are can be read off them. -/
theorem complaints_of_traced {words : List Word} {cursor : Cursor} {complaints : List Complaint}
    (htokens : cursor.tokens.toList = stream words) (h : cursor.Traced complaints) :
    cursor.diagnostics.toList.map Diagnostic.complaint = complaints := by
  rw [h.located, List.map_map]
  refine (List.map_congr_left fun complaint hmem => ?_).trans (List.map_id _)
  exact complaint_located htokens (h.inside complaint hmem)

end Word

/-! ### Reading words -/

open Production (Forward parallel_program)

/-- Before anything is read there is nothing to complain about. -/
theorem Cursor.traced_ofTokens (tokens : List Token) (file : String) :
    (ofTokens tokens file).Traced [] :=
  ⟨rfl, by simp⟩

/-- Reading a placed stream adds no end token to it. -/
theorem Word.tokens_ofTokens_stream (words : List Word) :
    (Cursor.ofTokens (stream words) "").tokens.toList = stream words := by
  rw [Cursor.ofTokens, closed_stream]

/-- Words have the complaints that trace the reading of their placed stream. -/
theorem Word.complaints_eq {words : List Word} {complaints : List Complaint}
    (h : (Production.program (.ofTokens (stream words) "")).2.Traced complaints) :
    Word.complaints words = complaints := by
  have hreach := (inferInstance : Forward Production.program).reaches (.ofTokens (stream words) "")
  have htokens : (Production.program (.ofTokens (stream words) "")).2.tokens.toList = stream words := by
    rw [hreach.tokens, tokens_ofTokens_stream]
  exact complaints_of_traced htokens h

/-- A stream and the placed stream of its words start with the same words and without complaints. -/
theorem Cursor.respanned_stream (tokens : List Token) (file : String) :
    (ofTokens tokens file).Respanned (ofTokens (Word.stream (tokens.map Token.word)) "") where
  valid := ⟨valid_ofTokens _ _, valid_ofTokens _ _⟩
  words := by
    rw [Word.tokens_ofTokens_stream, Word.map_word_stream, Word.closed_map_word]
    rfl
  pos := rfl
  traced := ⟨[], traced_ofTokens _ _, traced_ofTokens _ _⟩

/-- What is read from a stream is what is read from its words, and what is reported are the complaints about
its words, each about a token of the stream and where that token starts. -/
theorem parse_eq_reading (tokens : List Token) (file : String) :
    (parse tokens file).1 = Word.program (tokens.map Token.word) ∧
    (parse tokens file).2 =
      (Word.complaints (tokens.map Token.word)).map (Cursor.ofTokens tokens file).located ∧
    ∀ complaint ∈ Word.complaints (tokens.map Token.word),
      complaint.place < (Cursor.closed tokens).length := by
  have hstart := Cursor.respanned_stream tokens file
  obtain ⟨hresult, hrelated⟩ := parallel_program.run hstart
  obtain ⟨complaints, htraced, htraced'⟩ := hrelated.traced
  have hreach := (inferInstance : Forward Production.program).reaches (.ofTokens tokens file)
  rw [Word.complaints_eq htraced']
  refine ⟨hresult, ?_, fun complaint hmem => ?_⟩
  · exact htraced.located.trans (by rw [hreach.located_eq])
  · have hinside := htraced.inside complaint hmem
    rw [hreach.tokens] at hinside
    exact hinside

/-- Two streams whose tokens agree in their kinds and values, with any spans and file names, give the same
program and as many diagnostics. There is one list of complaints, which depends on the kinds and values only,
such that in both the diagnostics are these complaints, each where its token starts, with the name of the file
being read if the token names none. -/
theorem parse_respanned {tokens others : List Token}
    (h : List.Forall₂ (fun token other => token.kind = other.kind ∧ token.value = other.value) tokens others)
    (file name : String) :
    (parse tokens file).1 = (parse others name).1 ∧
    (parse tokens file).2.length = (parse others name).2.length ∧
    Word.complaints (tokens.map Token.word) = Word.complaints (others.map Token.word) ∧
    (∀ complaint ∈ Word.complaints (tokens.map Token.word),
      complaint.place < (Cursor.closed tokens).length ∧
      complaint.place < (Cursor.closed others).length) ∧
    (parse tokens file).2 =
      (Word.complaints (tokens.map Token.word)).map (Cursor.ofTokens tokens file).located ∧
    (parse others name).2 =
      (Word.complaints (tokens.map Token.word)).map (Cursor.ofTokens others name).located := by
  have hwords : tokens.map Token.word = others.map Token.word := by
    induction h with
    | nil => rfl
    | cons hagree _ ih => rw [List.map_cons, List.map_cons, Token.word, hagree.1, hagree.2, ih]; rfl
  obtain ⟨hprogram, hdiagnostics, hinside⟩ := parse_eq_reading tokens file
  obtain ⟨hprogram', hdiagnostics', hinside'⟩ := parse_eq_reading others name
  rw [← hwords] at hprogram' hdiagnostics' hinside'
  refine ⟨hprogram.trans hprogram'.symm, ?_, congrArg _ hwords, ?_, hdiagnostics, hdiagnostics'⟩
  · rw [hdiagnostics, hdiagnostics', List.length_map, List.length_map]
  · exact fun complaint hmem => ⟨hinside complaint hmem, hinside' complaint hmem⟩

/-- `import %`, once from a source and once made up without one. The percent sign is passed over in the place
of a path. -/
theorem parse_respanned_sample :
    let tokens : List Token :=
      [⟨.importWord, "import", .covering "a" 0 6⟩, ⟨.mathOp, "%", .covering "a" 7 1⟩]
    let others : List Token := [.synthetic .importWord "import", .synthetic .mathOp "%"]
    List.Forall₂ (fun token other : Token => token.kind = other.kind ∧ token.value = other.value)
        tokens others ∧
      Word.complaints (tokens.map Token.word) = [⟨.unexpected .literal "%", 1⟩] ∧
      (parse tokens "b").1 = (parse others "b").1 ∧
      (parse tokens "b").2 = [⟨.unexpected .literal "%", ⟨7, "a"⟩⟩] ∧
      (parse others "b").2 = [⟨.unexpected .literal "%", ⟨0, "b"⟩⟩] := by
  intro tokens others
  have hagree : List.Forall₂
      (fun token other : Token => token.kind = other.kind ∧ token.value = other.value) tokens others :=
    .cons ⟨rfl, rfl⟩ (.cons ⟨rfl, rfl⟩ .nil)
  have hcomplaints : Word.complaints (tokens.map Token.word) = [⟨.unexpected .literal "%", 1⟩] := by decide +kernel
  obtain ⟨hprogram, -, -, -, hdiagnostics, hdiagnostics'⟩ := parse_respanned hagree "b" "b"
  rw [hcomplaints] at hdiagnostics hdiagnostics'
  exact ⟨hagree, hcomplaints, hprogram, hdiagnostics.trans (by decide +kernel), hdiagnostics'.trans (by decide +kernel)⟩

end BraceLang
