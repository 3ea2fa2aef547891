import BraceLang.Proofs.Acceptance
import BraceLang.Proofs.Simulation

/-!
# Programs one after the other

A program that is read without a diagnostic and has come to an end, with a semicolon or a closing bracket, can
be put in front of any other token stream, however malformed: the items of both are read one after the other,
and what is reported is what is wrong with the second (`parse_append`).

The argument has two halves. The items of the first program are taken whatever follows the last of them
(`Program.Derives.program_eq`). And at the seam, reading goes on as it does at the start of the second stream,
because from there on it sees the same tokens (`Cursor.Joined`): nothing of what is behind the cursor matters.
-/

set_option autoImplicit false

namespace BraceLang

open Production (Takes Reads Progressive Parallel topLevel program rounds)
open Word (firstKind)

/-! ### Cursors that have the same tokens ahead -/

namespace Cursor

/-- The tokens from the current one on, spans included. -/
def upcoming (cursor : Cursor) : List Token :=
  cursor.tokens.toList.drop cursor.pos

variable {cursor twin : Cursor}

/-- The tokens ahead are as many as what remains. -/
theorem length_upcoming (cursor : Cursor) : cursor.upcoming.length = cursor.remaining := by
  simp [upcoming, remaining]

/-- The current token is the first of those ahead. Beyond the last one there is an end token. -/
theorem current_eq_head (cursor : Cursor) : cursor.current = cursor.upcoming.headD (.ending .nowhere) := by
  simp [current, tokenAt, upcoming, List.headD_eq_head?_getD, Array.getD_eq_getD_getElem?]

/-- A step takes the first of the tokens ahead, unless it is the only one. -/
theorem upcoming_step (cursor : Cursor) :
    cursor.step.upcoming =
      if 1 < cursor.upcoming.length then cursor.upcoming.tail else cursor.upcoming := by
  have hlast : cursor.pos + 1 < cursor.tokens.size ↔ 1 < cursor.upcoming.length := by
    rw [length_upcoming, remaining]
    omega
  by_cases h : cursor.pos + 1 < cursor.tokens.size
  · rw [step, if_pos h, if_pos (hlast.1 h), upcoming, upcoming, List.tail_drop]
  · rw [step, if_neg h, if_neg (fun h' => h (hlast.2 h'))]

/-- Two cursors with the same tokens ahead of them and the same reports so far. -/
structure Joined (cursor twin : Cursor) : Prop where
  valid : cursor.Valid ∧ twin.Valid
  upcoming : cursor.upcoming = twin.upcoming
  file : cursor.file = twin.file
  diagnostics : cursor.diagnostics = twin.diagnostics

/-- A step does not change the file that is read. -/
theorem file_step (cursor : Cursor) : cursor.step.file = cursor.file :=
  (reaches_step cursor).file

/-- Two cursors with the same tokens ahead step together, and the same tokens are ahead afterwards. -/
theorem Joined.step (h : cursor.Joined twin) : cursor.step.Joined twin.step where
  valid := ⟨h.valid.1.step, h.valid.2.step⟩
  upcoming := by rw [upcoming_step, upcoming_step, h.upcoming]
  file := by rw [file_step, file_step, h.file]
  diagnostics := by rw [diagnostics_step, diagnostics_step, h.diagnostics]

/-- The same report keeps cursors joined, since it moves neither of them. -/
theorem Joined.reportAt (h : cursor.Joined twin) (cause : Cause) (position : Position) :
    (cursor.reportAt cause position).Joined (twin.reportAt cause position) where
  valid := ⟨h.valid.1.reaches (reaches_reportAt _ _ _), h.valid.2.reaches (reaches_reportAt _ _ _)⟩
  upcoming := h.upcoming
  file := h.file
  diagnostics := by simp only [Cursor.reportAt, h.diagnostics]

/-- The tokens that joined cursors report are the same, and so are the places of these. -/
theorem Joined.positionOf_current (h : cursor.Joined twin) :
    cursor.positionOf cursor.current = twin.positionOf twin.current := by
  rw [current_eq_head, current_eq_head, h.upcoming, positionOf, positionOf, h.file]

instance : Simulation Joined where
  valid h := h.valid
  ahead h := congrArg (List.map Token.word) h.upcoming
  step h := h.step
  report {cursor twin} h cause := by
    unfold report
    rw [h.positionOf_current]
    exact h.reportAt cause _
  reportTaken {cursor twin} h hk cause := by
    have hplace : cursor.step.positionOf cursor.current = twin.step.positionOf twin.current := by
      rw [positionOf, positionOf, file_step, file_step]
      exact h.positionOf_current
    rw [hplace]
    exact h.step.reportAt cause _

end Cursor

/-! ### The items before the seam -/

/-- A loop whose first round is followed by others goes on from there. -/
theorem Production.rounds_of_next {α : Type} {round : Production (Round α)} [Forward round]
    (hp : Progressive round) {cursor middle : Cursor} {element : α} (hc : cursor.Valid)
    (h : Reads round cursor (.next (some element)) middle) :
    rounds round cursor = (element :: (rounds round middle).1, (rounds round middle).2) := by
  have hmore := repeats_rounds hp (h.valid hc)
  rw [← h.state] at hmore ⊢
  exact (repeats_iff hp hc).1 (.next h.result hmore)

/-- A part that has ended does so with its second part, if there is one. -/
theorem Word.Ended.right {us vs : List Word} (h : Ended (us ++ vs)) (hne : vs ≠ []) : Ended vs := by
  obtain ⟨last, hlast, hkind⟩ := h
  rw [List.getLast?_append_of_ne_nil us hne] at hlast
  exact ⟨last, hlast, hkind⟩

/-- An item has at least one word, the one that it starts with. -/
theorem Item.Derives.ne_nil {omission : Omission} {us : List Word} {item : Item}
    (h : item.Derives omission us) : us ≠ [] := by
  rintro rfl
  have := h.firstKind_mem []
  simp at this

/-- Behind an item of a program that has ended comes another item, or the item has ended itself. -/
theorem Program.Derives.ended_or_firstKind {us vs : List Word} {items : Program}
    (h : Program.Derives .settled vs items) (hended : Word.Ended (us ++ vs)) (rest : List Word) :
    Word.Ended us ∨ firstKind (vs ++ rest) ∉ [Kind.mathOp, .assignment, .semicolon] := by
  cases h with
  | nil => exact .inl (by rwa [List.append_nil] at hended)
  | @cons us vs item items hitem hitems =>
    have hfirst := hitem.firstKind_mem (vs ++ rest)
    rw [← List.append_assoc] at hfirst
    simp only [List.mem_cons, List.not_mem_nil, or_false] at hfirst
    rcases hfirst with hk | hk | hk <;> exact .inr (by rw [hk]; decide)

/-- A program that has ended is read without a report, and reading goes on behind it, whatever is there. -/
theorem Program.Derives.program_eq {us rest : List Word} {items : Program} {cursor : Cursor}
    (h : Program.Derives .settled us items) (hended : us ≠ [] → Word.Ended us) (hc : cursor.Valid)
    (hahead : cursor.ahead = us ++ rest) :
    ∃ middle, cursor.Reaches middle ∧ middle.ahead = rest ∧
      middle.diagnostics = cursor.diagnostics ∧
      program cursor = (items ++ (program middle).1, (program middle).2) := by
  induction h generalizing cursor with
  | nil => exact ⟨cursor, .refl cursor, hahead, rfl, rfl⟩
  | @cons us vs item items hitem hitems ih =>
    have hwhole : Word.Ended (us ++ vs) := hended (by simp [hitem.ne_nil])
    rw [List.append_assoc] at hahead
    obtain ⟨next, hread, hnext⟩ :=
      hitem.takes_before (hitems.ended_or_firstKind hwhole rest) cursor hc hahead
    obtain ⟨middle, hreach, hmiddle, hquiet, hrun⟩ := ih hwhole.right (hread.valid hc) hnext
    have hforward : cursor.Reaches next := hread.state ▸ Production.Forward.reaches cursor
    refine ⟨middle, hforward.trans hreach, hmiddle, hquiet.trans hread.quiet, ?_⟩
    calc program cursor = (item :: (program next).1, (program next).2) :=
          Production.rounds_of_next Production.progressive_topLevel hc hread
      _ = (item :: items ++ (program middle).1, (program middle).2) := by rw [hrun, List.cons_append]

/-! ### The seam -/

/-- A stream behind another is closed as it is by itself. -/
theorem Cursor.closed_append (front : List Token) {rest : List Token} (hne : rest ≠ []) :
    closed (front ++ rest) = front ++ closed rest := by
  unfold closed
  rw [List.getLast?_append_of_ne_nil front hne]
  cases hlast : rest.getLast? with
  | none => exact absurd (List.getLast?_eq_none_iff.1 hlast) hne
  | some last =>
    dsimp only
    split
    · rfl
    · rw [List.append_assoc]

/-- Where the second of two streams is ahead, reading has come to its start. -/
theorem Cursor.joined_ofTokens {front rest : List Token} {file : String} {middle : Cursor}
    (hne : rest ≠ []) (hreach : (ofTokens (front ++ rest) file).Reaches middle)
    (hahead : middle.ahead = (closed rest).map Token.word) (hquiet : middle.diagnostics = #[]) :
    middle.Joined (ofTokens rest file) where
  valid := ⟨(valid_ofTokens _ _).reaches hreach, valid_ofTokens _ _⟩
  upcoming := by
    have htokens : middle.tokens.toList = front ++ closed rest := by
      rw [hreach.tokens, ofTokens, closed_append front hne]
    have hvalid := (valid_ofTokens _ _).reaches hreach
    have hpos : middle.pos = front.length := by
      have hsize := congrArg List.length htokens
      have hleft := congrArg List.length hahead
      have hinside := hvalid.inside
      rw [length_ahead, List.length_map, remaining] at hleft
      rw [Array.length_toList, List.length_append] at hsize
      omega
    rw [Cursor.upcoming, htokens, hpos, List.drop_left]
    rfl
  file := hreach.file
  diagnostics := hquiet

/-- Before its first end token a stream without one has all its words. -/
theorem Token.words_of_solid {tokens : List Token} (h : ∀ token ∈ tokens, token.kind ≠ .endOfInput) :
    Token.words tokens = tokens.map Token.word := by
  rw [Token.words, List.takeWhile_eq_self_iff.2 (by simpa using h)]

/-- A program that is read without a diagnostic and that is empty or ends with a semicolon or a closing
bracket, in front of any token stream: the items are those of both, and the diagnostics those of the second. -/
theorem parse_append {front : List Token} {file : String}
    (hsolid : ∀ token ∈ front, token.kind ≠ .endOfInput)
    (hended : ∀ last, front.getLast? = some last → last.kind = .semicolon ∨ last.kind = .closeCurly)
    (hquiet : (parse front file).2 = []) (rest : List Token) :
    parse (front ++ rest) file =
      ((parse front file).1 ++ (parse rest file).1, (parse rest file).2) := by
  by_cases hne : rest = []
  · subst hne
    have hempty : parse [] file = ([], []) := rfl
    rw [hempty, List.append_nil, List.append_nil, ← hquiet]
  have hderives : Program.Derives .settled (front.map Token.word) (parse front file).1 := by
    rw [← Token.words_of_solid hsolid]
    exact derives_of_parse_eq (Prod.ext rfl hquiet)
  have hwords : front.map Token.word ≠ [] → Word.Ended (front.map Token.word) := by
    intro hfront
    have hlast := List.getLast?_eq_some_getLast (List.map_eq_nil_iff.not.1 hfront)
    refine ⟨(front.getLast _).word, by rw [List.getLast?_map, hlast]; rfl, ?_⟩
    simpa [Token.word] using hended _ hlast
  have hahead : (Cursor.ofTokens (front ++ rest) file).ahead =
      front.map Token.word ++ (Cursor.closed rest).map Token.word := by
    rw [Cursor.ahead_ofTokens, Cursor.closed_append front hne, List.map_append]
  obtain ⟨middle, hreach, hmiddle, hnone, hrun⟩ :=
    hderives.program_eq hwords (Cursor.valid_ofTokens _ _) hahead
  -- behind the first stream the cursor is joined to a fresh one on the second, and both read alike from there
  have hjoined := Cursor.joined_ofTokens hne hreach hmiddle hnone
  have hmatch := Production.parallel_program.run hjoined
  show ((program (.ofTokens (front ++ rest) file)).1,
    (program (.ofTokens (front ++ rest) file)).2.diagnostics.toList) = _
  rw [hrun, hmatch.result, hmatch.related.diagnostics]
  rfl

/-- A declaration with its semicolon, before words that would continue one without. -/
theorem parse_append_sample :
    let front : List Token :=
      [.synthetic .typeKeyword "int", .synthetic .confirm ":", .synthetic .identifier "a",
       .synthetic .semicolon ";"]
    let rest : List Token := [.synthetic .assignment "=", .synthetic .literal "1"]
    (∀ token ∈ front, token.kind ≠ .endOfInput) ∧
      (∀ last, front.getLast? = some last → last.kind = .semicolon ∨ last.kind = .closeCurly) ∧
      (parse front "f").2 = [] ∧
      parse (front ++ rest) "f" =
        ((parse front "f").1 ++ (parse rest "f").1, (parse rest "f").2) ∧
      parse (front ++ rest) "f" =
        ([.declaration ⟨.int, "a", none⟩],
         [⟨.unexpectedTopLevel "=", ⟨0, "f"⟩⟩, ⟨.unexpectedTopLevel "1", ⟨0, "f"⟩⟩]) := by
  intro front rest
  have hsolid : ∀ token ∈ front, token.kind ≠ .endOfInput := by decide
  have hended : ∀ last, front.getLast? = some last →
      last.kind = .semicolon ∨ last.kind = .closeCurly := by
    rintro last ⟨rfl⟩
    exact .inl rfl
  have hquiet : (parse front "f").2 = [] := by decide +kernel
  have hread : parse (front ++ rest) "f" =
      ([.declaration ⟨.int, "a", none⟩],
       [⟨.unexpectedTopLevel "=", ⟨0, "f"⟩⟩, ⟨.unexpectedTopLevel "1", ⟨0, "f"⟩⟩]) := by
    subst front rest
    rfl
  exact ⟨hsolid, hended, hquiet, parse_append hsolid hended hquiet rest, hread⟩

end BraceLang
