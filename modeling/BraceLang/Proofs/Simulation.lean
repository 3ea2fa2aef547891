import BraceLang.Proofs.Cases

/-!
# Two readings side by side

Reading looks at the words ahead of a cursor and at nothing else. So two cursors that see the same words, and
that stay alike as they step and report, are read in the same way, however much they differ otherwise. A
relation between cursors with these properties is a `Simulation`, and a production is `Parallel` under it if
on related cursors it gives the same result and leaves the cursors related.

Everything that the grammar is made of is parallel under every simulation, up to a whole program
(`parallel_program`), so a statement about two readings needs no more than a relation and what a step and a
report do to it.

There is one thing that reading finds behind the cursor: an operator, a comparison or a type that it has just
taken. These are covered by `Simulation.reportTaken`. At the end of the input nothing can be taken in the
place of a type, so types are parallel only where the input has not ended (`ParallelInside`), and the grammar
has them nowhere else.
-/

set_option autoImplicit false

namespace BraceLang

/-- A relation between cursors that see the same words, kept by what reading does to a cursor. -/
class Simulation (R : Cursor → Cursor → Prop) : Prop where
  valid {cursor twin : Cursor} (h : R cursor twin) : cursor.Valid ∧ twin.Valid
  ahead {cursor twin : Cursor} (h : R cursor twin) : cursor.ahead = twin.ahead
  step {cursor twin : Cursor} (h : R cursor twin) : R cursor.step twin.step
  report {cursor twin : Cursor} (h : R cursor twin) (cause : Cause) :
    R (cursor.report cause) (twin.report cause)
  /-- A complaint about the token that has just been taken. -/
  reportTaken {cursor twin : Cursor} (h : R cursor twin) (hk : cursor.kind ≠ .endOfInput)
    (cause : Cause) :
    R (cursor.step.reportAt cause (cursor.step.positionOf cursor.current))
      (twin.step.reportAt cause (twin.step.positionOf twin.current))

namespace Simulation

variable {R : Cursor → Cursor → Prop} [Simulation R] {cursor twin : Cursor}

/-- Related cursors stand on tokens of the same kind, since they see the same words. -/
theorem kind_eq (h : R cursor twin) : cursor.kind = twin.kind := by
  rw [Cursor.kind_eq_firstKind, Cursor.kind_eq_firstKind, ahead h]

/-- Related cursors stand on tokens with the same text. -/
theorem value_eq (h : R cursor twin) : cursor.current.value = twin.current.value := by
  have hahead := Cursor.ahead_of_inside (valid h).2.inside
  rw [← ahead h] at hahead
  exact congrArg Word.value ((valid h).1.current_word hahead)

/-- Related cursors have as many tokens left, so that loops and levels are bounded alike. -/
theorem remaining_eq (h : R cursor twin) : cursor.remaining = twin.remaining := by
  rw [← Cursor.length_ahead, ← Cursor.length_ahead, ahead h]

/-- The token that has just been taken is the one behind both cursors. -/
theorem previous_step (h : R cursor twin) (hk : cursor.kind ≠ .endOfInput) :
    cursor.step.previous = cursor.current ∧ twin.step.previous = twin.current :=
  ⟨(valid h).1.previous_step hk, (valid h).2.previous_step (kind_eq h ▸ hk)⟩

end Simulation

namespace Production

variable {α β : Type} {R : Cursor → Cursor → Prop} {p q : Production α} {f : α → Production β}

/-- Two outcomes with the same result, at cursors that are related again. -/
structure Matches (R : Cursor → Cursor → Prop) (outcome other : α × Cursor) : Prop where
  result : outcome.1 = other.1
  related : R outcome.2 other.2

/-- A production that does the same on related cursors. As a class, this is found by itself for what is put
together of such productions. -/
class Parallel (R : Cursor → Cursor → Prop) (p : Production α) : Prop where
  run : ∀ {cursor twin : Cursor}, R cursor twin → Matches R (p cursor) (p twin)

/-- A production that does the same on related cursors where the input has not ended. -/
structure ParallelInside (R : Cursor → Cursor → Prop) (p : Production α) : Prop where
  run : ∀ {cursor twin : Cursor}, R cursor twin → cursor.kind ≠ .endOfInput →
    Matches R (p cursor) (p twin)

/-! ### Sequences, branches and loops -/

/-- Outcomes that match go on to match, if what comes behind them is parallel. -/
theorem Matches.bind {cursor twin : Cursor} (h : Matches R (p cursor) (p twin))
    (hf : ∀ a, Parallel R (f a)) : Matches R ((p >>= f) cursor) ((p >>= f) twin) := by
  rw [bind_apply, bind_apply, h.result]
  exact (hf _).run h.related

instance parallel_pure (a : α) : Parallel R (pure a : Production α) :=
  ⟨fun h => ⟨rfl, h⟩⟩

/-- A sequence is parallel if both of its parts are, the second for every value of the first. -/
theorem Parallel.bind (hp : Parallel R p) (hf : ∀ a, Parallel R (f a)) : Parallel R (p >>= f) :=
  ⟨fun h => (hp.run h).bind hf⟩

instance parallel_bind [hp : Parallel R p] [hf : ∀ a, Parallel R (f a)] : Parallel R (p >>= f) :=
  hp.bind hf

instance parallel_map (g : α → β) [hp : Parallel R p] : Parallel R (g <$> p) :=
  ⟨fun h => ⟨congrArg g (hp.run h).result, (hp.run h).related⟩⟩

/-- A branch is parallel if both of its sides are. What it is decided by is the same for both cursors. -/
theorem Parallel.ite {b : Prop} [Decidable b] (hp : Parallel R p) (hq : Parallel R q) :
    Parallel R (if b then p else q) := by
  split <;> assumption

instance parallel_ite (b : Prop) [Decidable b] [hp : Parallel R p] [hq : Parallel R q] :
    Parallel R (if b then p else q) :=
  hp.ite hq

/-- A sequence is parallel inside the input if its first part is, and what comes behind that is parallel
everywhere. -/
theorem ParallelInside.bind (hp : ParallelInside R p) (hf : ∀ a, Parallel R (f a)) :
    ParallelInside R (p >>= f) :=
  ⟨fun h hk => (hp.run h hk).bind hf⟩

/-- To change the value of a production does not change where it is parallel. -/
theorem ParallelInside.map (g : α → β) (hp : ParallelInside R p) : ParallelInside R (g <$> p) :=
  ⟨fun h hk => ⟨congrArg g (hp.run h hk).result, (hp.run h hk).related⟩⟩

section

variable [Simulation R]

/-- Loops have the same number of tokens left, so they run in parallel round by round. -/
instance parallel_rounds (round : Production (Round α)) [hround : Parallel R round] :
    Parallel R (rounds round) := by
  have hwithin (limit : Nat) : ∀ done : List α, Parallel R (roundsWithin round limit done) := by
    induction limit with
    | zero => exact fun done => parallel_pure _
    | succ limit ih =>
      intro done
      apply hround.bind
      intro outcome
      rcases outcome with _ | element | _ | element
      · exact parallel_pure _
      · exact parallel_pure _
      · exact ih done
      · exact ih (element :: done)
  refine ⟨fun {cursor twin} h => ?_⟩
  show Matches R (roundsWithin round cursor.remaining [] cursor)
    (roundsWithin round twin.remaining [] twin)
  rw [Simulation.remaining_eq h]
  exact (hwithin _ []).run h

/-! ### Tokens -/

instance : Parallel R kind :=
  ⟨fun h => ⟨Simulation.kind_eq h, h⟩⟩

instance : Parallel R atEnd :=
  ⟨fun h => ⟨by rw [atEnd_apply, atEnd_apply, Simulation.kind_eq h], h⟩⟩

instance (cause : Cause) : Parallel R (report cause) :=
  ⟨fun h => ⟨rfl, Simulation.report h cause⟩⟩

instance (wanted : Kind) : Parallel R (accept wanted) := by
  refine ⟨fun {cursor twin} h => ?_⟩
  have hkind := Simulation.kind_eq h
  obtain ⟨hk, hrun⟩ | ⟨hk, hrun⟩ := accept_cases cursor wanted
  · rw [hrun, accept_of_eq (hkind ▸ hk)]
    exact ⟨rfl, Simulation.step h⟩
  · rw [hrun, accept_of_ne (hkind ▸ hk)]
    exact ⟨rfl, h⟩

/-- What a current token is looked up for is its kind and its value. -/
theorem Parallel.peek {f : Token → Production α}
    (hvalue : ∀ token other : Token, token.value = other.value → f token = f other)
    (hf : ∀ token, Parallel R (f token)) : Parallel R (peek >>= f) := by
  refine ⟨fun {cursor twin} h => ?_⟩
  rw [bind_apply, bind_apply, peek_apply, peek_apply, hvalue _ _ (Simulation.value_eq h)]
  exact (hf _).run h

/-- A token that is demanded and missing is reported and passed over. -/
theorem related_miss {cursor twin : Cursor} (h : R cursor twin) (wanted : Kind) :
    R (cursor.report (.unexpected wanted cursor.current.value)).step
      (twin.report (.unexpected wanted twin.current.value)).step := by
  rw [Simulation.value_eq h]
  exact Simulation.step (Simulation.report h _)

instance (wanted : Kind) : Parallel R (expectValue wanted) := by
  refine ⟨fun {cursor twin} h => ?_⟩
  have hkind := Simulation.kind_eq h
  obtain ⟨hk, hrun⟩ | ⟨hk, hrun⟩ := expectValue_cases cursor wanted
  · obtain ⟨-, hrun'⟩ | ⟨hk', -⟩ := expectValue_cases twin wanted
    · rw [hrun, hrun']
      exact ⟨Simulation.value_eq h, Simulation.step h⟩
    · exact absurd (hkind ▸ hk) hk'
  · obtain ⟨hk', -⟩ | ⟨-, hrun'⟩ := expectValue_cases twin wanted
    · exact absurd (hkind.trans hk') hk
    · rw [hrun, hrun']
      exact ⟨rfl, related_miss h wanted⟩

/-- A token that is demanded and not looked at is the same to related cursors, although its spans may
differ. -/
instance parallel_expect (wanted : Kind) [hp : Parallel R p] :
    Parallel R (expect wanted >>= fun _ => p) := by
  refine ⟨fun {cursor twin} h => ?_⟩
  have hkind := Simulation.kind_eq h
  obtain ⟨hk, hrun⟩ | ⟨hk, hrun⟩ := expect_cases cursor wanted
  · rw [bind_apply, bind_apply, hrun, expect_of_eq (hkind ▸ hk)]
    exact hp.run (Simulation.step h)
  · rw [bind_apply, bind_apply, hrun, expect_of_ne (hkind ▸ hk)]
    exact hp.run (related_miss h wanted)

instance parallel_advance [hp : Parallel R p] : Parallel R (advance >>= fun _ => p) :=
  ⟨fun h => hp.run (Simulation.step h)⟩

/-- Leads are compared with the words ahead. -/
instance (lead : Lead) : Parallel R (leads lead) := by
  refine ⟨fun {cursor twin} h => ?_⟩
  rw [leads_eq lead cursor, leads_eq lead twin, Simulation.ahead h]
  exact ⟨rfl, h⟩

/-- Behind a lead the input has not ended, so that this branch has to be parallel inside only. -/
theorem Parallel.ifLeads {lead : Lead} (hp : ParallelInside R p) (hq : Parallel R q) :
    Parallel R (leads lead >>= fun found => if found = true then p else q) := by
  refine ⟨fun {cursor twin} h => ?_⟩
  have hverdict := ((inferInstance : Parallel R (leads lead)).run h).result
  rw [bind_apply, bind_apply, leads_state, leads_state, ← hverdict]
  cases hlead : (leads lead cursor).1 with
  | true =>
    refine hp.run h ?_
    obtain ⟨first, kinds, hkinds, hfirst⟩ :
        ∃ first kinds, lead.kinds = first :: kinds ∧ first ≠ .endOfInput := by
      cases lead <;> exact ⟨_, _, rfl, by decide⟩
    rwa [kind_of_leads (Simulation.valid h).1 hlead hkinds]
  | false => exact hq.run h

/-- Where the end has been looked for and not found, the input has not ended. -/
theorem Parallel.unlessAtEnd (hp : Parallel R p) (hq : ParallelInside R q) :
    Parallel R (atEnd >>= fun ended => if ended = true then p else q) := by
  refine ⟨fun {cursor twin} h => ?_⟩
  have hkind := Simulation.kind_eq h
  rw [bind_apply, bind_apply, atEnd_apply, atEnd_apply, ← hkind]
  by_cases hk : cursor.kind = .endOfInput
  · simpa [hk] using hp.run h
  · simpa [hk] using hq.run h hk

/-- A production that starts behind a token of the given kind. -/
theorem Parallel.ifAccept {wanted : Kind}
    (hp : ∀ {cursor twin : Cursor}, R cursor twin → cursor.kind = wanted →
      Matches R (p cursor.step) (p twin.step))
    (hq : Parallel R q) :
    Parallel R (accept wanted >>= fun found => if found = true then p else q) := by
  refine ⟨fun {cursor twin} h => ?_⟩
  have hkind := Simulation.kind_eq h
  obtain ⟨hk, hrun⟩ | ⟨hk, hrun⟩ := accept_cases cursor wanted
  · rw [bind_apply, bind_apply, hrun, accept_of_eq (hkind ▸ hk)]
    exact hp h hk
  · rw [bind_apply, bind_apply, hrun, accept_of_ne (hkind ▸ hk)]
    exact hq.run h

/-! ### Types, expressions and conditions -/

section

variable {cursor twin : Cursor}

/-- An operator that has just been taken is the same for related cursors, and so is the report about it. -/
theorem matches_mathOperator (h : R cursor twin) (hk : cursor.kind = .mathOp) :
    Matches R (mathOperator cursor.step) (mathOperator twin.step) := by
  obtain ⟨hprevious, hprevious'⟩ := Simulation.previous_step h (by simp [hk])
  have hvalue := Simulation.value_eq h
  cases hop : MathOp.ofSymbol cursor.current.value with
  | unknown symbol =>
    have hreport := Simulation.reportTaken h (by simp [hk]) (.unknownOperator symbol)
    constructor
    · simp [mathOperator, hprevious, hprevious', ← hvalue, hop]
    · simpa [mathOperator, hprevious, hprevious', ← hvalue, hop] using hreport
  | add | sub | mul | div =>
    constructor
    · simp [mathOperator, hprevious, hprevious', ← hvalue, hop]
    · simpa [mathOperator, hprevious, hprevious', ← hvalue, hop] using Simulation.step h

/-- A comparison that has just been taken is the same for related cursors, and so is the report about it. -/
theorem matches_comparison (h : R cursor twin) (hk : cursor.kind = .compareOp) :
    Matches R (comparison cursor.step) (comparison twin.step) := by
  obtain ⟨hprevious, hprevious'⟩ := Simulation.previous_step h (by simp [hk])
  have hvalue := Simulation.value_eq h
  cases hop : CompareOp.ofSymbol cursor.current.value with
  | unknown symbol =>
    have hreport := Simulation.reportTaken h (by simp [hk]) (.unknownComparison symbol)
    constructor
    · simp [comparison, hprevious, hprevious', ← hvalue, hop]
    · simpa [comparison, hprevious, hprevious', ← hvalue, hop] using hreport
  | equals =>
    constructor
    · simp [comparison, hprevious, hprevious', ← hvalue, hop]
    · simpa [comparison, hprevious, hprevious', ← hvalue, hop] using Simulation.step h

end

/-- A type is parallel inside the input, where the token that is taken for it is left behind. -/
theorem parallel_dataType : ParallelInside R dataType := by
  refine ⟨fun {cursor twin} h hend => ?_⟩
  have hkind := Simulation.kind_eq h
  have hvalue := Simulation.value_eq h
  by_cases hk : cursor.kind = .typeKeyword
  · have hrun := expect_of_eq hk
    have hrun' := expect_of_eq (hkind ▸ hk)
    cases htype : DataType.ofKeyword cursor.current.value with
    | unknown text =>
      have hreport := Simulation.reportTaken h hend (.unknownType text)
      constructor
      · simp [dataType, hrun, hrun', ← hvalue, htype]
      · simpa [dataType, hrun, hrun', ← hvalue, htype] using hreport
    | int | char | bool | byte =>
      constructor
      · simp [dataType, hrun, hrun', ← hvalue, htype]
      · simpa [dataType, hrun, hrun', ← hvalue, htype] using Simulation.step h
  · have hreport := Simulation.report h (.unexpected .typeKeyword twin.current.value)
    obtain ⟨hprevious, hprevious'⟩ := Simulation.previous_step hreport hend
    have hrun := expect_of_ne hk
    have hrun' := expect_of_ne (show twin.kind ≠ .typeKeyword from hkind ▸ hk)
    rw [hvalue] at hrun
    constructor
    · simpa [dataType, hrun, hrun', hprevious, hprevious'] using Simulation.value_eq hreport
    · simpa [dataType, hrun, hrun'] using Simulation.step hreport

instance : Parallel R operand :=
  .peek (fun _ _ h => by simp only [h]) fun _ => inferInstance

instance : Parallel R link :=
  .ifAccept (fun h hk => (matches_mathOperator h hk).bind fun _ => inferInstance) inferInstance

instance : Parallel R expr := by
  unfold expr
  infer_instance

instance (opened : Bool) : Parallel R (closeParenIf opened) := by
  unfold closeParenIf
  infer_instance

instance (left : Operand) : Parallel R (conditionFrom left) :=
  .ifAccept (fun h hk => (matches_comparison h hk).bind fun _ => inferInstance) inferInstance

instance : Parallel R condition := by
  unfold condition
  infer_instance

instance : Parallel R argument := by
  unfold argument
  infer_instance

instance : Parallel R arguments := by
  unfold arguments
  infer_instance

/-! ### Statements -/

instance : Parallel R endOfStatement := by
  unfold endOfStatement
  infer_instance

instance : Parallel R assignment := by
  unfold assignment
  infer_instance

/-- A declaration is parallel inside the input, because it starts with its type. -/
theorem parallel_declaration : ParallelInside R declaration :=
  parallel_dataType.bind fun _ => inferInstance

instance : Parallel R call := by
  unfold call
  infer_instance

instance : Parallel R returnValue := by
  unfold returnValue
  infer_instance

instance : Parallel R ret := by
  rw [ret_eq]
  infer_instance

instance : Parallel R unknownStatement :=
  .peek (fun _ _ h => by simp only [h]) fun _ => inferInstance

instance (body : Production Stmt) [Parallel R body] : Parallel R (terminated body) := by
  unfold terminated
  infer_instance

/-- A declaration as a statement is parallel inside the input, with a semicolon behind it or without. -/
theorem parallel_declarationStatement :
    ParallelInside R (terminated (.declaration <$> declaration)) :=
  (parallel_declaration.map _).bind fun _ => inferInstance

instance : Parallel R simpleStatement := by
  apply Parallel.bind inferInstance
  intro _
  apply Parallel.ite inferInstance
  exact .ifLeads parallel_declarationStatement inferInstance

section

variable (nested : Production Stmt) [Parallel R nested]

instance : Parallel R (blockRound nested) := by
  unfold blockRound
  infer_instance

instance : Parallel R (blockOf nested) := by
  unfold blockOf
  infer_instance

instance : Parallel R (otherwiseOf nested) := by
  unfold otherwiseOf
  infer_instance

instance : Parallel R (ifElseOf nested) := by
  rw [ifElseOf_eq]
  infer_instance

instance : Parallel R (whileLoopOf nested) := by
  unfold whileLoopOf
  infer_instance

instance : Parallel R forInit :=
  .ifLeads (parallel_declaration.bind fun _ => inferInstance) inferInstance

instance : Parallel R forCondition := by
  unfold forCondition
  infer_instance

instance : Parallel R forStep := by
  unfold forStep
  infer_instance

instance : Parallel R forHeader := by
  unfold forHeader
  infer_instance

instance : Parallel R (forLoopOf nested) := by
  rw [forLoopOf_eq]
  infer_instance

instance : Parallel R (statementOf nested) := by
  apply Parallel.bind inferInstance
  intro found
  split
  case h_6 => exact .ifLeads parallel_declarationStatement inferInstance
  all_goals infer_instance

end

/-- Statements have the same number of tokens left, so they run in parallel level by level. -/
instance parallel_statement : Parallel R statement := by
  have hwithin (depth : Nat) : Parallel R (statementWithin depth) := by
    induction depth with
    | zero => exact parallel_pure _
    | succ depth ih =>
      unfold statementWithin
      infer_instance
  refine ⟨fun {cursor twin} h => ?_⟩
  show Matches R (statementWithin cursor.remaining cursor) (statementWithin twin.remaining twin)
  rw [Simulation.remaining_eq h]
  exact (hwithin _).run h

instance : Parallel R block := by
  unfold block
  infer_instance

/-! ### Items and programs -/

instance : Parallel R parameter := by
  apply Parallel.bind inferInstance
  intro _
  apply Parallel.ite inferInstance
  refine .unlessAtEnd inferInstance ⟨fun {cursor twin} h hk => ?_⟩
  have hkind := Simulation.kind_eq h
  rw [bind_apply, bind_apply, kind_apply, kind_apply, ← hkind]
  split
  · exact (Parallel.peek (fun _ _ h => by simp only [h]) fun _ => inferInstance).run h
  · exact (parallel_declaration.bind fun _ => inferInstance).run h hk

instance : Parallel R parameters := by
  unfold parameters
  infer_instance

/-- A function is parallel inside the input, because it starts with its type. -/
theorem parallel_function : ParallelInside R function :=
  parallel_dataType.bind fun _ => inferInstance

instance : Parallel R importFile := by
  unfold importFile
  infer_instance

instance : Parallel R entry := by
  unfold entry
  infer_instance

instance : Parallel R topLevel := by
  apply Parallel.bind inferInstance
  intro _
  apply Parallel.ite inferInstance
  refine .ifLeads (parallel_function.bind fun _ => inferInstance) ?_
  refine .ifLeads (parallel_declaration.bind fun _ => inferInstance) ?_
  apply Parallel.bind inferInstance
  intro _
  apply Parallel.ite inferInstance
  apply Parallel.bind inferInstance
  intro _
  apply Parallel.ite inferInstance
  exact .peek (fun _ _ h => by simp only [h]) fun _ => inferInstance

/-- Programs are read in the same way from related cursors. -/
instance parallel_program : Parallel R program := by
  unfold program
  infer_instance

end

end Production

end BraceLang
