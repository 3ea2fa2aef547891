import BraceLang.Cursor.Script
import BraceLang.Proofs.Plans

/-!
# Productions only go forward

`Reaches` says all that reading a construct may do to a cursor: it moves forward, inside the stream if it
started there, and adds to the diagnostics; tokens, file and checkpoints stay. A production whose every run
does no more than that is `Forward`. Every plan is forward (`forward_run`), because its operations are, and
so is every construct of the grammar. Where the production of inner statements is left open, all that is built
around it is forward if it is.

A production is `Strict` if it also leaves its first token behind, unless that is the last token of the
stream. Productions that start by demanding a token are strict, and so is every statement.
-/

set_option autoImplicit false

namespace BraceLang

/-- Whether reading may lead from one cursor to another. -/
structure Cursor.Reaches (before after : Cursor) : Prop where
  tokens : after.tokens = before.tokens
  file : after.file = before.file
  checkpoints : after.checkpoints = before.checkpoints
  pos_le : before.pos ≤ after.pos
  inside : before.pos < before.tokens.size → after.pos < before.tokens.size
  diagnostics : before.diagnostics.toList <+: after.diagnostics.toList

namespace Cursor

variable {first second third : Cursor}

/-- A cursor reaches itself: nothing needs to happen on the way. -/
theorem Reaches.refl (cursor : Cursor) : cursor.Reaches cursor :=
  ⟨rfl, rfl, rfl, Nat.le_refl _, id, List.prefix_refl _⟩

/-- What is reached from a cursor that is reached is reached itself, so that forward productions can be put
in a row. -/
theorem Reaches.trans (h : first.Reaches second) (h' : second.Reaches third) :
    first.Reaches third where
  tokens := h'.tokens.trans h.tokens
  file := h'.file.trans h.file
  checkpoints := h'.checkpoints.trans h.checkpoints
  pos_le := Nat.le_trans h.pos_le h'.pos_le
  inside hlt := by
    have hmid : second.pos < second.tokens.size := h.tokens ▸ h.inside hlt
    exact h.tokens ▸ h'.inside hmid
  diagnostics := h.diagnostics.trans h'.diagnostics

/-- A step goes forward by one token, or stays on the last one. -/
theorem reaches_step (cursor : Cursor) : cursor.Reaches cursor.step := by
  unfold step
  split
  · rename_i hlt
    exact ⟨rfl, rfl, rfl, Nat.le_succ _, fun _ => hlt, List.prefix_refl _⟩
  · exact .refl cursor

/-- A report goes nowhere and adds a diagnostic behind the others. -/
theorem reaches_reportAt (cursor : Cursor) (cause : Cause) (position : Position) :
    cursor.Reaches (cursor.reportAt cause position) :=
  ⟨rfl, rfl, rfl, Nat.le_refl _, id, by simp [reportAt]⟩

/-- Going back with the places of a cursor that has just been marked goes back to that cursor's place. -/
theorem restore?_of_checkpoints {cursor last : Cursor} (h : last.checkpoints = cursor.mark.checkpoints) :
    last.restore? = some { last with pos := cursor.pos, checkpoints := cursor.checkpoints } := by
  unfold restore?
  rw [h]
  rfl

/-- What a valid cursor reaches is valid, for the stream is the same and is not left. -/
theorem Valid.reaches (h : first.Valid) (hr : first.Reaches second) : second.Valid :=
  ⟨hr.tokens ▸ hr.inside h.inside, hr.tokens ▸ h.closed⟩

/-- Going forward leaves no more tokens than there were. -/
theorem Reaches.remaining_le (h : first.Reaches second) : second.remaining ≤ first.remaining := by
  have := h.pos_le
  unfold remaining
  rw [h.tokens]
  omega

/-- Going forward past a token leaves strictly fewer, which is what ends the loops. -/
theorem Reaches.remaining_lt (h : first.Reaches second) (hv : first.Valid)
    (hlt : first.pos < second.pos) : second.remaining < first.remaining := by
  have := hv.inside
  unfold remaining
  rw [h.tokens]
  omega

/-- If nothing has been reported on the way, nothing was reported on either part of it. -/
theorem Reaches.quiet (h : first.Reaches second) (h' : second.Reaches third)
    (hq : third.diagnostics = first.diagnostics) :
    second.diagnostics = first.diagnostics ∧ third.diagnostics = second.diagnostics := by
  have hsecond : second.diagnostics = first.diagnostics := by
    have hle := h.diagnostics
    have hge := h'.diagnostics
    rw [hq] at hge
    exact Array.toList_inj.1 (hge.eq_of_length_le hle.length_le)
  exact ⟨hsecond, hq.trans hsecond.symm⟩

end Cursor

namespace Production

open Cursor (Reaches reaches_step reaches_reportAt)

/-- A production that only moves forward and reports. -/
class Forward {α : Type} (p : Production α) : Prop where
  reaches : ∀ cursor : Cursor, cursor.Reaches (p cursor).2

variable {α β : Type} {p q : Production α} {f : α → Production β}

instance forward_pure (a : α) : Forward (pure a : Production α) :=
  ⟨fun cursor => .refl cursor⟩

/-- A sequence goes forward if both of its parts do. -/
theorem Forward.bind (hp : Forward p) (hf : ∀ a, Forward (f a)) : Forward (p >>= f) :=
  ⟨fun cursor => (hp.reaches cursor).trans ((hf _).reaches _)⟩

instance forward_bind [hp : Forward p] [hf : ∀ a, Forward (f a)] : Forward (p >>= f) :=
  hp.bind hf

instance forward_map (g : α → β) [hp : Forward p] : Forward (g <$> p) :=
  ⟨fun cursor => hp.reaches cursor⟩

/-- A branch goes forward if both of its sides do, whatever it is decided by. -/
theorem Forward.ite {b : Prop} [Decidable b] (hp : Forward p) (hq : Forward q) :
    Forward (if b then p else q) := by
  split <;> assumption

instance forward_ite (b : Prop) [Decidable b] [hp : Forward p] [hq : Forward q] :
    Forward (if b then p else q) :=
  hp.ite hq

/-! ### Plans -/

/-- Looking ahead goes forward if the check does: it comes back to its place with what has been reported. -/
theorem Forward.lookahead {check : Production Bool} (h : Forward check) : Forward (lookahead check) := by
  refine ⟨fun cursor => ?_⟩
  have hreach := h.reaches cursor.mark
  have hback := Cursor.restore?_of_checkpoints hreach.checkpoints
  have hrun : (Production.lookahead check cursor).2 = (check cursor.mark).2.restore?.getD (check cursor.mark).2 :=
    rfl
  rw [hrun, hback]
  exact ⟨hreach.tokens, hreach.file, rfl, Nat.le_refl _, id, hreach.diagnostics⟩

/-- Every plan goes forward, because each of its operations does. The induction is on the plan. -/
theorem forward_run (plan : Plan α) : Forward plan.run := by
  induction plan with
  | pure a => exact forward_pure a
  | bind first rest ihfirst ihrest => exact ihfirst.bind ihrest
  | peek | previous | remaining => exact ⟨fun cursor => .refl cursor⟩
  | advance => exact ⟨fun cursor => reaches_step cursor⟩
  | report token cause => exact ⟨fun cursor => reaches_reportAt cursor cause _⟩
  | lookahead check ih => exact ih.lookahead

/-- So every planned production goes forward. -/
instance (priority := low) forward_of_planned [hp : Planned p] : Forward p := by
  obtain ⟨plan, rfl⟩ := hp.plan
  exact forward_run plan

/-! ### Loops and statements around an open production -/

/-- Repeating a forward production goes forward, whatever the limit. -/
instance forward_roundsWithin (round : Production (Round α)) [hround : Forward round]
    (limit : Nat) (done : List α) : Forward (roundsWithin round limit done) := by
  induction limit generalizing done with
  | zero => exact forward_pure _
  | succ limit ih =>
    apply hround.bind
    intro outcome
    rcases outcome with _ | element | _ | element
    · exact forward_pure _
    · exact forward_pure _
    · exact ih done
    · exact ih (element :: done)

instance forward_rounds (round : Production (Round α)) [Forward round] :
    Forward (rounds round) :=
  ⟨fun cursor => (forward_roundsWithin round cursor.remaining []).reaches cursor⟩

instance (body : Production Stmt) [Forward body] : Forward (terminated body) := by
  unfold terminated
  infer_instance

section

variable (nested : Production Stmt) [Forward nested]

instance : Forward (blockRound nested) := by
  unfold blockRound
  infer_instance

instance : Forward (blockOf nested) := by
  unfold blockOf
  infer_instance

instance : Forward (otherwiseOf nested) := by
  unfold otherwiseOf
  infer_instance

instance : Forward (ifElseOf nested) := by
  rw [ifElseOf_eq]
  infer_instance

instance : Forward (whileLoopOf nested) := by
  unfold whileLoopOf
  infer_instance

instance : Forward (forLoopOf nested) := by
  rw [forLoopOf_eq]
  infer_instance

end

/-- Every construct that can be asked for follows a plan, and so is read forward. -/
instance planned_construct (construct : Cursor.Construct) : Planned construct.production := by
  cases construct <;> unfold Cursor.Construct.production <;> infer_instance

/-! ### Leaving a token behind -/

/-- A production that leaves its first token behind, unless that is the last of the stream. -/
def Strict (p : Production α) : Prop :=
  ∀ cursor : Cursor, cursor.pos + 1 < cursor.tokens.size → cursor.pos < (p cursor).2.pos

/-- A sequence is strict if its first part is and nothing behind that goes back. -/
theorem Strict.bind (hp : Strict p) (hf : ∀ a, Forward (f a)) : Strict (p >>= f) :=
  fun cursor h => Nat.lt_of_lt_of_le (hp cursor h) ((hf _).reaches _).pos_le

/-- Looking around before a strict production does no harm, since it leaves the cursor in place. -/
theorem Strict.look (hp : ∀ cursor, (p cursor).2 = cursor) (hf : ∀ a, Strict (f a)) :
    Strict (p >>= f) := by
  intro cursor h
  have := hf (p cursor).1 cursor h
  rwa [bind_apply, hp cursor]

/-- To change the value of a production does not change what it leaves behind. -/
theorem Strict.map (g : α → β) (hp : Strict p) : Strict (g <$> p) :=
  fun cursor h => hp cursor h

/-- A branch is strict if both of its sides are, whatever it is decided by. -/
theorem Strict.ite {b : Prop} [Decidable b] (hp : Strict p) (hq : Strict q) :
    Strict (if b then p else q) := by
  split <;> assumption

/-- A step from a token that is not the last one goes on by one. -/
theorem step_pos {cursor : Cursor} (h : cursor.pos + 1 < cursor.tokens.size) :
    cursor.step.pos = cursor.pos + 1 := by
  rw [Cursor.step, if_pos h]

/-- To advance leaves the token behind that the cursor stands on. -/
theorem strict_advance : Strict advance := by
  intro cursor h
  show cursor.pos < cursor.step.pos
  rw [step_pos h]
  exact Nat.lt_succ_self _

/-- A demanded token is left behind whether or not it is of the right kind. -/
theorem strict_expect (wanted : Kind) : Strict (expect wanted) := by
  intro cursor h
  unfold expect
  split
  · exact strict_advance cursor h
  · exact strict_advance (cursor.report _) h

/-- To demand a token for its value leaves it behind, as to demand it does. -/
theorem strict_expectValue (wanted : Kind) : Strict (expectValue wanted) :=
  (strict_expect wanted).bind fun _ => inferInstance

/-- A type is strict, because its token is demanded. Whether it is known makes no difference. -/
theorem strict_dataType : Strict dataType := by
  refine (strict_expect _).bind fun token? => ?_
  cases token? with
  | none => infer_instance
  | some token =>
    dsimp only
    split <;> infer_instance

/-- An assignment leaves the name behind that it starts with, or what stands in its place. -/
theorem strict_assignment : Strict assignment :=
  (strict_expectValue _).bind fun _ => inferInstance

/-- A declaration leaves the type behind that it starts with, or what stands in its place. -/
theorem strict_declaration : Strict declaration :=
  strict_dataType.bind fun _ => inferInstance

/-- A call leaves the name behind that it starts with, or what stands in its place. -/
theorem strict_call : Strict call :=
  (strict_expectValue _).bind fun _ => inferInstance

/-- A return leaves its word behind. -/
theorem strict_ret : Strict ret := by
  rw [ret_eq]
  exact (strict_expect _).bind fun _ => inferInstance

/-- A token that starts no statement is left behind once it has been reported, so that reading never gets
stuck on it. -/
theorem strict_unknownStatement : Strict unknownStatement := by
  refine .look (fun _ => rfl) fun found => ?_
  intro cursor h
  exact strict_advance (cursor.report _) h

/-- A semicolon that may follow keeps a strict statement strict. -/
theorem Strict.terminated {body : Production Stmt} (h : Strict body) : Strict (terminated body) :=
  h.bind fun _ => inferInstance

/-- A simple statement leaves a token behind, whichever of the alternatives is taken. -/
theorem strict_simpleStatement : Strict simpleStatement := by
  refine .look (leads_state _) fun _ => strict_call.terminated.ite ?_
  refine .look (leads_state _) fun _ => (strict_declaration.map _).terminated.ite ?_
  refine .look (leads_state _) fun _ => (strict_assignment.map _).terminated.ite ?_
  exact .look (fun _ => rfl) fun _ => strict_ret.terminated.ite strict_unknownStatement

/-- A block leaves its opening bracket behind, or what stands in its place. -/
theorem strict_blockOf (nested : Production Stmt) [Forward nested] : Strict (blockOf nested) :=
  (strict_expect _).bind fun _ => inferInstance

/-- A statement leaves a token behind, whatever reads the statements inside it. -/
theorem strict_statementOf (nested : Production Stmt) [Forward nested] :
    Strict (statementOf nested) := by
  refine .look (fun _ => rfl) fun found => ?_
  split
  · exact (strict_expect _).bind fun _ => inferInstance
  · exact (strict_expect _).bind fun _ => inferInstance
  · rw [forLoopOf_eq]
    exact (strict_expect _).bind fun _ => inferInstance
  · exact (strict_blockOf nested).map _
  · exact strict_advance.bind fun _ => inferInstance
  · refine .look (leads_state _) fun _ => ?_
    exact (strict_declaration.map _).terminated.ite strict_simpleStatement

/-- A statement leaves a token behind, at any depth and also where the token starts no statement. -/
theorem strict_statement : Strict statement := by
  intro cursor h
  have hsucc : ∃ depth, cursor.remaining = depth + 1 :=
    Nat.exists_eq_succ_of_ne_zero (by unfold Cursor.remaining; omega)
  obtain ⟨depth, hdepth⟩ := hsucc
  have := strict_statementOf (statementWithin depth) cursor h
  rwa [statement, hdepth, statementWithin]

/-- A function leaves the type behind that it starts with. -/
theorem strict_function : Strict function :=
  strict_dataType.bind fun _ => inferInstance

/-- An import leaves its word behind. -/
theorem strict_importFile : Strict importFile :=
  (strict_expect _).bind fun _ => inferInstance

/-- The entry point leaves its word behind. -/
theorem strict_entry : Strict entry :=
  (strict_expect _).bind fun _ => inferInstance

end Production

end BraceLang
