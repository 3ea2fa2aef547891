import BraceLang.Proofs.Cases

/-!
# Plans of readings

A `Plan` is a reading spelled out as the operations that it asks of a cursor, and `Plan.run` gives the production
that the plan stands for. A production that some plan stands for is `Planned`. The parts of productions are
planned, and so are their sequences, branches and repetitions, so every construct of the grammar is, up to a whole
program. Hence what all operations have in common, and sequences keep, holds of every production.
-/

set_option autoImplicit false

namespace BraceLang

/-! ### Plans -/

/-- A reading, spelled out as the operations that it asks of a cursor, and what it does with their
answers. -/
inductive Plan : Type → Type 1
  | pure {α : Type} (a : α) : Plan α
  | bind {α β : Type} (first : Plan α) (rest : α → Plan β) : Plan β
  /-- The current token. -/
  | peek : Plan Token
  /-- The token before the current one, or the first. -/
  | previous : Plan Token
  /-- The current token, which is left behind. -/
  | advance : Plan Token
  /-- A complaint about a token. -/
  | report (token : Token) (cause : Cause) : Plan Unit
  /-- Remembers the place, and goes back to it when the check is done. -/
  | lookahead (check : Plan Bool) : Plan Bool
  /-- The number of tokens that are left, which bounds loops and levels. -/
  | remaining : Plan Nat

namespace Plan

/-- The production that a plan stands for, which carries out its operations one after the other. -/
def run : {α : Type} → Plan α → Production α
  | _, .pure a => Pure.pure a
  | _, .bind first rest => first.run >>= fun a => (rest a).run
  | _, .peek => Production.peek
  | _, .previous => Production.previous
  | _, .advance => Production.advance
  | _, .report token cause => Production.reportOn token cause
  | _, .lookahead check => Production.lookahead check.run
  | _, .remaining => fun cursor => (cursor.remaining, cursor)

end Plan

/-! ### Productions that follow a plan -/

namespace Production

/-- A production that some plan stands for. As a class, this is found by itself for what is put together of
such productions. -/
class Planned {α : Type} (p : Production α) : Prop where
  plan : ∃ plan : Plan α, plan.run = p

variable {α β : Type} {p q : Production α} {f : α → Production β}

instance planned_pure (a : α) : Planned (pure a : Production α) :=
  ⟨.pure a, rfl⟩

/-- A sequence is planned if both of its parts are, the second for every value of the first. -/
theorem Planned.bind (hp : Planned p) (hf : ∀ a, Planned (f a)) : Planned (p >>= f) := by
  obtain ⟨first, rfl⟩ := hp.plan
  choose rest hrest using fun a => (hf a).plan
  refine ⟨.bind first rest, ?_⟩
  show (first.run >>= fun a => (rest a).run) = first.run >>= f
  simp only [hrest]

instance planned_bind [hp : Planned p] [hf : ∀ a, Planned (f a)] : Planned (p >>= f) :=
  hp.bind hf

instance planned_map (g : α → β) [hp : Planned p] : Planned (g <$> p) :=
  hp.bind fun a => planned_pure (g a)

/-- A branch is planned if both of its sides are, whatever it is decided by. -/
theorem Planned.ite {b : Prop} [Decidable b] (hp : Planned p) (hq : Planned q) :
    Planned (if b then p else q) := by
  split <;> assumption

instance planned_ite (b : Prop) [Decidable b] [hp : Planned p] [hq : Planned q] :
    Planned (if b then p else q) :=
  hp.ite hq

/-! ### The parts of productions -/

instance : Planned peek := ⟨.peek, rfl⟩

instance : Planned previous := ⟨.previous, rfl⟩

instance : Planned advance := ⟨.advance, rfl⟩

instance (token : Token) (cause : Cause) : Planned (reportOn token cause) := ⟨.report token cause, rfl⟩

instance (check : Production Bool) [h : Planned check] : Planned (lookahead check) := by
  obtain ⟨plan, rfl⟩ := h.plan
  exact ⟨.lookahead plan, rfl⟩

/-- Whatever depends on the number of tokens that are left. -/
theorem planned_remaining {p : Nat → Production α} (h : ∀ n, Planned (p n)) :
    Planned fun cursor => p cursor.remaining cursor := by
  choose plan hplan using fun n => (h n).plan
  refine ⟨.bind .remaining plan, ?_⟩
  funext cursor
  exact congrFun (hplan cursor.remaining) cursor

instance : Planned kind :=
  inferInstanceAs (Planned (Token.kind <$> peek))

instance : Planned atEnd :=
  inferInstanceAs (Planned ((fun token => decide (token.kind = .endOfInput)) <$> peek))

instance (cause : Cause) : Planned (report cause) :=
  inferInstanceAs (Planned (peek >>= fun token => reportOn token cause))

/-- To accept a token is to look at its kind and, if that fits, to advance. -/
theorem accept_eq (wanted : Kind) :
    accept wanted = do
      if (← kind) = wanted then
        let _ ← advance
        return true
      else return false := by
  funext cursor
  by_cases h : cursor.kind = wanted
  · simp [accept_of_eq h, h, advance]
  · simp [accept_of_ne h, h]

instance (wanted : Kind) : Planned (accept wanted) := by
  rw [accept_eq]
  infer_instance

/-- To demand a token is to look at it and to advance in any case, with a report in between if it does not
fit. -/
theorem expect_eq (wanted : Kind) :
    expect wanted = do
      let found ← peek
      if found.kind = wanted then some <$> advance
      else
        report (.unexpected wanted found.value)
        let _ ← advance
        return none := by
  funext cursor
  by_cases h : cursor.kind = wanted
  · simp [expect, h, show cursor.current.kind = wanted from h, advance]
  · simp [expect, h, show ¬ cursor.current.kind = wanted from h, advance, report]

instance (wanted : Kind) : Planned (expect wanted) := by
  rw [expect_eq]
  infer_instance

instance (wanted : Kind) : Planned (expectValue wanted) := by
  unfold expectValue
  infer_instance

instance planned_acceptAll (kinds : List Kind) : Planned (acceptAll kinds) := by
  induction kinds with
  | nil => exact planned_pure true
  | cons kind kinds ih =>
    unfold acceptAll
    infer_instance

instance (lead : Lead) : Planned (leads lead) := by
  unfold leads
  infer_instance

/-- Repeating a planned production is planned, whatever the limit. -/
instance planned_roundsWithin (round : Production (Round α)) [hround : Planned round] (limit : Nat)
    (done : List α) : Planned (roundsWithin round limit done) := by
  induction limit generalizing done with
  | zero => exact planned_pure _
  | succ limit ih =>
    apply hround.bind
    intro outcome
    rcases outcome with _ | element | _ | element
    · exact planned_pure _
    · exact planned_pure _
    · exact ih done
    · exact ih (element :: done)

instance planned_rounds (round : Production (Round α)) [Planned round] : Planned (rounds round) :=
  planned_remaining fun limit => planned_roundsWithin round limit []

/-! ### Types, expressions and conditions -/

instance : Planned dataType := by
  apply Planned.bind inferInstance
  intro token?
  cases token? with
  | none => infer_instance
  | some token =>
    dsimp only
    split <;> infer_instance

instance : Planned operand := by
  unfold operand
  infer_instance

instance : Planned mathOperator := by
  apply Planned.bind inferInstance
  intro token
  split <;> infer_instance

instance : Planned comparison := by
  apply Planned.bind inferInstance
  intro token
  split <;> infer_instance

instance : Planned link := by
  unfold link
  infer_instance

instance : Planned expr := by
  unfold expr
  infer_instance

instance (opened : Bool) : Planned (closeParenIf opened) := by
  unfold closeParenIf
  infer_instance

instance (left : Operand) : Planned (conditionFrom left) := by
  unfold conditionFrom
  infer_instance

instance : Planned condition := by
  unfold condition
  infer_instance

instance : Planned argument := by
  unfold argument
  infer_instance

instance : Planned arguments := by
  unfold arguments
  infer_instance

/-! ### Statements -/

instance : Planned endOfStatement := by
  unfold endOfStatement
  infer_instance

instance : Planned assignment := by
  unfold assignment
  infer_instance

instance : Planned declaration := by
  unfold declaration
  infer_instance

instance : Planned call := by
  unfold call
  infer_instance

instance : Planned returnValue := by
  unfold returnValue
  infer_instance

instance : Planned ret := by
  rw [ret_eq]
  infer_instance

instance : Planned unknownStatement := by
  unfold unknownStatement
  infer_instance

instance (body : Production Stmt) [Planned body] : Planned (terminated body) := by
  unfold terminated
  infer_instance

instance : Planned simpleStatement := by
  apply Planned.bind inferInstance
  intro _
  apply Planned.ite inferInstance
  apply Planned.bind inferInstance
  intro _
  apply Planned.ite inferInstance
  infer_instance

section

variable (nested : Production Stmt) [Planned nested]

instance : Planned (blockRound nested) := by
  unfold blockRound
  infer_instance

instance : Planned (blockOf nested) := by
  unfold blockOf
  infer_instance

instance : Planned (otherwiseOf nested) := by
  unfold otherwiseOf
  infer_instance

instance : Planned (ifElseOf nested) := by
  rw [ifElseOf_eq]
  infer_instance

instance : Planned (whileLoopOf nested) := by
  unfold whileLoopOf
  infer_instance

instance : Planned forInit := by
  unfold forInit
  infer_instance

instance : Planned forCondition := by
  unfold forCondition
  infer_instance

instance : Planned forStep := by
  unfold forStep
  infer_instance

instance : Planned forHeader := by
  unfold forHeader
  infer_instance

instance : Planned (forLoopOf nested) := by
  rw [forLoopOf_eq]
  infer_instance

instance : Planned (statementOf nested) := by
  apply Planned.bind inferInstance
  intro found
  split <;> infer_instance

end

/-- A statement follows a plan, whatever the number of levels. -/
instance planned_statementWithin (depth : Nat) : Planned (statementWithin depth) := by
  induction depth with
  | zero => exact planned_pure _
  | succ depth ih =>
    unfold statementWithin
    infer_instance

instance planned_statement : Planned statement :=
  planned_remaining planned_statementWithin

instance : Planned block := by
  unfold block
  infer_instance

instance : Planned ifElse := by
  unfold ifElse
  infer_instance

instance : Planned whileLoop := by
  unfold whileLoop
  infer_instance

instance : Planned forLoop := by
  unfold forLoop
  infer_instance

/-! ### Items and programs -/

instance : Planned parameter := by
  apply Planned.bind inferInstance
  intro _
  apply Planned.ite inferInstance
  apply Planned.bind inferInstance
  intro _
  apply Planned.ite inferInstance
  infer_instance

instance : Planned parameters := by
  unfold parameters
  infer_instance

instance : Planned function := by
  unfold function
  infer_instance

instance : Planned importFile := by
  unfold importFile
  infer_instance

instance : Planned entry := by
  unfold entry
  infer_instance

instance : Planned topLevel := by
  apply Planned.bind inferInstance
  intro _
  apply Planned.ite inferInstance
  apply Planned.bind inferInstance
  intro _
  apply Planned.ite inferInstance
  apply Planned.bind inferInstance
  intro _
  apply Planned.ite inferInstance
  apply Planned.bind inferInstance
  intro _
  apply Planned.ite inferInstance
  infer_instance

instance : Planned program := by
  unfold program
  infer_instance

end Production

end BraceLang
