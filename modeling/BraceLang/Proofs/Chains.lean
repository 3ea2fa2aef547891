import BraceLang.Proofs.Checkpoints
import BraceLang.Proofs.Unbounded

/-!
# Expressions by recursion

An expression is read by a loop. It gathers the operators and operands of a chain from left to right, and the
expression is built afterwards from the right, so neither its result nor its reports come about in the order in which
the grammar nests. The grammar itself is recursive: an operand, and behind an operator a whole expression on its right
(`recursive`). From every valid cursor both give the same expression and leave the cursor the same in all its parts
(`expr_eq_recursive`), because the loop behind the first operator of a chain is the loop of the expression on its right
(`expr_of_operator`). Whatever has been asked of a cursor, it is valid.
-/

set_option autoImplicit false

namespace BraceLang.Production

open Cursor (Reaches Valid)

variable {cursor : Cursor}

/-! ### Taking an operator -/

/-- The operator that a cursor stands on and the cursor behind it. An operator without a meaning is reported where it
stands. -/
def takeOperator (cursor : Cursor) : MathOp × Cursor :=
  match MathOp.ofSymbol cursor.current.value with
  | .unknown symbol =>
    (.unknown symbol, cursor.step.reportAt (.unknownOperator symbol) (cursor.positionOf cursor.current))
  | op => (op, cursor.step)

/-- An operator is resolved by its token, also after the token has been left behind. -/
theorem mathOperator_step (hc : cursor.Valid) (hk : cursor.kind = .mathOp) :
    mathOperator cursor.step = takeOperator cursor := by
  have hprevious := hc.previous_step (by simp [hk])
  have hposition : cursor.step.positionOf cursor.current = cursor.positionOf cursor.current := by
    unfold Cursor.positionOf
    rw [(Cursor.reaches_step cursor).file]
  obtain ⟨symbol, hop, hrun⟩ | ⟨hop, hrun⟩ := mathOperator_cases cursor.step
  · rw [hprevious] at hop hrun
    rw [hrun, takeOperator, hop, hposition]
  · rw [hprevious] at hop hrun
    rw [hrun, takeOperator]
    split
    · rename_i symbol hsymbol
      exact absurd hsymbol (hop symbol)
    · rfl

/-- Taking an operator goes forward past its token, and reports it there if it has no meaning. -/
theorem reaches_takeOperator (hc : cursor.Valid) (hk : cursor.kind = .mathOp) :
    cursor.step.Reaches (takeOperator cursor).2 := by
  rw [← mathOperator_step hc hk]
  exact Forward.reaches _

/-- Fewer tokens are left behind an operator than were left before the operand in front of it. -/
theorem remaining_takeOperator_lt (hc : cursor.Valid) (hk : (operand cursor).2.kind = .mathOp) :
    (takeOperator (operand cursor).2).2.remaining < cursor.remaining := by
  have hoperand := Forward.reaches (p := operand) cursor
  have hmiddle := hc.reaches hoperand
  have htaken := reaches_takeOperator hmiddle hk
  have hmoved := Nat.lt_of_lt_of_le (pos_lt_step hmiddle (by simp [hk])) htaken.pos_le
  have hfewer := ((Cursor.reaches_step _).trans htaken).remaining_lt hmiddle hmoved
  exact Nat.lt_of_lt_of_le hfewer hoperand.remaining_le

/-- Behind an operand and the operator after it, the cursor is still on a token of its stream. -/
theorem valid_takeOperator (hc : cursor.Valid) (hk : (operand cursor).2.kind = .mathOp) :
    (takeOperator (operand cursor).2).2.Valid := by
  have hmiddle := hc.reaches (Forward.reaches (p := operand) cursor)
  exact hmiddle.reaches ((Cursor.reaches_step _).trans (reaches_takeOperator hmiddle hk))

/-! ### The recursive reading -/

/-- An expression as the grammar has it: an operand alone, or an operand, an operator and an expression on the right. -/
def recursive (cursor : Cursor) (hc : cursor.Valid) : Expr × Cursor :=
  let left := operand cursor
  if hk : left.2.kind = .mathOp then
    let op := takeOperator left.2
    let right := recursive op.2 (valid_takeOperator hc hk)
    (.binary op.1 left.1 right.1, right.2)
  else (.operand left.1, left.2)
termination_by cursor.remaining
decreasing_by exact remaining_takeOperator_lt hc hk

/-- An expression is its first operand and the links that the loop reads behind it, put together as a
chain. -/
theorem expr_apply (cursor : Cursor) :
    expr cursor = (.chain (operand cursor).1 (rounds link (operand cursor).2).1,
      (rounds link (operand cursor).2).2) := rfl

/-- Without an operator behind it, an operand is the expression. -/
theorem expr_of_no_operator (hc : cursor.Valid) (hk : (operand cursor).2.kind ≠ .mathOp) :
    expr cursor = (.operand (operand cursor).1, (operand cursor).2) := by
  have hmiddle := hc.reaches (Forward.reaches (p := operand) cursor)
  obtain ⟨-, hlink⟩ | ⟨hop, -⟩ := link_cases (operand cursor).2
  · rw [expr_apply, rounds_eq progressive_link hmiddle, hlink, Expr.chain_nil]
  · exact absurd hop hk

/-- With an operator behind it, an operand is the left side, and an expression is read as the right one. -/
theorem expr_of_operator (hc : cursor.Valid) (hk : (operand cursor).2.kind = .mathOp) :
    expr cursor = (.binary (takeOperator (operand cursor).2).1 (operand cursor).1
      (expr (takeOperator (operand cursor).2).2).1, (expr (takeOperator (operand cursor).2).2).2) := by
  have hmiddle := hc.reaches (Forward.reaches (p := operand) cursor)
  obtain ⟨hop, -⟩ | ⟨-, hlink⟩ := link_cases (operand cursor).2
  · exact absurd hk hop
  · rw [mathOperator_step hmiddle hk] at hlink
    have hrounds := rounds_eq progressive_link hmiddle
    rw [hlink] at hrounds
    simp only at hrounds
    rw [expr_apply cursor, hrounds, Expr.chain_cons, expr_apply (takeOperator (operand cursor).2).2]

/-- The loop that reads an expression does as the recursive grammar: it gives the same expression and leaves the cursor
at the same place with the same places remembered and the same reports in the same order. This holds of every cursor on
a token of a closed stream, and whatever clients have asked of a cursor, it is such a cursor. -/
theorem expr_eq_recursive :
    (∀ (cursor : Cursor) (hc : cursor.Valid), expr cursor = recursive cursor hc) ∧
    ∀ (tokens : List Token) (file : String) (clients : List Cursor.Client),
      ((Cursor.ofTokens tokens file).after clients).Valid := by
  refine ⟨fun cursor hc => ?_, fun tokens file clients => ?_⟩
  -- the right side of an operator starts at a later token
  · fun_induction recursive cursor hc with
    | case1 cursor hc left hk op right ih => rw [expr_of_operator hc hk, ih]
    | case2 cursor hc left hk => exact expr_of_no_operator hc hk
  · exact ((Cursor.moves_after _ clients).sound (Cursor.sound_ofTokens tokens file)).valid

/-- An operator without a meaning, and an operator in the place of an operand, which takes part in the chain. -/
theorem expr_eq_recursive_sample :
    let tokens : List Token :=
      [⟨.identifier, "x", .covering "shell" 0 1⟩, ⟨.mathOp, "%", .covering "shell" 2 1⟩,
       ⟨.mathOp, "+", .covering "shell" 4 1⟩, ⟨.literal, "1", .covering "shell" 6 1⟩,
       .ending (.covering "shell" 7 0)]
    ∃ hc : (Cursor.ofTokens tokens "shell").Valid,
      (recursive (.ofTokens tokens "shell") hc).1 =
        .binary (.unknown "%") (.identifier "x") (.binary .add (.missing "+") (.operand (.literal "1"))) ∧
      (recursive (.ofTokens tokens "shell") hc).2.pos = 4 ∧
      (recursive (.ofTokens tokens "shell") hc).2.diagnostics.toList =
        [⟨.unknownOperator "%", .ofBytes "shell" 2⟩,
         ⟨.misplaced "+" "expected identifier or literal", .ofBytes "shell" 4⟩] := by
  intro tokens
  have hc : (Cursor.ofTokens tokens "shell").Valid := Cursor.valid_ofTokens tokens "shell"
  refine ⟨hc, ?_⟩
  rw [← expr_eq_recursive.1 (.ofTokens tokens "shell") hc]
  decide

end BraceLang.Production
