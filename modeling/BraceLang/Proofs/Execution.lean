import BraceLang.Proofs.Forward

/-!
# Reading never gets stuck

Productions are total: beyond the stream they find an end token, and where no place is remembered they go back
nowhere. Neither ever happens. `Plan.execute?` follows a plan and fails where a token is wanted from outside the
stream, or where the cursor is to go back and no place is remembered. From a valid cursor no plan whatever fails,
and it comes to what its production comes to (`Plan.execute?_eq`): what an operation leaves behind is valid again,
and looking ahead takes away the place that it has added. So whatever plan a production follows, it `Executes`.
-/

set_option autoImplicit false

namespace BraceLang

/-- A token inside the stream is there, so that no default is ever taken in its place. -/
theorem Cursor.getElem?_eq_tokenAt {cursor : Cursor} {place : Nat} (h : place < cursor.tokens.size) :
    cursor.tokens[place]? = some (cursor.tokenAt place) := by
  simp [tokenAt, Array.getD_eq_getD_getElem?, h]

/-- Marking a cursor changes neither its place nor its stream, so that a valid one stays valid. -/
theorem Cursor.Valid.mark {cursor : Cursor} (h : cursor.Valid) : cursor.mark.Valid :=
  ⟨h.inside, h.closed⟩

namespace Plan

/-- Follows a plan as long as every token that it wants is in the stream and every place that it goes back to
has been remembered. -/
def execute? : {α : Type} → Plan α → Cursor → Option (α × Cursor)
  | _, .pure a, cursor => some (a, cursor)
  | _, .bind first rest, cursor => do
    let (a, after) ← first.execute? cursor
    (rest a).execute? after
  | _, .peek, cursor => do
    let token ← cursor.tokens[cursor.pos]?
    return (token, cursor)
  | _, .previous, cursor => do
    let token ← cursor.tokens[cursor.pos - 1]?
    return (token, cursor)
  | _, .advance, cursor => do
    let token ← cursor.tokens[cursor.pos]?
    return (token, cursor.step)
  | _, .report token cause, cursor => some ((), cursor.reportAt cause (cursor.positionOf token))
  | _, .lookahead check, cursor => do
    let (verdict, after) ← check.execute? cursor.mark
    let back ← after.restore?
    return (verdict, back)
  | _, .remaining, cursor => some (cursor.remaining, cursor)

variable {α : Type}

/-- From a valid cursor no plan fails, and it does what its production does. -/
theorem execute?_eq (plan : Plan α) {cursor : Cursor} (h : cursor.Valid) :
    plan.execute? cursor = some (plan.run cursor) := by
  induction plan generalizing cursor with
  | pure a => rfl
  | bind first rest ihfirst ihrest =>
    have hafter := h.reaches ((Production.forward_run first).reaches cursor)
    rw [execute?, ihfirst h]
    exact ihrest (first.run cursor).1 hafter
  | peek =>
    rw [execute?, Cursor.getElem?_eq_tokenAt h.inside]
    rfl
  | previous =>
    rw [execute?, Cursor.getElem?_eq_tokenAt (Nat.lt_of_le_of_lt (Nat.sub_le _ _) h.inside)]
    rfl
  | advance =>
    rw [execute?, Cursor.getElem?_eq_tokenAt h.inside]
    rfl
  | report token cause => rfl
  | lookahead check ih =>
    -- the place that was added is on top when the check is done, so it is there to go back to
    have hplaces := ((Production.forward_run check).reaches cursor.mark).checkpoints
    have hback := Cursor.restore?_of_checkpoints hplaces
    have hrun : (lookahead check).run cursor =
        ((check.run cursor.mark).1, (check.run cursor.mark).2.restore?.getD (check.run cursor.mark).2) := rfl
    rw [execute?, ih h.mark, hrun, hback]
    simp [hback]
  | remaining => rfl

end Plan

/-- Whether a production can be carried out at a cursor: it follows a plan, and each plan that it follows finds the
tokens and the places that it wants, and comes to what the production comes to. -/
structure Production.Executes {α : Type} (p : Production α) (cursor : Cursor) : Prop where
  planned : ∃ plan : Plan α, plan.run = p
  execute?_eq : ∀ plan : Plan α, plan.run = p → plan.execute? cursor = some (p cursor)

/-- Every planned production can be carried out at every valid cursor. -/
theorem Production.executes {α : Type} (p : Production α) [hp : Planned p] {cursor : Cursor} (h : cursor.Valid) :
    Executes p cursor where
  planned := hp.plan
  execute?_eq plan hplan := by rw [plan.execute?_eq h, hplan]

end BraceLang
