import BraceLang.Proofs.Complaints
import BraceLang.Proofs.Triple

/-!
# Complaints come in order, and at most twice about a token

A token that does not fit is often seen by several productions: an operand that is missing is reported and its
token left to whoever comes next, and so is the bracket of a block that starts before the parameters of its
function end. Still no token but an end token is complained about more than twice, and complaints never go
back to an earlier token. This holds for every token stream (`Word.complaints_orderly`).

`Cursor.Orderly` says so of what has been reported so far. How often the current token may already have been
complained about is the limit in `Cursor.Within`, and every production is described by the limit that it needs
and the limit that it leaves:

* a step leaves the limit 0, since nothing ahead has been complained about;
* an operand needs the limit 0 and leaves 1, for the token that it may complain about and leave in place;
* a token that is demanded needs the limit 1, for the complaint if it is another, and leaves 0, since it is
  passed over in any case. It does not need a limit if it is there (`Cursor.Ready`).

An operator, a comparison or a type may be complained about after it has been taken. That is still in order,
because the token behind it is new then.
-/

set_option autoImplicit false

namespace BraceLang

/-- How often the token at a place is complained about. -/
def Complaint.times (complaints : List Complaint) (place : Nat) : Nat :=
  complaints.countP fun complaint => complaint.place = place

namespace Complaint

variable {complaints : List Complaint} {place : Nat}

/-- One more complaint counts for the token that it is about, and for no other. -/
theorem times_snoc (complaints : List Complaint) (cause : Cause) (here place : Nat) :
    times (complaints ++ [⟨cause, here⟩]) place =
      times complaints place + if here = place then 1 else 0 := by
  simp [times, List.countP_append, List.countP_cons]

/-- Where all complaints are about earlier tokens, this one has not been complained about. -/
theorem times_eq_zero (h : ∀ complaint ∈ complaints, complaint.place < place) :
    times complaints place = 0 := by
  refine List.countP_eq_zero.2 fun complaint hmem => ?_
  have := h complaint hmem
  simp only [decide_eq_true_eq]
  omega

end Complaint

open Complaint (times)

/-! ### Limits -/

namespace Cursor

/-- The complaints so far are in order, none is about a token ahead, and there are at most two about any token
other than an end token. -/
structure Orderly (complaints : List Complaint) (cursor : Cursor) : Prop where
  traced : cursor.Traced complaints
  ordered : complaints.Pairwise fun complaint next => complaint.place ≤ next.place
  behind : ∀ complaint ∈ complaints, complaint.place ≤ cursor.pos
  twice : ∀ place, (cursor.tokenAt place).kind ≠ .endOfInput → times complaints place ≤ 2

/-- The complaints so far are orderly, and at most `limit` of them are about the current token unless that is
an end token. -/
def Within (limit : Nat) (cursor : Cursor) : Prop :=
  ∃ complaints, cursor.Orderly complaints ∧
    (cursor.kind ≠ .endOfInput → times complaints cursor.pos ≤ limit)

/-- A token of the given kind is about to be demanded. If it is there, no limit is needed. -/
structure Ready (wanted : Kind) (cursor : Cursor) : Prop where
  orderly : ∃ complaints, cursor.Orderly complaints
  within : cursor.kind ≠ wanted → cursor.Within 1

variable {cursor : Cursor} {complaints : List Complaint} {limit : Nat}

/-- A limit implies every looser one, which is how what a production leaves fits what the next one needs. -/
theorem Within.mono (h : cursor.Within limit) {more : Nat} (hle : limit ≤ more) : cursor.Within more := by
  obtain ⟨complaints, horderly, hlimit⟩ := h
  exact ⟨complaints, horderly, fun hk => Nat.le_trans (hlimit hk) hle⟩

/-- Where one more complaint is allowed, a token of any kind may be demanded. -/
theorem Within.ready (h : cursor.Within 1) (wanted : Kind) : cursor.Ready wanted :=
  ⟨⟨h.choose, h.choose_spec.1⟩, fun _ => h⟩

/-- Where a complaint is about the last of the tokens complained about, or one behind it, order is kept. -/
theorem Orderly.snoc (h : cursor.Orderly complaints) {after : Cursor} {cause : Cause} {place : Nat}
    (hreach : cursor.Reaches after) (htraced : after.Traced (complaints ++ [⟨cause, place⟩]))
    (hle : ∀ complaint ∈ complaints, complaint.place ≤ place) (hplace : place ≤ after.pos)
    (hlimit : (cursor.tokenAt place).kind ≠ .endOfInput → times complaints place ≤ 1) :
    after.Orderly (complaints ++ [⟨cause, place⟩]) where
  traced := htraced
  ordered := by
    refine List.pairwise_append.2 ⟨h.ordered, List.pairwise_singleton _ _, fun complaint hmem next hnext => ?_⟩
    obtain rfl := List.mem_singleton.1 hnext
    exact hle complaint hmem
  behind := by
    intro complaint hmem
    obtain hmem | hmem := List.mem_append.1 hmem
    · exact Nat.le_trans (h.behind complaint hmem) hreach.pos_le
    · obtain rfl := List.mem_singleton.1 hmem
      exact hplace
  twice := by
    intro other hk
    have htoken : after.tokenAt other = cursor.tokenAt other := by rw [tokenAt, tokenAt, hreach.tokens]
    rw [htoken] at hk
    have hother := h.twice other hk
    -- only the place that the new complaint is about gains one
    rw [Complaint.times_snoc]
    split
    · rename_i heq
      subst heq
      have := hlimit hk
      omega
    · omega

/-- Nothing ahead has been complained about. Only an end token cannot be left behind. -/
theorem Orderly.step (h : cursor.Orderly complaints)
    (hmore : cursor.kind ≠ .endOfInput → cursor.pos + 1 < cursor.tokens.size) : cursor.step.Within 0 := by
  by_cases hlast : cursor.pos + 1 < cursor.tokens.size
  · have hstep : cursor.step.pos = cursor.pos + 1 := by rw [Cursor.step, if_pos hlast]
    refine ⟨complaints, ⟨h.traced.step, h.ordered, fun complaint hmem => ?_, fun place hk => ?_⟩, fun _ => ?_⟩
    · exact Nat.le_trans (h.behind complaint hmem) (pos_le_pos_step cursor)
    · exact h.twice place (by rwa [tokenAt, tokens_step] at hk)
    · refine Nat.le_of_eq (Complaint.times_eq_zero fun complaint hmem => ?_)
      have := h.behind complaint hmem
      omega
  · rw [Cursor.step, if_neg hlast]
    exact ⟨complaints, h, fun hk => absurd (hmore hk) hlast⟩

/-- A step leaves the limit 0: the token behind the one left has not been complained about, since no
complaint looks ahead. -/
theorem Within.step (h : cursor.Within limit) (hc : cursor.Valid) : cursor.step.Within 0 := by
  obtain ⟨complaints, horderly, -⟩ := h
  exact horderly.step hc.not_last

/-- A complaint about the current token uses up one of the complaints that the limit allows, and leaves the
token in place. -/
theorem Within.report (h : cursor.Within limit) (hlimit : limit ≤ 1) (hc : cursor.Valid) (cause : Cause) :
    (cursor.report cause).Within (limit + 1) := by
  obtain ⟨complaints, horderly, hcount⟩ := h
  have hreach : cursor.Reaches (cursor.report cause) := reaches_reportAt cursor cause _
  refine ⟨_, horderly.snoc hreach (horderly.traced.report hc cause) horderly.behind (Nat.le_refl _)
    fun hk => Nat.le_trans (hcount hk) hlimit, fun hk => ?_⟩
  have htimes := hcount hk
  show times (complaints ++ [⟨cause, cursor.pos⟩]) cursor.pos ≤ limit + 1
  rw [Complaint.times_snoc, if_pos rfl]
  omega

/-- At the end of the input anything may be complained about, since end tokens have no limit. -/
theorem Within.report_end (h : cursor.Within limit) (hk : cursor.kind = .endOfInput) (hc : cursor.Valid)
    (cause : Cause) : (cursor.report cause).Within 0 := by
  obtain ⟨complaints, horderly, -⟩ := h
  have hreach : cursor.Reaches (cursor.report cause) := reaches_reportAt cursor cause _
  exact ⟨_, horderly.snoc hreach (horderly.traced.report hc cause) horderly.behind (Nat.le_refl _)
    fun hne => absurd hk hne, fun hne => absurd hk hne⟩

/-- A token that is complained about and passed over may be complained about for the second time by that,
and the limit is 0 behind it. -/
theorem Within.skip (h : cursor.Within 1) (hc : cursor.Valid) (cause : Cause) :
    (cursor.report cause).step.Within 0 :=
  (h.report (Nat.le_refl 1) hc cause).step (hc.reaches (reaches_reportAt cursor cause _))

/-- A complaint about the token that has just been taken is in order, because nothing ahead has been
complained about. -/
theorem Within.reportTaken (h : cursor.Within 1) (hk : cursor.kind ≠ .endOfInput) (hc : cursor.Valid)
    (cause : Cause) :
    (cursor.step.reportAt cause (cursor.step.positionOf cursor.current)).Within 0 := by
  obtain ⟨complaints, horderly, hcount⟩ := h
  have hreach := (reaches_step cursor).trans
    (reaches_reportAt cursor.step cause (cursor.step.positionOf cursor.current))
  have hpos : cursor.step.pos = cursor.pos + 1 := by rw [hc.step_eq hk]
  refine ⟨_, horderly.snoc hreach (horderly.traced.reportTaken hc cause) horderly.behind hreach.pos_le
    fun _ => hcount hk, fun _ => Nat.le_of_eq (Complaint.times_eq_zero fun complaint hmem => ?_)⟩
  -- the complaint is the last one about the token left behind, and the token ahead is new
  show complaint.place < cursor.step.pos
  obtain hmem | hmem := List.mem_append.1 hmem
  · have := horderly.behind complaint hmem
    omega
  · obtain rfl := List.mem_singleton.1 hmem
    show cursor.pos < cursor.step.pos
    omega

end Cursor

/-! ### Tokens -/

namespace Production

open Cursor (Within Ready)

variable {α : Type} {n limit : Nat}

/-- A production that needs a limit can do with a lower one, for that allows fewer complaints so far. -/
theorem Triple.below {p : Production α} {post : α → Cursor → Prop} {more : Nat}
    (h : Triple n (Within more) p post) (hle : limit ≤ more) : Triple n (Within limit) p post :=
  h.mono (fun _ hcursor => hcursor.mono hle) fun _ _ h => h

/-- A token that may stand here is taken or left, and neither raises the limit. -/
theorem within_accept {wanted : Kind} :
    Triple n (Within limit) (accept wanted) fun _ => Within limit :=
  triple_accept (fun _ hc _ h => (h.step hc).mono (Nat.zero_le _)) fun _ _ h => h

/-- A token that is demanded leaves the limit 0. If it is missing, the one in its place is complained about
and passed over. -/
theorem within_expect_of_ready {wanted : Kind} :
    Triple n (Ready wanted) (expect wanted) fun _ => Within 0 := by
  refine triple_expect (fun cursor hc _ h => ?_) fun cursor hc hk h => ?_
  · obtain ⟨complaints, horderly⟩ := h.orderly
    exact horderly.step hc.not_last
  · exact (h.within hk).skip hc _

/-- To demand a token needs the limit 1, for the complaint about another token in its place. -/
theorem within_expect {wanted : Kind} : Triple n (Within 1) (expect wanted) fun _ => Within 0 :=
  within_expect_of_ready.mono (fun _ h => h.ready wanted) fun _ _ h => h

/-- To demand a token for its value needs and leaves the same limits as to demand the token. -/
theorem within_expectValue {wanted : Kind} : Triple n (Within 1) (expectValue wanted) fun _ => Within 0 :=
  Triple.bind within_expect fun _ => .pure fun _ h => h

/-! ### Types, expressions and conditions -/

/-- A type needs the limit 1: what stands in its place is complained about, and left behind in any case. -/
theorem within_dataType : Triple n (Within 1) dataType fun _ => Within 0 := by
  constructor
  intro cursor hc _ h
  obtain ⟨-, hrun⟩ | ⟨text, hk, -, hrun⟩ | ⟨-, -, hrun⟩ := dataType_cases cursor
  · simp only [hrun]
    exact h.skip hc _
  · simp only [hrun]
    exact h.reportTaken (by simp [hk]) hc _
  · simp only [hrun]
    exact h.step hc

/-- A missing operand is complained about and its token left in place, for another production to complain
about again. -/
theorem within_operand : Triple n (Within 0) operand fun _ => Within 1 := by
  constructor
  intro cursor hc _ h
  obtain ⟨-, hrun⟩ | ⟨-, hrun⟩ | ⟨-, -, hrun⟩ := operand_cases cursor
  · simp only [hrun]
    exact (h.step hc).mono (Nat.zero_le _)
  · simp only [hrun]
    exact (h.step hc).mono (Nat.zero_le _)
  · simp only [hrun]
    exact h.report (Nat.zero_le _) hc _

/-- An operator is complained about once it has been taken, if its text is none that is known. -/
theorem within_mathOperator {cursor : Cursor} (hc : cursor.Valid) (hk : cursor.kind ≠ .endOfInput)
    (h : cursor.Within 1) : (mathOperator cursor.step).2.Within 0 := by
  obtain ⟨symbol, -, hrun⟩ | ⟨-, hrun⟩ := mathOperator_cases cursor.step
  · rw [hrun, hc.previous_step hk]
    exact h.reportTaken hk hc _
  · rw [hrun]
    exact h.step hc

/-- A comparison is complained about once it has been taken, as an operator is. -/
theorem within_comparison {cursor : Cursor} (hc : cursor.Valid) (hk : cursor.kind ≠ .endOfInput)
    (h : cursor.Within 1) : (comparison cursor.step).2.Within 0 := by
  obtain ⟨symbol, -, hrun⟩ | ⟨-, hrun⟩ := comparison_cases cursor.step
  · rw [hrun, hc.previous_step hk]
    exact h.reportTaken hk hc _
  · rw [hrun]
    exact h.step hc

/-- A link needs the limit 1 for its operator, and leaves 1 because its operand may be missing. -/
theorem within_link : Triple n (Within 1) link fun _ => Within 1 := by
  constructor
  intro cursor hc hn h
  obtain ⟨-, hrun⟩ | ⟨hk, hrun⟩ := link_cases cursor
  · simp only [hrun]
    exact h
  · simp only [hrun]
    have hreach := (inferInstance : Forward mathOperator).reaches cursor.step
    exact within_operand.holds _ (hc.step.reaches hreach) (Nat.le_refl _)
      (within_mathOperator hc (by simp [hk]) h)

/-- An expression needs and leaves what its operands do: the limit 0 in front of it and 1 behind. -/
theorem within_expr : Triple n (Within 0) expr fun _ => Within 1 := by
  apply Triple.bind within_operand
  intro first
  apply Triple.bind (triple_rounds progressive_link within_link)
  intro links
  exact .pure fun _ h => h

/-- The rest of a condition needs the limit 1 for the comparison, and leaves 1 behind the second operand. -/
theorem within_conditionFrom (left : Operand) :
    Triple n (Within 1) (conditionFrom left) fun _ => Within 1 := by
  constructor
  intro cursor hc hn h
  obtain ⟨-, hrun⟩ | ⟨hk, hrun⟩ := conditionFrom_cases cursor left
  · simp only [hrun]
    exact h
  · simp only [hrun]
    have hreach := (inferInstance : Forward comparison).reaches cursor.step
    exact within_operand.holds _ (hc.step.reaches hreach) (Nat.le_refl _)
      (within_comparison hc (by simp [hk]) h)

/-- A closing parenthesis is demanded only where one was opened, so that the limit of 1 is kept either
way. -/
theorem within_closeParenIf (opened : Bool) :
    Triple n (Within 1) (closeParenIf opened) fun _ => Within 1 := by
  refine .ite ?_ (.pure fun _ h => h)
  apply Triple.bind within_expect
  intro _
  exact .pure fun _ h => h.mono (Nat.zero_le _)

/-- A condition needs the limit 0 for its first operand, with or without a parenthesis in front. -/
theorem within_condition : Triple n (Within 0) condition fun _ => Within 1 := by
  apply Triple.bind within_accept
  intro opened
  apply Triple.bind within_operand
  intro left
  apply Triple.bind (within_conditionFrom left)
  intro read
  apply Triple.bind (within_closeParenIf opened)
  intro _
  exact .pure fun _ h => h

/-- A round of arguments ends behind a comma or whatever stands in the place of the closing parenthesis, so
that the next one starts afresh. -/
theorem within_argument : Triple n (Within 0) argument fun _ => Within 0 := by
  constructor
  intro cursor hc hn h
  have hreach := (inferInstance : Forward expr).reaches cursor
  have hvalid := hc.reaches hreach
  have hexpr := within_expr.holds cursor hc hn h
  obtain ⟨-, hrun⟩ | ⟨hk, hrun⟩ | ⟨-, -, -, hrun⟩ | ⟨-, -, -, hrun⟩ := argument_cases cursor
  · simp only [hrun]
    exact h.step hc
  · simp only [hrun]
    exact h.report_end hk hc _
  · simp only [hrun]
    exact hexpr.step hvalid
  · simp only [hrun]
    exact within_expect.holds _ hvalid (Nat.le_refl _) hexpr

/-- The arguments of a call need the limit 1 for the parenthesis in front of them and leave 0 behind the
last round. -/
theorem within_arguments : Triple n (Within 1) arguments fun _ => Within 0 :=
  Triple.bind within_expect fun _ => triple_rounds progressive_argument within_argument

/-! ### Simple statements -/

/-- An assignment needs the limit 1 for its name and leaves the limit of the expression at its end. -/
theorem within_assignment : Triple n (Within 1) assignment fun _ => Within 1 := by
  apply Triple.bind within_expectValue
  intro target
  apply Triple.bind (within_expect.below (Nat.zero_le _))
  intro _
  apply Triple.bind within_expr
  intro value
  exact .pure fun _ h => h

/-- A declaration needs the limit 1 for its type. The colon and the name are demanded where it is 0. -/
theorem within_declaration : Triple n (Within 1) declaration fun _ => Within 1 := by
  apply Triple.bind within_dataType
  intro type
  apply Triple.bind (within_expect.below (Nat.zero_le _))
  intro _
  apply Triple.bind (triple_leads _)
  intro assigned
  apply Triple.ite
  · apply Triple.bind (within_assignment.below (Nat.zero_le _))
    intro first
    exact .pure fun _ h => h
  · apply Triple.bind (within_expectValue.below (Nat.zero_le _))
    intro name
    exact .pure fun _ h => h.mono (Nat.zero_le _)

/-- A call needs the limit 1 for its name, and its arguments leave the limit 0. -/
theorem within_call : Triple n (Within 1) call fun _ => Within 1 := by
  apply Triple.bind within_expectValue
  intro callee
  apply Triple.bind (within_arguments.below (Nat.zero_le _))
  intro args
  exact .pure fun _ h => h.mono (Nat.zero_le _)

/-- The value of a return needs the limit 0, which the word in front of it leaves. -/
theorem within_returnValue : Triple n (Within 0) returnValue fun _ => Within 1 := by
  apply Triple.bind triple_kind
  intro found
  refine .ite (.pure fun _ h => h.mono (Nat.zero_le _)) (.map within_expr)

/-- A return statement needs the limit 1 for its word and leaves the limit of the value. -/
theorem within_ret : Triple n (Within 1) ret fun _ => Within 1 := by
  rw [ret_eq]
  apply Triple.bind within_expect
  intro _
  apply Triple.bind within_returnValue
  intro value?
  exact .pure fun _ h => h

/-- A token that starts no statement is complained about and passed over, which needs the limit 1. -/
theorem within_unknownStatement : Triple n (Within 1) unknownStatement fun _ => Within 1 := by
  constructor
  intro cursor hc _ h
  simp only [unknownStatement_apply]
  exact (h.skip hc _).mono (Nat.zero_le _)

/-- A semicolon behind a statement is taken or left, so that it changes no limit. -/
theorem within_terminated {body : Production Stmt} [Forward body]
    (h : Triple n (Within 1) body fun _ => Within 1) :
    Triple n (Within 1) (terminated body) fun _ => Within 1 :=
  h.bind fun _ => Triple.bind within_accept fun _ => .pure fun _ h => h

/-- A statement that holds no others needs the limit 1 and leaves it, whichever of the alternatives is
taken. -/
theorem within_simpleStatement : Triple n (Within 1) simpleStatement fun _ => Within 1 := by
  refine triple_simpleStatement ?_ ?_ ?_ ?_ within_unknownStatement
  · exact Triple.guarded (within_terminated within_call)
  · exact Triple.guarded (within_terminated (.map within_declaration))
  · exact Triple.guarded (within_terminated (.map within_assignment))
  · exact Triple.guarded (within_terminated within_ret)

/-! ### Statements that hold others -/

/-- The first part of the header of a counting loop keeps the limit 1, also where it is left out. -/
theorem within_forInit : Triple n (Within 1) forInit fun _ => Within 1 := by
  refine triple_forInit ?_ ?_ fun _ h => h
  · exact Triple.guarded within_declaration
  · exact Triple.guarded within_assignment

/-- The condition of a counting loop comes behind a semicolon that was demanded, so that the limit is 0
there. -/
theorem within_forCondition : Triple n (Within 0) forCondition fun _ => Within 1 := by
  apply Triple.bind triple_kind
  intro found
  refine .ite (.pure fun _ h => h.mono (Nat.zero_le _)) ?_
  apply Triple.bind within_condition
  intro test
  exact .pure fun _ h => h

/-- The last part of the header of a counting loop keeps the limit 1, also where it is left out. -/
theorem within_forStep : Triple n (Within 1) forStep fun _ => Within 1 := by
  apply Triple.bind (triple_leads _)
  intro found
  refine .ite ?_ (.pure fun _ h => h)
  apply Triple.bind within_assignment
  intro step
  exact .pure fun _ h => h

/-- The header of a counting loop keeps the limit 1. Each of its semicolons is demanded, and leaves 0. -/
theorem within_forHeader : Triple n (Within 1) forHeader fun _ => Within 1 := by
  apply Triple.bind within_forInit
  intro init?
  apply Triple.bind within_expect
  intro _
  apply Triple.bind within_forCondition
  intro condition?
  apply Triple.bind within_expect
  intro _
  apply Triple.bind (within_forStep.below (Nat.zero_le _))
  intro step?
  exact .pure fun _ h => h

section

variable {nested : Production Stmt} [Forward nested] (hstrict : Strict nested)
  (hnested : Triple n (Within 1) nested fun _ => Within 1)

include hstrict hnested

/-- The statements up to a closing brace keep the limit 1, if each of them does. -/
theorem within_inside : Triple n (Within 1) (rounds (blockRound nested)) fun _ => Within 1 := by
  refine triple_rounds (progressive_blockRound hstrict) ?_
  constructor
  intro cursor hc hn h
  obtain ⟨-, hrun⟩ | ⟨hk, hrun⟩ | ⟨-, -, hrun⟩ := blockRound_cases cursor nested
  · simp only [hrun]
    exact (h.step hc).mono (Nat.zero_le _)
  · simp only [hrun]
    exact (h.report_end hk hc _).mono (Nat.zero_le _)
  · simp only [hrun]
    exact hnested.holds cursor hc hn h

/-- The bracket of a block may have been complained about twice. It is there then, and it is taken without
another complaint. -/
theorem within_blockOf_of_ready : Triple n (Ready .openCurly) (blockOf nested) fun _ => Within 1 :=
  Triple.bind within_expect_of_ready fun _ => (within_inside hstrict hnested).below (Nat.zero_le _)

/-- A block keeps the limit 1, which is enough to complain about its bracket. -/
theorem within_blockOf : Triple n (Within 1) (blockOf nested) fun _ => Within 1 :=
  (within_blockOf_of_ready hstrict hnested).mono (fun _ h => h.ready _) fun _ _ h => h

/-- What is done otherwise keeps the limit 1, whether it is a choice, a block or nothing. -/
theorem within_otherwiseOf : Triple n (Within 1) (otherwiseOf nested) fun _ => Within 1 := by
  refine triple_otherwiseOf (fun _ h => h) (fun _ hc _ h => (h.step hc).mono (Nat.zero_le 1)) ?_ ?_
  · exact Triple.guarded hnested
  · exact within_blockOf hstrict hnested

/-- A choice keeps the limit 1. Its word is left behind, so that the statements inside have less ahead of
them. -/
theorem within_ifElseOf :
    Triple (n + 1) (fun cursor => cursor.kind = .ifWord ∧ cursor.Within 1) (ifElseOf nested)
      fun _ => Within 1 := by
  rw [ifElseOf_eq]
  refine Triple.bind_strict (strict_expect _) (fun cursor h => by simp [h.1])
    (Triple.guarded within_expect) fun _ => ?_
  apply Triple.bind within_condition
  intro test
  apply Triple.bind (within_blockOf hstrict hnested)
  intro body
  apply Triple.bind (within_otherwiseOf hstrict hnested)
  intro other?
  exact .pure fun _ h => h

/-- A while loop keeps the limit 1, by what its condition and its block need and leave. -/
theorem within_whileLoopOf :
    Triple (n + 1) (fun cursor => cursor.kind = .whileWord ∧ cursor.Within 1) (whileLoopOf nested)
      fun _ => Within 1 := by
  refine Triple.bind_strict (strict_expect _) (fun cursor h => by simp [h.1])
    (Triple.guarded within_expect) fun _ => ?_
  apply Triple.bind within_condition
  intro test
  apply Triple.bind (within_blockOf hstrict hnested)
  intro body
  exact .pure fun _ h => h

/-- A counting loop keeps the limit 1, with its header in parentheses or without them. -/
theorem within_forLoopOf :
    Triple (n + 1) (fun cursor => cursor.kind = .forWord ∧ cursor.Within 1) (forLoopOf nested)
      fun _ => Within 1 := by
  rw [forLoopOf_eq]
  refine Triple.bind_strict (strict_expect _) (fun cursor h => by simp [h.1])
    (Triple.guarded within_expect) fun _ => ?_
  apply Triple.bind within_accept
  intro opened
  apply Triple.bind (within_forHeader.below (Nat.zero_le _))
  intro header
  apply Triple.bind (within_closeParenIf opened)
  intro _
  apply Triple.bind (within_blockOf hstrict hnested)
  intro body
  exact .pure fun _ h => h

/-- A statement keeps the limit 1, if the statements inside it do for cursors with less ahead. -/
theorem within_statementOf :
    Triple (n + 1) (Within 1) (statementOf nested) fun _ => Within 1 := by
  refine triple_statementOf (within_ifElseOf hstrict hnested) (within_whileLoopOf hstrict hnested)
    (within_forLoopOf hstrict hnested) ?_ (fun _ hc _ h => (h.step hc).mono (Nat.zero_le 1)) ?_
    within_simpleStatement
  · refine Triple.bind_strict (strict_expect _) (fun cursor h => by simp [h.1])
      (Triple.guarded within_expect) fun _ => ?_
    exact (within_inside hstrict hnested).below (Nat.zero_le _)
  · exact Triple.guarded (within_terminated (.map within_declaration))

end

/-- Every statement keeps the limit 1, however deep it is nested. The induction is on what is left of the
stream. -/
theorem within_statement (n : Nat) : Triple n (Within 1) statement fun _ => Within 1 :=
  triple_statement (fun _ hnested _ => within_statementOf strict_statement (hnested ())) n ()

/-! ### Items and programs -/

/-- The body of a function is read where its bracket may have been complained about twice already. -/
theorem within_block_of_ready : Triple n (Ready .openCurly) block fun _ => Within 1 :=
  within_blockOf_of_ready strict_statement (within_statement n)

/-- Parameters that are not closed leave the bracket of a block in place, which may have been complained
about twice then. -/
theorem within_parameters : Triple n (Within 1) parameters fun _ => Ready .openCurly := by
  apply Triple.bind within_expect
  intro _
  have hround (done : List Declaration) : Triple n (Within 1) parameter
      (Round.After (fun _ => Within 1) (fun _ => Ready .openCurly) done) := by
    constructor
    intro cursor hc hn h
    obtain ⟨-, hrun⟩ | ⟨hk, hrun⟩ | ⟨hk, hrun⟩ | ⟨-, hrun⟩ := parameter_cases cursor
    · simp only [hrun]
      exact ((h.step hc).mono (Nat.zero_le _)).ready _
    · simp only [hrun]
      exact ((h.report_end hk hc _).mono (Nat.zero_le _)).ready _
    -- the bracket may have been missing as an operand before, so this complaint may be the second
    · simp only [hrun]
      obtain ⟨complaints, horderly, -⟩ :=
        h.report (Nat.le_refl 1) hc (.unexpected .closeParen cursor.current.value)
      exact ⟨⟨complaints, horderly⟩, fun hne => absurd hk hne⟩
    · have hread : Triple n (Within 1) (declaration >>= fun read => accept .comma >>= fun _ => pure read)
          fun _ => Within 1 :=
        Triple.bind within_declaration fun _ => Triple.bind within_accept fun _ => .pure fun _ h => h
      have := hread.holds cursor hc hn h
      simp only [bind_apply, pure_apply] at this
      simp only [hrun]
      exact this
  exact (Triple.rounds progressive_parameter hround).below (Nat.zero_le _)

/-- A function keeps the limit 1. Its parameters leave a bracket that is there, or a limit of 1. -/
theorem within_function : Triple n (Within 1) function fun _ => Within 1 := by
  apply Triple.bind within_dataType
  intro type
  apply Triple.bind (within_expectValue.below (Nat.zero_le _))
  intro name
  apply Triple.bind (within_parameters.below (Nat.zero_le _))
  intro params
  apply Triple.bind within_block_of_ready
  intro body
  exact .pure fun _ h => h

/-- An import needs the limit 1 for its word and leaves 0 behind the path that is demanded. -/
theorem within_importFile : Triple n (Within 1) importFile fun _ => Within 1 := by
  apply Triple.bind within_expect
  intro _
  apply Triple.bind (within_expectValue.below (Nat.zero_le _))
  intro path
  exact .pure fun _ h => h.mono (Nat.zero_le _)

/-- The entry point keeps the limit 1. Its word leaves the limit 0 for the bracket of the body. -/
theorem within_entry : Triple n (Within 1) entry fun _ => Within 1 := by
  apply Triple.bind within_expect
  intro _
  apply Triple.bind (within_block_of_ready.mono (fun _ h => (h.mono (Nat.zero_le _)).ready _) fun _ _ h => h)
  intro body
  exact .pure fun _ h => h

/-- One round at the top level keeps the limit 1. A token that starts no item is complained about and passed
over. -/
theorem within_topLevel : Triple n (Within 1) topLevel fun _ => Within 1 := by
  refine triple_topLevel (fun cursor hk h => ?_) ?_ ?_ ?_ ?_ fun cursor hc h => ?_
  · obtain ⟨complaints, horderly, -⟩ := h
    exact (horderly.step fun hne => absurd hk hne).mono (Nat.zero_le _)
  · exact Triple.guarded within_function
  · exact Triple.guarded (Triple.bind within_declaration fun _ =>
      Triple.bind within_accept fun _ => .pure fun _ h => h)
  · exact Triple.guarded within_entry
  · exact Triple.guarded (Triple.bind within_importFile fun _ =>
      Triple.bind within_accept fun _ => .pure fun _ h => h)
  · exact (h.skip hc _).mono (Nat.zero_le _)

/-- A program keeps the limit 1, since each of its rounds does. No more than two complaints are ever made
about a token. -/
theorem within_program : Triple n (Within 1) program fun _ => Within 1 :=
  triple_rounds progressive_topLevel within_topLevel

end Production

/-- Before anything is read there is nothing to complain about, so that reading starts with the limit 0. -/
theorem Cursor.within_ofTokens (tokens : List Token) (file : String) : (ofTokens tokens file).Within 0 :=
  ⟨[], ⟨traced_ofTokens tokens file, .nil, by simp, by simp [times]⟩, by simp [times]⟩

/-- Complaints about words are in the order of the words, and there are at most two about any word that is not
an end of the input. -/
theorem Word.complaints_orderly (words : List Word) :
    ((complaints words).Pairwise fun complaint next => complaint.place ≤ next.place) ∧
    ∀ place word, (closed words)[place]? = some word → word.kind ≠ .endOfInput →
      times (complaints words) place ≤ 2 := by
  have hvalid := Cursor.valid_ofTokens (stream words) ""
  have hstart := (Cursor.within_ofTokens (stream words) "").mono (Nat.zero_le 1)
  obtain ⟨complaints, horderly, -⟩ := Production.within_program.holds _ hvalid (Nat.le_refl _) hstart
  have hreach := (inferInstance : Production.Forward Production.program).reaches (.ofTokens (stream words) "")
  rw [complaints_eq horderly.traced]
  refine ⟨horderly.ordered, fun place word hplace hk => horderly.twice place ?_⟩
  have htoken : (Production.program (.ofTokens (stream words) "")).2.tokens.toList[place]? =
      some (.placed place word) := by
    rw [hreach.tokens, tokens_ofTokens_stream, stream, List.getElem?_mapIdx, hplace, Option.map_some]
  obtain ⟨hlt, -⟩ := List.getElem?_eq_some_iff.1 htoken
  rw [Cursor.getElem?_tokens hlt] at htoken
  rw [Option.some.inj htoken]
  exact hk

end BraceLang
