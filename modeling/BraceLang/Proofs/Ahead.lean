import BraceLang.Grammar.Item
import Mathlib.Data.List.Basic

/-!
# What a cursor sees

Reading a program looks at the kinds and the values of tokens, never at their spans. `Cursor.ahead` is the
list of these, from the current token on, and this module says what the moves of a cursor do to it:

* a cursor that stands inside a stream closed by an end token is `Valid`, and every cursor that reading
  starts from is valid (`valid_ofTokens`);
* on a token that is not an end token, a step takes one word off the front of the list
  (`Valid.ahead_eq`), because such a token is never the last one;
* looking at a lead changes nothing and compares it with the front of the list (`leads_eq`).
-/

set_option autoImplicit false

namespace BraceLang

/-- What the grammar sees of a token. -/
structure Word where
  kind : Kind
  value : String
deriving DecidableEq, Inhabited

/-- The kind and the value of a token. -/
def Token.word (token : Token) : Word :=
  ⟨token.kind, token.value⟩

/-- The kind of the first word. Beyond the last one the input ends. -/
def Word.firstKind : List Word → Kind
  | [] => .endOfInput
  | word :: _ => word.kind

open Word (firstKind)

/-- Where no words are left, reading decides by the kind of the end token. -/
@[simp]
theorem Word.firstKind_nil : firstKind [] = .endOfInput := rfl

/-- Where a word is left, its kind is the one that reading decides by. -/
@[simp]
theorem Word.firstKind_cons (word : Word) (words : List Word) :
    firstKind (word :: words) = word.kind := rfl

/-- Of two texts in a row, the first one decides unless it is empty. -/
theorem Word.firstKind_append {us vs : List Word} (h : us ≠ []) :
    firstKind (us ++ vs) = firstKind us := by
  cases us with
  | nil => exact absurd rfl h
  | cons word words => rfl

namespace Cursor

/-- The words from the current token on. -/
def ahead (cursor : Cursor) : List Word :=
  (cursor.tokens.toList.drop cursor.pos).map Token.word

/-- A cursor on a token of a stream that an end token closes. -/
structure Valid (cursor : Cursor) : Prop where
  inside : cursor.pos < cursor.tokens.size
  closed : ∃ last, cursor.tokens.toList.getLast? = some last ∧ last.kind = .endOfInput

/-- Reading starts from a valid cursor. -/
theorem valid_ofTokens (tokens : List Token) (file : String) : (ofTokens tokens file).Valid := by
  obtain ⟨last, hlast, hkind⟩ := getLast?_closed tokens
  refine ⟨?_, last, by simpa [ofTokens] using hlast, hkind⟩
  have hne : closed tokens ≠ [] := by
    intro h
    simp [h] at hlast
  simpa [ofTokens, List.length_pos_iff] using hne

/-- Closing a stream adds an end token or nothing. -/
theorem closed_eq_append (tokens : List Token) :
    ∃ added, closed tokens = tokens ++ added ∧ ∀ token ∈ added, token.kind = .endOfInput := by
  unfold closed
  split
  · split
    · exact ⟨[], (List.append_nil _).symm, by simp⟩
    · exact ⟨[_], rfl, by simp [Token.ending]⟩
  · rename_i hnone
    obtain rfl := List.getLast?_eq_none_iff.1 hnone
    exact ⟨[_], rfl, by simp [Token.ending]⟩

/-- Where reading starts, all the words of the stream are ahead, with an end word behind them if there was
none. -/
theorem ahead_ofTokens (tokens : List Token) (file : String) :
    (ofTokens tokens file).ahead = (closed tokens).map Token.word := by
  simp [ahead, ofTokens]

variable {cursor : Cursor}

/-- Inside its stream a cursor sees the current token, then what follows it. -/
theorem ahead_of_inside (h : cursor.pos < cursor.tokens.size) :
    cursor.ahead =
      cursor.current.word :: (cursor.tokens.toList.drop (cursor.pos + 1)).map Token.word := by
  have hlt : cursor.pos < cursor.tokens.toList.length := by simpa using h
  have hcurrent : cursor.current = cursor.tokens.toList.get ⟨cursor.pos, hlt⟩ := by
    simp [current, tokenAt, Array.getD, h]
  rw [ahead, List.drop_eq_getElem_cons hlt, List.map_cons, hcurrent]
  rfl

/-- The kind of the current token is that of the first word ahead. -/
theorem kind_eq_firstKind (cursor : Cursor) : cursor.kind = firstKind cursor.ahead := by
  by_cases h : cursor.pos < cursor.tokens.size
  · rw [ahead_of_inside h]
    rfl
  · have hnil : cursor.ahead = [] := by
      simp only [ahead, List.map_eq_nil_iff, List.drop_eq_nil_iff, Array.length_toList]
      omega
    rw [hnil]
    simp [Cursor.kind, current, tokenAt, Array.getD, h, Token.ending]

/-- What is seen ahead is as long as what remains, so that one measure serves for both. -/
@[simp]
theorem length_ahead (cursor : Cursor) : cursor.ahead.length = cursor.remaining := by
  simp [ahead, remaining]

/-- Only an end token can be the last one, so that behind any other token there is one more. -/
theorem Valid.not_last (h : cursor.Valid) (hk : cursor.kind ≠ .endOfInput) :
    cursor.pos + 1 < cursor.tokens.size := by
  obtain ⟨hlt, last, hlast, hend⟩ := h
  by_contra hge
  have hpos : cursor.pos = cursor.tokens.size - 1 := by omega
  apply hk
  have hcurrent : cursor.current = last := by
    rw [List.getLast?_eq_getElem?] at hlast
    simp only [Array.length_toList, Array.getElem?_toList] at hlast
    rw [current, tokenAt, Array.getD_eq_getD_getElem?, hpos, hlast]
    rfl
  rw [Cursor.kind, hcurrent, hend]

/-- A step from a token other than an end token goes to the next token and changes nothing else. -/
theorem Valid.step_eq (h : cursor.Valid) (hk : cursor.kind ≠ .endOfInput) :
    cursor.step = { cursor with pos := cursor.pos + 1 } := by
  rw [step, if_pos (h.not_last hk)]

/-- A step from a token other than an end token takes one word off the words ahead, the word of that
token. -/
theorem Valid.ahead_eq (h : cursor.Valid) (hk : cursor.kind ≠ .endOfInput) :
    cursor.ahead = cursor.current.word :: cursor.step.ahead := by
  rw [ahead_of_inside h.inside, h.step_eq hk]
  rfl

/-- A token of a kind other than that of end tokens, as the word that a step takes. -/
theorem Valid.exists_word {wanted : Kind} (h : cursor.Valid) (hk : cursor.kind = wanted)
    (hwanted : wanted ≠ .endOfInput) :
    ∃ w : Word, cursor.ahead = w :: cursor.step.ahead ∧ w.kind = wanted ∧
      w.value = cursor.current.value :=
  ⟨cursor.current.word, h.ahead_eq (hk ▸ hwanted), hk, rfl⟩

/-- A valid cursor stays valid as it steps, since it stays inside and the stream does not change. -/
theorem Valid.step (h : cursor.Valid) : cursor.step.Valid :=
  ⟨by simpa using pos_step_lt h.inside, by simpa using h.closed⟩

/-- Stepping reports nothing, and what has been reported before is kept. -/
@[simp]
theorem diagnostics_step (cursor : Cursor) : cursor.step.diagnostics = cursor.diagnostics := by
  unfold Cursor.step
  split <;> rfl

/-- After a step past a token other than an end token, that token is the previous one. -/
theorem Valid.previous_step (h : cursor.Valid) (hk : cursor.kind ≠ .endOfInput) :
    cursor.step.previous = cursor.current := by
  rw [h.step_eq hk]
  rfl

/-- The word that a cursor sees first is that of its current token. -/
theorem Valid.current_word {word : Word} {words : List Word} (h : cursor.Valid)
    (ha : cursor.ahead = word :: words) : cursor.current.word = word := by
  rw [ahead_of_inside h.inside] at ha
  exact (List.cons.inj ha).1

/-- After a step past a word that ends nothing, the words behind it are ahead. -/
theorem Valid.ahead_step {word : Word} {words : List Word} (h : cursor.Valid)
    (ha : cursor.ahead = word :: words) (hk : word.kind ≠ .endOfInput) :
    cursor.step.ahead = words := by
  have hkind : cursor.kind ≠ .endOfInput := by rwa [kind_eq_firstKind, ha]
  rw [h.ahead_eq hkind] at ha
  exact (List.cons.inj ha).2

end Cursor

/-! ### Running productions -/

namespace Production

/-- A sequence of productions hands the value and the cursor of the first to the second. Nothing ever fails
on the way. -/
@[simp]
theorem bind_apply {α β : Type} (p : Production α) (f : α → Production β) (cursor : Cursor) :
    (p >>= f) cursor = f (p cursor).1 (p cursor).2 := rfl

/-- A production that only gives a value leaves the cursor where it is. -/
@[simp]
theorem pure_apply {α : Type} (a : α) (cursor : Cursor) :
    (pure a : Production α) cursor = (a, cursor) := rfl

/-- To change the value of a production has no effect on where it leads. -/
@[simp]
theorem map_apply {α β : Type} (f : α → β) (p : Production α) (cursor : Cursor) :
    (f <$> p) cursor = (f (p cursor).1, (p cursor).2) := rfl

/-- To look at the current token gives it and moves nothing. -/
@[simp]
theorem peek_apply (cursor : Cursor) : peek cursor = (cursor.current, cursor) := rfl

/-- To look back gives the token behind the cursor and moves nothing. -/
@[simp]
theorem previous_apply (cursor : Cursor) : previous cursor = (cursor.previous, cursor) := rfl

/-- To ask for the kind of the current token gives it and moves nothing. -/
@[simp]
theorem kind_apply (cursor : Cursor) : kind cursor = (cursor.kind, cursor) := rfl

/-- The input is at its end where the current token is an end token, and asking for that moves nothing. -/
@[simp]
theorem atEnd_apply (cursor : Cursor) :
    atEnd cursor = (decide (cursor.kind = .endOfInput), cursor) := rfl

/-- To advance gives the current token and leaves it behind, or stays on it if it is the last one. -/
@[simp]
theorem advance_apply (cursor : Cursor) : advance cursor = (cursor.current, cursor.step) := rfl

/-- A report gives no value and moves nothing. It only adds to what has been reported. -/
@[simp]
theorem report_apply (cause : Cause) (cursor : Cursor) :
    report cause cursor = ((), cursor.report cause) := rfl

/-- Reporting at a given token changes the reports of the cursor alone: one is added, at the place of that
token. -/
@[simp]
theorem reportOn_apply (token : Token) (cause : Cause) (cursor : Cursor) :
    reportOn token cause cursor = ((), cursor.reportAt cause (cursor.positionOf token)) := rfl

variable {wanted : Kind} {cursor : Cursor}

/-- A token of the kind that may stand here is taken. -/
theorem accept_of_eq (h : cursor.kind = wanted) : accept wanted cursor = (true, cursor.step) :=
  if_pos h

/-- A token of another kind is left where it is, and nothing is reported. -/
theorem accept_of_ne (h : cursor.kind ≠ wanted) : accept wanted cursor = (false, cursor) :=
  if_neg h

/-- A token of the kind that is demanded is taken, without a report. -/
theorem expect_of_eq (h : cursor.kind = wanted) :
    expect wanted cursor = (some cursor.current, cursor.step) :=
  if_pos h

/-- A token of another kind is reported with its text, and then it is left behind in place of the one that
is missing. -/
theorem expect_of_ne (h : cursor.kind ≠ wanted) :
    expect wanted cursor =
      (none, (cursor.report (.unexpected wanted cursor.current.value)).step) :=
  if_neg h

/-! ### Leads -/

variable {kinds : List Kind}

/-- Taking tokens changes only the place of the cursor. -/
theorem acceptAll_state (kinds : List Kind) (cursor : Cursor) :
    ∃ pos, (acceptAll kinds cursor).2 = { cursor with pos } := by
  induction kinds generalizing cursor with
  | nil => exact ⟨cursor.pos, rfl⟩
  | cons kind kinds ih =>
    by_cases h : cursor.kind = kind
    · have hstep : ∃ pos, cursor.step = { cursor with pos } := by
        unfold Cursor.step
        split
        · exact ⟨cursor.pos + 1, rfl⟩
        · exact ⟨cursor.pos, rfl⟩
      obtain ⟨pos, hpos⟩ := ih cursor.step
      obtain ⟨mid, hmid⟩ := hstep
      refine ⟨pos, ?_⟩
      have hrun : (acceptAll (kind :: kinds) cursor).2 = (acceptAll kinds cursor.step).2 := by
        simp [acceptAll, accept_of_eq h]
      rw [hrun, hpos, hmid]
    · refine ⟨cursor.pos, ?_⟩
      simp [acceptAll, accept_of_ne h]

/-- On a token of the first of several kinds that all differ, the rest of them have to follow. A cursor on the last
token stays there, where none of the others is found. -/
theorem acceptAll_cons_verdict {kind : Kind} (hk : cursor.kind = kind) (hkind : kind ≠ .endOfInput)
    (hnew : kind ∉ kinds)
    (hrest : (acceptAll kinds cursor.step).1 = kinds.isPrefixOf (cursor.step.ahead.map Word.kind)) :
    (acceptAll (kind :: kinds) cursor).1 = (kind :: kinds).isPrefixOf (cursor.ahead.map Word.kind) := by
  have hinside : cursor.pos < cursor.tokens.size := by
    by_contra houtside
    apply hkind
    rw [← hk]
    simp [Cursor.kind, Cursor.current, Cursor.tokenAt, Array.getD, houtside, Token.ending]
  have hrun : (acceptAll (kind :: kinds) cursor).1 = (acceptAll kinds cursor.step).1 := by
    simp [acceptAll, accept_of_eq hk]
  have hword : cursor.current.word.kind = kind := hk
  rw [hrun, Cursor.ahead_of_inside hinside, List.map_cons, hword, List.isPrefixOf_cons_cons, beq_self_eq_true,
    Bool.true_and]
  by_cases hnext : cursor.pos + 1 < cursor.tokens.size
  · rw [hrest, Cursor.step, if_pos hnext]
    rfl
  · -- the step stays on the last token, which is of none of the other kinds
    have hlast : cursor.tokens.toList.drop (cursor.pos + 1) = [] := by simpa using hnext
    rw [hlast]
    cases kinds with
    | nil => rfl
    | cons other kinds =>
      have hother : cursor.kind ≠ other := by
        intro hother
        exact hnew (by simp [← hk, hother])
      rw [Cursor.step, if_neg hnext]
      simp [acceptAll, accept_of_ne hother]

/-- Taking tokens of kinds that all differ, none of them that of end tokens, succeeds exactly when these kinds are
ahead. -/
theorem acceptAll_verdict (hkinds : Kind.endOfInput ∉ kinds) (hdistinct : kinds.Nodup) (cursor : Cursor) :
    (acceptAll kinds cursor).1 = kinds.isPrefixOf (cursor.ahead.map Word.kind) := by
  induction kinds generalizing cursor with
  | nil => rfl
  | cons kind kinds ih =>
    obtain ⟨hkind, hrest⟩ : Kind.endOfInput ≠ kind ∧ Kind.endOfInput ∉ kinds := by
      simpa [not_or] using hkinds
    obtain ⟨hnew, hmore⟩ := List.nodup_cons.1 hdistinct
    by_cases hk : cursor.kind = kind
    · exact acceptAll_cons_verdict hk hkind.symm hnew (ih hrest hmore cursor.step)
    · have hrun : (acceptAll (kind :: kinds) cursor).1 = false := by
        simp [acceptAll, accept_of_ne hk]
      rw [hrun]
      rw [Cursor.kind_eq_firstKind] at hk
      cases hahead : cursor.ahead with
      | nil => rfl
      | cons word words =>
        rw [hahead, Word.firstKind_cons] at hk
        simp [List.isPrefixOf, Ne.symm hk]

/-- Looking at a lead leaves the cursor as it is: the place is remembered first and restored in the end. -/
@[simp]
theorem leads_state (lead : Lead) (cursor : Cursor) : (leads lead cursor).2 = cursor := by
  obtain ⟨pos, hpos⟩ := acceptAll_state lead.kinds cursor.mark
  show (acceptAll lead.kinds cursor.mark).2.restore?.getD _ = cursor
  rw [hpos]
  rfl

/-- A lead is there exactly when the words ahead start with its kinds. -/
theorem leads_eq (lead : Lead) (cursor : Cursor) :
    leads lead cursor = (lead.kinds.isPrefixOf (cursor.ahead.map Word.kind), cursor) := by
  have hkinds : Kind.endOfInput ∉ lead.kinds ∧ lead.kinds.Nodup := by cases lead <;> decide
  refine Prod.ext ?_ (leads_state lead cursor)
  exact acceptAll_verdict hkinds.1 hkinds.2 cursor.mark

/-- Where a lead is there, its first kind is the current one. -/
theorem kind_of_leads {lead : Lead} {first : Kind} {kinds : List Kind} (h : cursor.Valid)
    (hlead : (leads lead cursor).1 = true) (hkinds : lead.kinds = first :: kinds) :
    cursor.kind = first := by
  rw [leads_eq lead cursor, hkinds, Cursor.ahead_of_inside h.inside] at hlead
  simp only [List.map_cons, List.isPrefixOf, Bool.and_eq_true, beq_iff_eq] at hlead
  exact hlead.1.symm

end Production

end BraceLang
