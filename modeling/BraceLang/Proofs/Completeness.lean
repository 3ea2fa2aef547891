import BraceLang.Proofs.Soundness

/-!
# What is derived is read without complaint

`Takes` says that a production takes certain words off the front of whatever a cursor sees, gives a
certain result and reports nothing. It speaks of words only, so its rules are those of a sequence: words
taken one after the other are taken together, and a loop takes the words of its rounds.

From these rules every part of the grammar is taken by its production, given that no word follows that
would continue the part. The words that would continue a statement are those in `Kind.continuing`, and
inside a block none of them can follow, because no statement starts with one.
-/

set_option autoImplicit false

namespace BraceLang.Production

open Word (firstKind)

variable {α β : Type} {p q : Production α} {f : α → Production β} {us vs ws : List Word} {a : α} {b : β}

/-- Wherever the words `us` are ahead, the production reads `a` and leaves `vs` ahead. -/
def Takes (p : Production α) (us : List Word) (a : α) (vs : List Word) : Prop :=
  ∀ cursor : Cursor, cursor.Valid → cursor.ahead = us →
    ∃ after : Cursor, Reads p cursor a after ∧ after.ahead = vs

/-! ### Sequences and branches -/

/-- A value that is only returned takes no words off the front, and the words ahead stay as they are. -/
theorem Takes.pure : Takes (pure a) us a us :=
  fun cursor _ hahead => ⟨cursor, ⟨rfl, rfl, rfl⟩, hahead⟩

/-- Two productions one after the other take what the first takes and, from the words it leaves ahead, what
the second takes. -/
theorem Takes.bind [Forward p] (h : Takes p us a vs) (h' : Takes (f a) vs b ws) :
    Takes (p >>= f) us b ws := by
  intro cursor hc hahead
  obtain ⟨middle, hfirst, hmiddle⟩ := h cursor hc hahead
  obtain ⟨after, hsecond, hafter⟩ := h' middle (hfirst.valid hc) hmiddle
  refine ⟨after, ⟨?_, ?_, hsecond.quiet.trans hfirst.quiet⟩, hafter⟩
  · rw [bind_apply, hfirst.result, hfirst.state, hsecond.result]
  · rw [bind_apply, hfirst.result, hfirst.state, hsecond.state]

/-- Turning the value of a production into another one changes neither the words that it takes nor those
that it leaves ahead. -/
theorem Takes.map (g : α → β) (h : Takes p us a vs) : Takes (g <$> p) us (g a) vs := by
  intro cursor hc hahead
  obtain ⟨after, hread, hafter⟩ := h cursor hc hahead
  exact ⟨after, ⟨congrArg g hread.result, hread.state, hread.quiet⟩, hafter⟩

/-- Productions that do the same on every valid cursor take the same. -/
theorem Takes.congr (h : Takes p us a vs)
    (hrun : ∀ cursor : Cursor, cursor.Valid → q cursor = p cursor) : Takes q us a vs := by
  intro cursor hc hahead
  obtain ⟨after, hread, hafter⟩ := h cursor hc hahead
  exact ⟨after, hread.congr (hrun cursor hc).symm, hafter⟩

section

variable {check : Production Bool} [Forward check]

/-- A branch that is taken: the check takes the words up to `vs` and finds what it looks for, and the first
branch reads on from there. -/
theorem Takes.then (hcheck : Takes check us true vs) (h : Takes p vs a ws) :
    Takes (check >>= fun found => if found = true then p else q) us a ws :=
  hcheck.bind (by rwa [if_pos rfl])

/-- A branch that is not taken: the check fails over the words up to `vs`, and the second branch reads on
from there. -/
theorem Takes.else (hcheck : Takes check us false vs) (h : Takes q vs a ws) :
    Takes (check >>= fun found => if found = true then p else q) us a ws :=
  hcheck.bind (by rwa [if_neg Bool.false_ne_true])

end

/-! ### Tokens -/

/-- Looking at the kind of the current token gives the kind of the first word ahead and takes nothing. -/
theorem Takes.kind : Takes kind us (firstKind us) us := by
  intro cursor hc hahead
  refine ⟨cursor, ⟨?_, rfl, rfl⟩, hahead⟩
  rw [kind_apply, Cursor.kind_eq_firstKind, hahead]

section

variable {w : Word} {wanted : Kind}

/-- A word of the wanted kind is the current token. -/
theorem kind_of_ahead {cursor : Cursor} (hahead : cursor.ahead = w :: us) (hw : w.kind = wanted) :
    cursor.kind = wanted := by
  rw [Cursor.kind_eq_firstKind, hahead, Word.firstKind_cons, hw]

/-- A word of the accepted kind is taken, unless that is the kind of the end token, behind which the words
ahead are no longer told. -/
theorem Takes.accept_true (hw : w.kind = wanted) (hwanted : wanted ≠ .endOfInput) :
    Takes (accept wanted) (w :: us) true us := by
  intro cursor hc hahead
  have hrun := accept_of_eq (kind_of_ahead hahead hw)
  refine ⟨cursor.step, ⟨by rw [hrun], by rw [hrun], Cursor.diagnostics_step cursor⟩, ?_⟩
  exact hc.ahead_step hahead (hw ▸ hwanted)

/-- Where the first word ahead is of another kind than the accepted one, nothing is taken and the answer is
no. -/
theorem Takes.accept_false (h : firstKind us ≠ wanted) : Takes (accept wanted) us false us := by
  intro cursor hc hahead
  have hrun : accept wanted cursor = (false, cursor) :=
    accept_of_ne (by rwa [Cursor.kind_eq_firstKind, hahead])
  exact ⟨cursor, ⟨by rw [hrun], by rw [hrun], rfl⟩, hahead⟩

/-- A demanded word is taken for its value: the production returns the text of the word and leaves the
others ahead. -/
theorem Takes.expectValue (hw : w.kind = wanted) (hwanted : wanted ≠ .endOfInput) :
    Takes (expectValue wanted) (w :: us) w.value us := by
  intro cursor hc hahead
  have hrun : Production.expectValue wanted cursor = (cursor.current.value, cursor.step) := by
    simp [Production.expectValue, expect_of_eq (kind_of_ahead hahead hw)]
  refine ⟨cursor.step, ⟨?_, by rw [hrun], Cursor.diagnostics_step cursor⟩, ?_⟩
  · rw [hrun, ← hc.current_word hahead]
    rfl
  · exact hc.ahead_step hahead (hw ▸ hwanted)

/-- A word that is no end token is skipped before the production that reads the words behind it. -/
theorem Takes.advance (hw : w.kind ≠ .endOfInput) (h : Takes p us a vs) :
    Takes (advance >>= fun _ => p) (w :: us) a vs := by
  intro cursor hc hahead
  obtain ⟨after, hread, hafter⟩ := h cursor.step hc.step (hc.ahead_step hahead hw)
  have hquiet := hread.quiet.trans (Cursor.diagnostics_step cursor)
  exact ⟨after, ⟨hread.result, hread.state, hquiet⟩, hafter⟩

/-- A demanded word is taken before what follows it, and as it is there nothing is reported about it. -/
theorem Takes.expect (hw : w.kind = wanted) (hwanted : wanted ≠ .endOfInput)
    (h : Takes p us a vs) : Takes (expect wanted >>= fun _ => p) (w :: us) a vs := by
  intro cursor hc hahead
  have hrun := expect_of_eq (kind_of_ahead hahead hw)
  obtain ⟨after, hread, hafter⟩ := h cursor.step hc.step (hc.ahead_step hahead (hw ▸ hwanted))
  have hquiet := hread.quiet.trans (Cursor.diagnostics_step cursor)
  refine ⟨after, ⟨?_, ?_, hquiet⟩, hafter⟩
  · rw [bind_apply, hrun, hread.result]
  · rw [bind_apply, hrun, hread.state]

end

/-- Before a word that is no end token the question whether the input has ended is answered with no, and
nothing is taken. -/
theorem Takes.atEnd_false (h : firstKind us ≠ .endOfInput) : Takes atEnd us false us := by
  intro cursor hc hahead
  refine ⟨cursor, ⟨?_, rfl, rfl⟩, hahead⟩
  have hk : cursor.kind ≠ .endOfInput := by rwa [Cursor.kind_eq_firstKind, hahead]
  simpa using hk

/-- A lead is found exactly if its kinds are the kinds of the first words ahead, and looking for it takes
none of them. -/
theorem Takes.leads {lead : Lead} {found : Bool}
    (h : lead.kinds.isPrefixOf (us.map Word.kind) = found) : Takes (leads lead) us found us := by
  intro cursor hc hahead
  have hrun : Production.leads lead cursor = (found, cursor) := by
    rw [leads_eq lead cursor, hahead, h]
  exact ⟨cursor, ⟨by rw [hrun], by rw [hrun], rfl⟩, hahead⟩

/-! ### Loops -/

section

variable {round : Production (Round α)} [hf : Forward round] (hp : Progressive round)
  {cursor middle after : Cursor} {elements : List α}

include hp

/-- A loop whose first round stops without a report has no elements and ends where that round ends. -/
theorem Reads.rounds_stop (h : Reads round cursor .stop after) (hc : cursor.Valid) :
    Reads (rounds round) cursor [] after := by
  have hrun := (repeats_iff hp hc).1 (.stop h.result)
  rw [h.state] at hrun
  exact ⟨by rw [hrun], by rw [hrun], h.quiet⟩

/-- A loop whose first round reads the last element without a report has that one element and ends where the
round ends. -/
theorem Reads.rounds_last (h : Reads round cursor (.last a) after) (hc : cursor.Valid) :
    Reads (rounds round) cursor [a] after := by
  have hrun := (repeats_iff hp hc).1 (.last h.result)
  rw [h.state] at hrun
  exact ⟨by rw [hrun], by rw [hrun], h.quiet⟩

/-- A loop whose first round reads an element and goes on has that element before those that the rest of the
loop reads from there. -/
theorem Reads.rounds_next (h : Reads round cursor (.next (some a)) middle)
    (hmore : Reads (rounds round) middle elements after) (hc : cursor.Valid) :
    Reads (rounds round) cursor (a :: elements) after := by
  have hrepeats : Repeats round middle elements after :=
    (repeats_iff hp (h.valid hc)).2 (Prod.ext hmore.result hmore.state)
  rw [← h.state] at hrepeats
  have hrun := (repeats_iff hp hc).1 (.next h.result hrepeats)
  exact ⟨by rw [hrun], by rw [hrun], hmore.quiet.trans h.quiet⟩

/-- A loop takes what its first round takes if that round stops, and it has no elements then. -/
theorem Takes.rounds_stop (h : Takes round us .stop vs) : Takes (rounds round) us [] vs := by
  intro cursor hc hahead
  obtain ⟨after, hread, hafter⟩ := h cursor hc hahead
  exact ⟨after, hread.rounds_stop hp hc, hafter⟩

/-- A loop takes what its first round takes if that round reads the last element, which is then the only
one. -/
theorem Takes.rounds_last (h : Takes round us (.last a) vs) : Takes (rounds round) us [a] vs := by
  intro cursor hc hahead
  obtain ⟨after, hread, hafter⟩ := h cursor hc hahead
  exact ⟨after, hread.rounds_last hp hc, hafter⟩

/-- A loop takes the words of a round that goes on and then those of the rounds behind it, with the elements
in that order. -/
theorem Takes.rounds_next (h : Takes round us (.next (some a)) vs)
    (hmore : Takes (rounds round) vs elements ws) : Takes (rounds round) us (a :: elements) ws := by
  intro cursor hc hahead
  obtain ⟨middle, hread, hmiddle⟩ := h cursor hc hahead
  obtain ⟨after, hreads, hafter⟩ := hmore middle (hread.valid hc) hmiddle
  exact ⟨after, hread.rounds_next hp hreads hc, hafter⟩

end

end BraceLang.Production

namespace BraceLang

open Production
open Word (firstKind Optional Perhaps)

variable {us rest : List Word}

/-! ### Types, expressions and conditions -/

/-- A word that spells a type is taken as that type, whatever words follow: its text is a keyword of the
table, so no unknown type is reported. -/
theorem DataType.Spelled.takes {w : Word} {type : DataType} (h : type.Spelled w) :
    Takes dataType (w :: rest) type rest := by
  intro cursor hc hahead
  have hword := hc.current_word hahead
  have hk := kind_of_ahead hahead h.kind
  obtain ⟨hkeyword, hknown⟩ := DataType.mem_keywords_iff.1 h.keyword
  have hvalue : DataType.ofKeyword cursor.current.value = type := by
    rw [← hkeyword, ← hword]
    rfl
  obtain ⟨hne, -⟩ | ⟨text, -, htext, -⟩ | ⟨-, -, hrun⟩ := dataType_cases cursor
  · exact absurd hk hne
  · rw [← hvalue, htext] at hknown
    cases hknown
  · rw [hvalue] at hrun
    refine ⟨cursor.step, ⟨by rw [hrun], by rw [hrun], Cursor.diagnostics_step cursor⟩, ?_⟩
    exact hc.ahead_step hahead (by simp [h.kind])

/-- A word that spells an operand is taken as that operand: an identifier for its name and a literal for its
value. -/
theorem Operand.Spelled.takes {w : Word} {value : Operand} (h : value.Spelled w) :
    Takes operand (w :: rest) value rest := by
  intro cursor hc hahead
  have hword := hc.current_word hahead
  have hrun : operand cursor = (value, cursor.step) := by
    obtain ⟨hk, hrun⟩ | ⟨hk, hrun⟩ | ⟨hid, hlit, -⟩ := operand_cases cursor
    · cases h with
      | identifier hw => rw [hrun, ← hword]; rfl
      | literal hw => simp [kind_of_ahead hahead hw] at hk
    · cases h with
      | identifier hw => simp [kind_of_ahead hahead hw] at hk
      | literal hw => rw [hrun, ← hword]; rfl
    · cases h with
      | identifier hw => exact absurd (kind_of_ahead hahead hw) hid
      | literal hw => exact absurd (kind_of_ahead hahead hw) hlit
  refine ⟨cursor.step, ⟨by rw [hrun], by rw [hrun], Cursor.diagnostics_step cursor⟩, ?_⟩
  cases h with
  | identifier hw => exact hc.ahead_step hahead (by simp [hw])
  | literal hw => exact hc.ahead_step hahead (by simp [hw])

/-- An operator is known by the word before the cursor. -/
theorem MathOp.Spelled.reads {s : Word} {op : MathOp} {cursor : Cursor} (h : op.Spelled s)
    (hc : cursor.Valid) (hahead : cursor.ahead = s :: rest) :
    Reads mathOperator cursor.step op cursor.step := by
  have hk := kind_of_ahead hahead h.kind
  obtain ⟨hsymbol, hknown⟩ := MathOp.mem_symbols_iff.1 h.symbol
  have hvalue : MathOp.ofSymbol cursor.step.previous.value = op := by
    rw [hc.previous_step (by simp [hk]), ← hsymbol, ← hc.current_word hahead]
    rfl
  obtain ⟨symbol, hunknown, -⟩ | ⟨-, hrun⟩ := mathOperator_cases cursor.step
  · exact absurd (hvalue.symm.trans hunknown) (hknown symbol)
  · rw [hvalue] at hrun
    exact ⟨by rw [hrun], by rw [hrun], rfl⟩

/-- An operator and an operand behind it are one link of a chain, and the loop over the links goes on behind
them. -/
theorem takes_link {s v : Word} {op : MathOp} {right : Operand} (hs : op.Spelled s)
    (hv : right.Spelled v) : Takes link (s :: v :: rest) (.next (some (op, right))) rest := by
  intro cursor hc hahead
  have hstep := hc.ahead_step hahead (by simp [hs.kind])
  have hop := hs.reads hc hahead
  obtain ⟨after, hright, hafter⟩ := hv.takes cursor.step hc.step hstep
  obtain ⟨hne, -⟩ | ⟨-, hrun⟩ := link_cases cursor
  · exact absurd (kind_of_ahead hahead hs.kind) hne
  · rw [hop.result, hop.state, hright.result, hright.state] at hrun
    have hquiet := hright.quiet.trans (Cursor.diagnostics_step cursor)
    exact ⟨after, ⟨by rw [hrun], by rw [hrun], hquiet⟩, hafter⟩

/-- Before a word that is no operator the loop over the links of an expression stops and takes nothing. -/
theorem takes_link_stop (hrest : firstKind rest ≠ .mathOp) : Takes link rest .stop rest :=
  (Takes.accept_false hrest).else .pure

/-- The words behind the first operand of an expression are operators and operands. -/
theorem Expr.Derives.links {value : Expr} (h : value.Derives us) (hrest : firstKind rest ≠ .mathOp) :
    ∃ w vs first links, us = w :: vs ∧ first.Spelled w ∧ value = Expr.chain first links ∧
      Takes (rounds link) (vs ++ rest) links rest := by
  induction h with
  | @operand w value hw =>
    refine ⟨w, [], value, [], rfl, hw, rfl, ?_⟩
    exact (takes_link_stop hrest).rounds_stop progressive_link
  | @binary w s left op us right hw hs hright ih =>
    obtain ⟨v, vs, first, links, rfl, hv, rfl, hlinks⟩ := ih
    refine ⟨w, s :: v :: vs, left, (op, first) :: links, rfl, hw, by rw [chain_cons], ?_⟩
    exact (takes_link hs hv).rounds_next progressive_link hlinks

/-- The words of an expression are taken as that expression, if the word behind them is no operator that
would continue it. -/
theorem Expr.Derives.takes {value : Expr} (h : value.Derives us)
    (hrest : firstKind rest ≠ .mathOp) : Takes expr (us ++ rest) value rest := by
  obtain ⟨w, vs, first, links, rfl, hw, rfl, hlinks⟩ := h.links hrest
  exact hw.takes.bind (hlinks.bind .pure)

/-- A comparison is known by the word before the cursor. -/
theorem reads_comparison {s : Word} {cursor : Cursor} (hs : s.kind = .compareOp)
    (hequals : s.value = "==") (hc : cursor.Valid) (hahead : cursor.ahead = s :: rest) :
    Reads comparison cursor.step .equals cursor.step := by
  have hk := kind_of_ahead hahead hs
  have hvalue : CompareOp.ofSymbol cursor.step.previous.value = .equals := by
    rw [hc.previous_step (by simp [hk]), CompareOp.ofSymbol_eq_equals_iff, ← hequals,
      ← hc.current_word hahead]
    rfl
  obtain ⟨symbol, hunknown, -⟩ | ⟨-, hrun⟩ := comparison_cases cursor.step
  · rw [hvalue] at hunknown
    cases hunknown
  · exact ⟨by rw [hrun], by rw [hrun], rfl⟩

/-- A comparison and an operand behind it make a condition of the operand that was read before them. -/
theorem takes_conditionFrom_compare {s v : Word} {left right : Operand} (hs : s.kind = .compareOp)
    (hequals : s.value = "==") (hv : right.Spelled v) :
    Takes (conditionFrom left) (s :: v :: rest) (.compare .equals left right) rest := by
  intro cursor hc hahead
  have hstep := hc.ahead_step hahead (by simp [hs])
  have hop := reads_comparison hs hequals hc hahead
  obtain ⟨after, hright, hafter⟩ := hv.takes cursor.step hc.step hstep
  obtain ⟨hne, -⟩ | ⟨-, hrun⟩ := conditionFrom_cases cursor left
  · exact absurd (kind_of_ahead hahead hs) hne
  · rw [hop.result, hop.state, hright.result, hright.state] at hrun
    have hquiet := hright.quiet.trans (Cursor.diagnostics_step cursor)
    exact ⟨after, ⟨by rw [hrun], by rw [hrun], hquiet⟩, hafter⟩

/-- A word that spells an operand is an identifier or a literal, so an operand is known by the kind of its
word. -/
theorem Operand.Spelled.kind_mem {w : Word} {value : Operand} (h : value.Spelled w) :
    w.kind ∈ [Kind.identifier, .literal] := by
  cases h with
  | identifier hw => simp [hw]
  | literal hw => simp [hw]

/-- A condition without parentheses is an operand and what makes a condition of it. -/
theorem Condition.Bare.takes {test : Condition} (h : test.Bare us)
    (hrest : firstKind rest ≠ .compareOp) :
    ∃ w vs left, us = w :: vs ∧ left.Spelled w ∧
      Takes (conditionFrom left) (vs ++ rest) test rest := by
  cases h with
  | operand hw => exact ⟨_, [], _, rfl, hw, (Takes.accept_false hrest).else .pure⟩
  | compare hw hs hequals hv =>
    exact ⟨_, [_, _], _, rfl, hw, takes_conditionFrom_compare hs hequals hv⟩

/-- The words of a condition, with parentheses or without, are taken as that condition, if no comparison
follows that would continue it. -/
theorem Condition.Derives.takes {test : Condition} (h : test.Derives us)
    (hrest : firstKind rest ≠ .compareOp) : Takes condition (us ++ rest) test rest := by
  cases h with
  | bare h =>
    obtain ⟨w, vs, left, rfl, hw, hfrom⟩ := h.takes hrest
    have hopen : firstKind (w :: vs ++ rest) ≠ .openParen := by
      have := hw.kind_mem
      rintro (hk : w.kind = .openParen)
      simp [hk] at this
    exact (Takes.accept_false hopen).bind (hw.takes.bind (hfrom.bind (Takes.pure.bind .pure)))
  | @parenthesised w v us test hopen h hclose =>
    have hnext : firstKind (v :: rest) ≠ .compareOp := by simp [hclose]
    obtain ⟨w', vs, left, rfl, hw, hfrom⟩ := h.takes hnext
    have hparen : Takes (closeParenIf true) (v :: rest) () rest := .expect hclose (by decide) .pure
    rw [List.append_assoc]
    apply (Takes.accept_true hopen (by decide)).bind
    exact hw.takes.bind (hfrom.bind (hparen.bind .pure))

/-- The first word of an expression is an operand, so it is an identifier or a literal, whatever follows the
expression. -/
theorem Expr.Derives.firstKind_mem {value : Expr} (h : value.Derives us) (rest : List Word) :
    firstKind (us ++ rest) ∈ [Kind.identifier, .literal] := by
  cases h with
  | operand hw => exact hw.kind_mem
  | binary hw => exact hw.kind_mem

/-- A closing parenthesis ends the loop over the arguments of a call, and it is taken with that. -/
theorem takes_argument_close {w : Word} (hw : w.kind = .closeParen) :
    Takes argument (w :: rest) .stop rest :=
  (Takes.accept_true hw (by decide)).then .pure

/-- An argument and the word behind it, which decides whether it is the last. -/
theorem Expr.Derives.takes_argument {value : Expr} {w : Word} (h : value.Derives us) :
    (w.kind = .closeParen → Takes argument (us ++ w :: rest) (.last value) rest) ∧
    (w.kind = .comma → Takes argument (us ++ w :: rest) (.next (some value)) rest) := by
  have hfirst := h.firstKind_mem (w :: rest)
  have hclose : firstKind (us ++ w :: rest) ≠ .closeParen := by
    intro hk
    simp [hk] at hfirst
  have hend : firstKind (us ++ w :: rest) ≠ .endOfInput := by
    intro hk
    simp [hk] at hfirst
  constructor
  · intro hw
    refine (Takes.accept_false hclose).else ((Takes.atEnd_false hend).else ?_)
    apply (h.takes (by simp [hw])).bind
    exact (Takes.accept_false (by simp [hw])).else (.expect hw (by decide) .pure)
  · intro hw
    refine (Takes.accept_false hclose).else ((Takes.atEnd_false hend).else ?_)
    apply (h.takes (by simp [hw])).bind
    exact (Takes.accept_true hw (by decide)).then .pure

/-- The words of the arguments up to the closing parenthesis are taken by the loop over the arguments, by
induction on their derivation. -/
theorem Arguments.Inside.takes {args : List Expr} (h : Arguments.Inside us args) :
    Takes (rounds argument) (us ++ rest) args rest := by
  induction h with
  | close hw => exact (takes_argument_close hw).rounds_stop progressive_argument
  | last harg hw =>
    rw [List.append_assoc]
    exact (harg.takes_argument.1 hw).rounds_last progressive_argument
  | more harg hw hargs ih =>
    rw [List.append_assoc]
    exact (harg.takes_argument.2 hw).rounds_next progressive_argument ih

/-- The words of an argument list, its two parentheses among them, are taken as its arguments, whatever
words follow. -/
theorem Arguments.Derives.takes {args : List Expr} (h : Arguments.Derives us args) :
    Takes arguments (us ++ rest) args rest := by
  cases h with
  | mk hw h => exact .expect hw (by decide) h.takes

/-! ### Declarations and assignments -/

/-- One kind is ahead exactly if it is the first. -/
theorem Word.isPrefixOf_singleton {k : Kind} (hk : k ≠ .endOfInput) (us : List Word) :
    [k].isPrefixOf (us.map Word.kind) = decide (firstKind us = k) := by
  cases us with
  | nil => simp [hk.symm]
  | cons w us =>
    by_cases h : w.kind = k
    · simp [h]
    · simp [List.isPrefixOf, h, Ne.symm h]

/-- The words of an assignment are taken as that assignment, if the word behind its value is no operator. -/
theorem Assignment.Derives.takes {assigned : Assignment} (h : assigned.Derives us)
    (hrest : firstKind rest ≠ .mathOp) : Takes assignment (us ++ rest) assigned rest := by
  cases h with
  | mk hname hequals hvalue =>
    apply (Takes.expectValue hname (by decide)).bind
    exact .expect hequals (by decide) ((hvalue.takes hrest).bind .pure)

/-- Where an assignment is derived, it is told by its lead. -/
theorem Assignment.Derives.leads {assigned : Assignment} (h : assigned.Derives us)
    (rest : List Word) : Lead.assignment.kinds.isPrefixOf ((us ++ rest).map Word.kind) = true := by
  cases h with
  | mk hname hequals hvalue => simp [Lead.kinds, hname, hequals]

/-- The words of a declaration are taken as that declaration, if no operator follows its value and no equals
sign a name that has none. -/
theorem Declaration.Derives.takes {declared : Declaration} (h : declared.Derives us)
    (hrest : firstKind rest ∉ [Kind.mathOp, .assignment]) :
    Takes declaration (us ++ rest) declared rest := by
  obtain ⟨hmath, hassign⟩ : firstKind rest ≠ .mathOp ∧ firstKind rest ≠ .assignment := by
    simpa using hrest
  cases h with
  | @plain t colon name type ht hcolon hname =>
    have hlead : Lead.assignment.kinds.isPrefixOf ((name :: rest).map Word.kind) = false := by
      have := Word.isPrefixOf_singleton (k := .assignment) (by decide) rest
      simp [Lead.kinds, hname, this, hassign]
    refine ht.takes.bind (.expect hcolon (by decide) ?_)
    exact (Takes.leads hlead).else ((Takes.expectValue hname (by decide)).bind .pure)
  | valued ht hcolon hfirst =>
    refine ht.takes.bind (.expect hcolon (by decide) ?_)
    exact (Takes.leads (hfirst.leads rest)).then ((hfirst.takes hmath).bind .pure)

/-- Where a declaration is derived, it is told by its lead. -/
theorem Declaration.Derives.leads {declared : Declaration} (h : declared.Derives us)
    (rest : List Word) : Lead.declaration.kinds.isPrefixOf ((us ++ rest).map Word.kind) = true := by
  cases h with
  | plain ht hcolon hname => simp [Lead.kinds, ht.kind, hcolon, hname]
  | valued ht hcolon hfirst =>
    cases hfirst with
    | mk hname => simp [Lead.kinds, ht.kind, hcolon, hname]

/-! ### Simple statements -/

/-- The kinds of the words that would continue a statement. No statement starts with one. -/
def Kind.continuing : List Kind :=
  [.mathOp, .assignment, .elseWord]

section

variable {vs ending : List Word} {stmt : Stmt}

/-- A statement takes what it takes with statements nested in it, since the levels of nesting do not run
out. -/
theorem takes_statement (h : Takes (statementOf statement) us stmt rest) :
    Takes statement us stmt rest :=
  h.congr fun _ hc => statement_eq hc

/-- The end of a statement is taken where it is given, and nothing else where it is left out. -/
theorem takes_terminated {body : Production Stmt} [Forward body]
    (h : Takes body us stmt (ending ++ rest))
    (hend : Omission.settled.Ends ending (firstKind rest)) :
    Takes (terminated body) us stmt rest := by
  apply h.bind
  cases hend with
  | semicolon hw => exact (Takes.accept_true hw (by decide)).bind .pure
  | nothing hnext => exact (Takes.accept_false hnext).bind .pure

/-- What ends a statement is not what would continue it. -/
theorem Omission.Ends.firstKind_not_mem (hend : Omission.settled.Ends ending (firstKind rest))
    (hrest : firstKind rest ∉ Kind.continuing) : firstKind (ending ++ rest) ∉ Kind.continuing := by
  cases hend with
  | semicolon hw => simp [hw, Kind.continuing]
  | nothing => exact hrest

/-- Before an identifier or a return word a statement, whatever is nested in it, takes what the simple
statement takes. -/
theorem takes_simpleStatement {nested : Production Stmt}
    (hfirst : firstKind us ∈ [Kind.identifier, .returnWord])
    (h : Takes simpleStatement us stmt rest) : Takes (statementOf nested) us stmt rest := by
  have hlead : Lead.declaration.kinds.isPrefixOf (us.map Word.kind) = false := by
    cases us with
    | nil => rfl
    | cons w us =>
      simp only [Word.firstKind_cons, List.mem_cons, List.not_mem_nil, or_false] at hfirst
      rcases hfirst with hw | hw <;> simp [Lead.kinds, List.isPrefixOf, hw]
  apply Takes.kind.bind
  simp only [List.mem_cons, List.not_mem_nil, or_false] at hfirst
  rcases hfirst with hk | hk <;> rw [hk]
  · exact (Takes.leads hlead).else h
  · exact (Takes.leads hlead).else h

/-- A declaration and the end of its statement are taken as a statement, before a word that does not
continue it. -/
theorem takes_declaration {declared : Declaration} (h : declared.Derives us)
    (hend : Omission.settled.Ends ending (firstKind rest))
    (hrest : firstKind rest ∉ Kind.continuing) :
    Takes statement (us ++ ending ++ rest) (.declaration declared) rest := by
  have hnext := hend.firstKind_not_mem hrest
  have hafter : firstKind (ending ++ rest) ∉ [Kind.mathOp, .assignment] := by
    simp only [Kind.continuing, List.mem_cons, List.not_mem_nil] at hnext ⊢
    tauto
  rw [List.append_assoc]
  refine takes_statement (Takes.kind.bind ?_)
  rw [h.firstKind_eq]
  apply (Takes.leads (h.leads _)).then
  exact takes_terminated ((h.takes hafter).map _) hend

/-- An assignment and the end of its statement are taken as a statement, before a word that does not
continue it. -/
theorem takes_assignment {assigned : Assignment} (h : assigned.Derives us)
    (hend : Omission.settled.Ends ending (firstKind rest))
    (hrest : firstKind rest ∉ Kind.continuing) :
    Takes statement (us ++ ending ++ rest) (.assignment assigned) rest := by
  have hnext := hend.firstKind_not_mem hrest
  have hafter : firstKind (ending ++ rest) ≠ .mathOp := by
    intro hk
    simp [hk, Kind.continuing] at hnext
  rw [List.append_assoc]
  refine takes_statement (takes_simpleStatement (by simp [h.firstKind_eq]) ?_)
  have htaken := takes_terminated ((h.takes hafter).map .assignment) hend
  cases h with
  | mk hname hequals hvalue =>
    apply (Takes.leads (by simp [Lead.kinds, List.isPrefixOf, hname, hequals])).else
    apply (Takes.leads (by simp [Lead.kinds, List.isPrefixOf, hname])).else
    exact (Takes.leads (by simp [Lead.kinds, hname, hequals])).then htaken

/-- A call and the end of its statement are taken as a statement: the parenthesis behind the name tells it
from an assignment. -/
theorem takes_call {name : Word} {args : List Expr} (hname : name.kind = .identifier)
    (hargs : Arguments.Derives us args) (hend : Omission.settled.Ends ending (firstKind rest)) :
    Takes statement (name :: us ++ ending ++ rest) (.call name.value args) rest := by
  rw [List.append_assoc]
  refine takes_statement (takes_simpleStatement (by simp [hname]) ?_)
  have hlead : Lead.call.kinds.isPrefixOf ((name :: us ++ (ending ++ rest)).map Word.kind) = true := by
    cases hargs with
    | mk hw => simp [Lead.kinds, hname, hw]
  refine (Takes.leads hlead).then (takes_terminated ?_ hend)
  exact (Takes.expectValue hname (by decide)).bind (hargs.takes.bind .pure)

/-- Before a return word the two leads of a simple statement are not found, so the statement is what the
rest of a return takes. -/
theorem takes_simpleStatement_ret {w : Word} (hw : w.kind = .returnWord)
    (h : Takes (terminated ret) (w :: us) stmt rest) : Takes statement (w :: us) stmt rest := by
  refine takes_statement (takes_simpleStatement (by simp [hw]) ?_)
  apply (Takes.leads (by simp [Lead.kinds, List.isPrefixOf, hw])).else
  apply (Takes.leads (by simp [Lead.kinds, List.isPrefixOf, hw])).else
  apply (Takes.leads (by simp [Lead.kinds, List.isPrefixOf, hw])).else
  apply Takes.kind.bind
  rwa [if_pos (show firstKind (w :: us) = .returnWord from hw)]

/-- A return without a value is taken with the end of its statement, which may be left out only where no
value could follow. -/
theorem takes_ret {w : Word} (hw : w.kind = .returnWord)
    (hend : Omission.settled.Ends ending (firstKind rest))
    (hvalue : ending = [] → Omission.settled.value (firstKind rest)) :
    Takes statement (w :: ending ++ rest) (.ret none) rest := by
  refine takes_simpleStatement_ret hw (takes_terminated ?_ hend)
  rw [ret_eq]
  have hnext : firstKind (ending ++ rest) ∈ [Kind.semicolon, .closeCurly, .endOfInput] := by
    cases hend with
    | semicolon hs => simp [hs]
    | nothing => simpa [Omission.settled] using .inr (hvalue rfl)
  refine .expect hw (by decide) ?_
  have hnone : Takes returnValue (ending ++ rest) none (ending ++ rest) :=
    Takes.kind.bind (by rw [if_pos hnext]; exact .pure)
  exact hnone.bind .pure

/-- A return, its value and the end of its statement are taken, before a word that does not continue the
statement. -/
theorem takes_retValue {w : Word} {value : Expr} (hw : w.kind = .returnWord)
    (hvalue : value.Derives us) (hend : Omission.settled.Ends ending (firstKind rest))
    (hrest : firstKind rest ∉ Kind.continuing) :
    Takes statement (w :: us ++ ending ++ rest) (.ret (some value)) rest := by
  have hnext := hend.firstKind_not_mem hrest
  have hafter : firstKind (ending ++ rest) ≠ .mathOp := by
    intro hk
    simp [hk, Kind.continuing] at hnext
  rw [List.append_assoc]
  refine takes_simpleStatement_ret hw (takes_terminated ?_ hend)
  rw [ret_eq]
  have hfirst : firstKind (us ++ (ending ++ rest)) ∉ [Kind.semicolon, .closeCurly, .endOfInput] := by
    have := hvalue.firstKind_mem (ending ++ rest)
    intro hk
    simp only [List.mem_cons, List.not_mem_nil, or_false] at hk this
    rcases hk with hk | hk | hk <;> simp [hk] at this
  refine .expect hw (by decide) ?_
  have hsome : Takes returnValue (us ++ (ending ++ rest)) (some value) (ending ++ rest) :=
    Takes.kind.bind (by rw [if_neg hfirst]; exact (hvalue.takes hafter).map _)
  exact hsome.bind .pure

end

/-! ### Statements that hold others -/

/-- The first word of a condition is an operand or a parenthesis. -/
theorem Condition.Derives.firstKind_mem {test : Condition} (h : test.Derives us)
    (rest : List Word) : firstKind (us ++ rest) ∈ [Kind.identifier, .literal, .openParen] := by
  cases h with
  | bare h =>
    cases h with
    | operand hw => exact List.mem_append_left [Kind.openParen] hw.kind_mem
    | compare hw => exact List.mem_append_left [Kind.openParen] hw.kind_mem
  | parenthesised hw => simp [hw]

section

variable {vs ws : List Word} {body : Block} {nested : Production Stmt}

/-- Where no else word follows there is no other branch, and looking for it takes nothing. -/
theorem takes_otherwise_none (hrest : firstKind rest ≠ .elseWord) :
    Takes (otherwiseOf nested) rest none rest :=
  (Takes.accept_false hrest).else .pure

/-- An else word before a block is taken together with the block, which is the other branch as a compound
statement. -/
theorem takes_otherwise_block {v : Word} {other : Block} (hv : v.kind = .elseWord)
    (hfirst : firstKind us = .openCurly) (h : Takes (blockOf nested) us other rest) :
    Takes (otherwiseOf nested) (v :: us) (some (.compound other)) rest := by
  refine (Takes.accept_true hv (by decide)).then (Takes.kind.bind ?_)
  rw [if_neg (by simp [hfirst])]
  exact h.map _

/-- An else word before an if word is taken together with the statement that starts there, which is the
other branch. -/
theorem takes_otherwise_if {v : Word} {stmt : Stmt} (hv : v.kind = .elseWord)
    (hfirst : firstKind us = .ifWord) (h : Takes nested us stmt rest) :
    Takes (otherwiseOf nested) (v :: us) (some stmt) rest := by
  refine (Takes.accept_true hv (by decide)).then (Takes.kind.bind ?_)
  rw [if_pos hfirst]
  exact h.map _

/-- An if word, its condition, its block and what is taken for the other branch are taken as one
statement. -/
theorem takes_ifElse {w : Word} {test : Condition} {other? : Option Stmt} (hw : w.kind = .ifWord)
    (htest : test.Derives us) (hfirst : firstKind vs = .openCurly)
    (hbody : Takes (blockOf statement) vs body ws)
    (hother : Takes (otherwiseOf statement) ws other? rest) :
    Takes statement (w :: (us ++ vs)) (.ifElse test body other?) rest := by
  refine takes_statement (Takes.kind.bind ?_)
  rw [Word.firstKind_cons, hw]
  show Takes (ifElseOf statement) _ _ _
  rw [ifElseOf_eq]
  refine .expect hw (by decide) ((htest.takes (by simp [hfirst])).bind ?_)
  exact hbody.bind (hother.bind .pure)

/-- A while word, its condition and its block are taken as a statement: the opening bracket of the block
ends the condition. -/
theorem takes_whileLoop {w : Word} {test : Condition} (hw : w.kind = .whileWord)
    (htest : test.Derives us) (hfirst : firstKind vs = .openCurly)
    (hbody : Takes (blockOf statement) vs body rest) :
    Takes statement (w :: (us ++ vs)) (.whileLoop test body) rest := by
  refine takes_statement (Takes.kind.bind ?_)
  rw [Word.firstKind_cons, hw]
  refine .expect hw (by decide) ((htest.takes (by simp [hfirst])).bind ?_)
  exact hbody.bind .pure

/-- The first part of a loop header is taken if it is there, and nothing is where the semicolon behind it
comes first. -/
theorem takes_forInit {init? : Option Stmt} (h : Perhaps ForInit.Derives us init?)
    (hrest : firstKind rest = .semicolon) : Takes forInit (us ++ rest) init? rest := by
  cases h with
  | none =>
    cases rest with
    | nil => cases hrest
    | cons s rest =>
      have hs : s.kind = .semicolon := hrest
      apply (Takes.leads (by simp [Lead.kinds, List.isPrefixOf, hs])).else
      exact (Takes.leads (by simp [Lead.kinds, List.isPrefixOf, hs])).else .pure
  | some h =>
    cases h with
    | declaration h =>
      exact (Takes.leads (h.leads rest)).then ((h.takes (by simp [hrest])).bind .pure)
    | assignment h =>
      have hdecl : Lead.declaration.kinds.isPrefixOf ((us ++ rest).map Word.kind) = false := by
        cases h with
        | mk hname => simp [Lead.kinds, List.isPrefixOf, hname]
      apply (Takes.leads hdecl).else
      exact (Takes.leads (h.leads rest)).then ((h.takes (by simp [hrest])).bind .pure)

/-- The condition of a loop header is taken if it is there, and nothing is where the semicolon behind it
comes first. -/
theorem takes_forCondition {condition? : Option Condition}
    (h : Perhaps Condition.Derives us condition?) (hrest : firstKind rest = .semicolon) :
    Takes forCondition (us ++ rest) condition? rest := by
  apply Takes.kind.bind
  cases h with
  | none =>
    rw [List.nil_append, if_pos hrest]
    exact .pure
  | some h =>
    have hfirst := h.firstKind_mem rest
    rw [if_neg (by rintro hk; simp [hk] at hfirst)]
    exact (h.takes (by simp [hrest])).bind .pure

/-- The last part of a loop header is taken if it is there, and nothing is where the header ends. -/
theorem takes_forStep {step? : Option Assignment} (h : Perhaps Assignment.Derives us step?)
    (hrest : firstKind rest ∈ [Kind.closeParen, .openCurly]) :
    Takes forStep (us ++ rest) step? rest := by
  cases h with
  | none =>
    have hlead : Lead.assignment.kinds.isPrefixOf (rest.map Word.kind) = false := by
      cases rest with
      | nil => rfl
      | cons s rest =>
        have hs : s.kind ≠ .identifier := by
          rintro hk
          simp [hk] at hrest
        simp [Lead.kinds, List.isPrefixOf, hs.symm]
    exact (Takes.leads hlead).else .pure
  | some h =>
    have hmath : firstKind rest ≠ .mathOp := by
      rintro hk
      simp [hk] at hrest
    exact (Takes.leads (h.leads rest)).then ((h.takes hmath).bind .pure)

/-- The words of a loop header, its two semicolons among them, are taken as its three parts, before what
ends the header. -/
theorem ForHeader.Derives.takes {init? : Option Stmt} {condition? : Option Condition}
    {step? : Option Assignment} (h : ForHeader.Derives us init? condition? step?)
    (hrest : firstKind rest ∈ [Kind.closeParen, .openCurly]) :
    Takes forHeader (us ++ rest) (init?, condition?, step?) rest := by
  cases h with
  | mk hinit hs hcondition ht hstep =>
    simp only [List.append_assoc, List.cons_append]
    refine (takes_forInit hinit (by simp [hs])).bind (.expect hs (by decide) ?_)
    refine (takes_forCondition hcondition (by simp [ht])).bind (.expect ht (by decide) ?_)
    exact (takes_forStep hstep hrest).bind .pure

/-- The parts of a counting loop start with none in parentheses. -/
theorem ForHeader.Derives.firstKind_ne {init? : Option Stmt} {condition? : Option Condition}
    {step? : Option Assignment} (h : ForHeader.Derives us init? condition? step?)
    (rest : List Word) : firstKind (us ++ rest) ≠ .openParen := by
  cases h with
  | mk hinit hs =>
    rw [List.append_assoc]
    cases hinit with
    | none => simp [hs]
    | some hinit =>
      cases hinit with
      | declaration h => simp [h.firstKind_eq]
      | assignment h => simp [h.firstKind_eq]

section

variable {w : Word} {init? : Option Stmt} {condition? : Option Condition} {step? : Option Assignment}

/-- A for word, a header without parentheses and a block are taken as a statement. -/
theorem takes_forLoop (hw : w.kind = .forWord) (hheader : ForHeader.Derives us init? condition? step?)
    (hfirst : firstKind vs = .openCurly) (hbody : Takes (blockOf statement) vs body rest) :
    Takes statement (w :: (us ++ vs)) (.forLoop init? condition? step? body) rest := by
  refine takes_statement (Takes.kind.bind ?_)
  rw [Word.firstKind_cons, hw]
  show Takes (forLoopOf statement) _ _ _
  rw [forLoopOf_eq]
  refine .expect hw (by decide) ((Takes.accept_false (hheader.firstKind_ne vs)).bind ?_)
  apply (hheader.takes (by simp [hfirst])).bind
  exact Takes.pure.bind (hbody.bind .pure)

/-- A for word, a header in parentheses and a block are taken as the same statement as without the
parentheses. -/
theorem takes_forLoop_parenthesised {left right : Word} (hw : w.kind = .forWord)
    (hleft : left.kind = .openParen) (hheader : ForHeader.Derives us init? condition? step?)
    (hright : right.kind = .closeParen) (hbody : Takes (blockOf statement) vs body rest) :
    Takes statement (w :: left :: (us ++ right :: vs)) (.forLoop init? condition? step? body)
      rest := by
  refine takes_statement (Takes.kind.bind ?_)
  rw [Word.firstKind_cons, hw]
  show Takes (forLoopOf statement) _ _ _
  rw [forLoopOf_eq]
  refine .expect hw (by decide) ((Takes.accept_true hleft (by decide)).bind ?_)
  apply (hheader.takes (by simp [hright])).bind
  have hclose : Takes (closeParenIf true) (right :: vs) () vs := .expect hright (by decide) .pure
  exact hclose.bind (hbody.bind .pure)

end

/-- Where a statement is derived, none of the words that end a block or continue a statement is. -/
theorem Stmt.Derives.startKind_not_mem {omission : Omission} {stmt : Stmt} {next : Kind}
    (h : stmt.Derives omission us next) :
    stmt.startKind ∉ [Kind.closeCurly, .endOfInput, .mathOp, .assignment, .elseWord] := by
  cases h <;> simp [Stmt.startKind]

/-- No word that continues a statement is the first inside a block. -/
theorem Block.Inside.firstKind_not_mem {omission : Omission} (h : Block.Inside omission us body) :
    Word.firstKind us ∉ Kind.continuing := by
  cases h with
  | close hw => simp [hw, Kind.continuing]
  | more hstmt =>
    rw [hstmt.firstKind_eq]
    have := hstmt.startKind_not_mem
    simp only [Kind.continuing, List.mem_cons] at this ⊢
    tauto

/-- A statement in a block is a round of the loop over the block. -/
theorem takes_blockRound {stmt : Stmt} {next : Kind} (hstmt : stmt.Derives .settled us next)
    (h : Takes statement (us ++ vs) stmt vs) :
    Takes (blockRound statement) (us ++ vs) (.next (some stmt)) vs := by
  have hfirst := hstmt.startKind_not_mem
  rw [← hstmt.firstKind_eq vs] at hfirst
  simp only [List.mem_cons, not_or] at hfirst
  obtain ⟨hclose, hend, -⟩ := hfirst
  refine (Takes.accept_false hclose).else ((Takes.atEnd_false hend).else ?_)
  exact h.bind .pure

end

mutual

/-- Statements are taken before words that do not continue them, by recursion on the derivation. -/
theorem Stmt.Derives.takes {us rest : List Word} {stmt : Stmt} :
    stmt.Derives .settled us (firstKind rest) → firstKind rest ∉ Kind.continuing →
      Takes statement (us ++ rest) stmt rest
  | .empty hw, _ => by
    refine takes_statement (Takes.kind.bind ?_)
    rw [List.singleton_append, Word.firstKind_cons, hw]
    exact .advance (by simp [hw]) .pure
  | .compound hbody, _ => by
    refine takes_statement (Takes.kind.bind ?_)
    rw [hbody.firstKind_eq]
    exact hbody.takes.map _
  | .declaration h hend, hrest => takes_declaration h hend hrest
  | .assignment h hend, hrest => takes_assignment h hend hrest
  | .call hname hargs hend, _ => takes_call hname hargs hend
  | .ret hw hend hvalue, _ => takes_ret hw hend hvalue
  | .retValue hw hvalue hend, hrest => takes_retValue hw hvalue hend hrest
  | .ifThen hw htest hbody, hrest => by
    have helse : firstKind rest ≠ .elseWord := by
      intro hk
      simp [hk, Kind.continuing] at hrest
    rw [List.append_assoc]
    exact takes_ifElse hw htest (hbody.firstKind_eq _) hbody.takes (takes_otherwise_none helse)
  | .ifElse hw htest hbody hv hother, _ => by
    simp only [List.append_assoc, List.cons_append]
    exact takes_ifElse hw htest (hbody.firstKind_eq _) hbody.takes
      (takes_otherwise_block hv (hother.firstKind_eq _) hother.takes)
  | .ifElseIf hw htest hbody hv hother, hrest => by
    simp only [List.append_assoc, List.cons_append]
    exact takes_ifElse hw htest (hbody.firstKind_eq _) hbody.takes
      (takes_otherwise_if hv (hother.firstKind_eq _) (hother.takes hrest))
  | .whileLoop hw htest hbody, _ => by
    rw [List.append_assoc]
    exact takes_whileLoop hw htest (hbody.firstKind_eq _) hbody.takes
  | .forLoop hw hheader hbody, _ => by
    rw [List.append_assoc]
    exact takes_forLoop hw hheader (hbody.firstKind_eq _) hbody.takes
  | .forLoopParenthesised hw hleft hheader hright hbody, _ => by
    simp only [List.append_assoc, List.cons_append]
    exact takes_forLoop_parenthesised hw hleft hheader hright hbody.takes

/-- The words of a block, its brackets among them, are taken as its statements, whatever words follow. -/
theorem Block.Derives.takes {us rest : List Word} {body : Block} :
    Block.Derives .settled us body → Takes (blockOf statement) (us ++ rest) body rest
  | .mk hw h => .expect hw (by decide) h.takes

/-- The words inside a block and its closing bracket are taken by the loop over the block. The word behind a
statement is the first word of the rest, and no rest of a block starts with a word that would continue a
statement. -/
theorem Block.Inside.takes {us rest : List Word} {body : Block} :
    Block.Inside .settled us body →
      Takes (rounds (blockRound statement)) (us ++ rest) body rest
  | .close hw =>
    ((Takes.accept_true hw (by decide)).then .pure).rounds_stop
      (progressive_blockRound strict_statement)
  | @Block.Inside.more _ us vs _ _ hstmt hbody => by
    have hnext : firstKind (vs ++ rest) = firstKind vs := Word.firstKind_append hbody.ne_nil
    rw [← hnext] at hstmt
    have hfollow : firstKind (vs ++ rest) ∉ Kind.continuing := hnext ▸ hbody.firstKind_not_mem
    have hround := takes_blockRound hstmt (hstmt.takes hfollow)
    rw [List.append_assoc]
    exact hround.rounds_next (progressive_blockRound strict_statement) hbody.takes

end

/-! ### Items and programs -/

section

variable {vs : List Word}

/-- A word that may be left out is taken if it is there, and no other is. -/
theorem takes_optional {wanted : Kind} (h : Optional wanted us) (hwanted : wanted ≠ .endOfInput)
    (hrest : firstKind rest ≠ wanted) : ∃ found, Takes (accept wanted) (us ++ rest) found rest := by
  cases h with
  | absent => exact ⟨false, .accept_false hrest⟩
  | present hw => exact ⟨true, .accept_true hw hwanted⟩

/-- Before a word that is neither optional nor excluded, neither is what may be left out. -/
theorem Word.Optional.firstKind_not_mem {wanted : Kind} {kinds : List Kind} (h : Optional wanted us)
    (hwanted : wanted ∉ kinds) (hrest : firstKind rest ∉ kinds) : firstKind (us ++ rest) ∉ kinds := by
  cases h with
  | absent => exact hrest
  | present hw => simpa [hw] using hwanted

/-- A semicolon that may be left out behind a declaration or an import: if it is, no word may follow that
would be taken in its place. -/
theorem takes_ending {ending : List Word} (h : Optional .semicolon ending)
    (hrest : ending = [] → firstKind rest ∉ [Kind.mathOp, .assignment, .semicolon]) :
    firstKind (ending ++ rest) ∉ [Kind.mathOp, .assignment] ∧
      ∃ found, Takes (accept .semicolon) (ending ++ rest) found rest := by
  cases h with
  | absent =>
    have hnext := hrest rfl
    simp only [List.mem_cons, List.not_mem_nil, or_false, not_or] at hnext
    obtain ⟨hmath, hassign, hsemicolon⟩ := hnext
    exact ⟨by simp [hmath, hassign], false, .accept_false hsemicolon⟩
  | present hw => exact ⟨by simp [hw], true, .accept_true hw (by decide)⟩

/-- The words of the parameters start with the closing parenthesis or with the type of the next
parameter. -/
theorem Parameters.Inside.firstKind_mem {params : List Declaration}
    (h : Parameters.Inside us params) (rest : List Word) :
    firstKind (us ++ rest) ∈ [Kind.closeParen, .typeKeyword] := by
  cases h with
  | close hw => simp [hw]
  | more hparam => simp [List.append_assoc, hparam.firstKind_eq]

/-- A parameter and the comma behind it, if there is one, are one round of the loop over the parameters. -/
theorem takes_parameter {comma : List Word} {param : Declaration} (hparam : param.Derives us)
    (hcomma : Optional .comma comma) (hrest : firstKind rest ∈ [Kind.closeParen, .typeKeyword]) :
    Takes parameter (us ++ comma ++ rest) (.next (some param)) rest := by
  have hnext : firstKind rest ∉ [Kind.mathOp, .assignment, .comma] := by
    simp only [List.mem_cons, List.not_mem_nil, or_false] at hrest
    rcases hrest with hk | hk <;> simp [hk]
  have hafter : firstKind (comma ++ rest) ∉ [Kind.mathOp, .assignment] :=
    hcomma.firstKind_not_mem (by decide) fun hk => hnext (List.mem_append_left [Kind.comma] hk)
  have hfirst := hparam.firstKind_eq (comma ++ rest)
  obtain ⟨found, htaken⟩ := takes_optional hcomma (by decide)
    (fun hk => hnext (by simp [hk]) : firstKind rest ≠ .comma)
  rw [List.append_assoc]
  refine (Takes.accept_false (by simp [hfirst])).else ((Takes.atEnd_false (by simp [hfirst])).else ?_)
  apply Takes.kind.bind
  rw [if_neg (by simp [hfirst])]
  exact (hparam.takes hafter).bind (htaken.bind .pure)

/-- The words of the parameters up to the closing parenthesis are taken by the loop over the parameters, by
induction on their derivation. -/
theorem Parameters.Inside.takes {params : List Declaration} (h : Parameters.Inside us params) :
    Takes (rounds parameter) (us ++ rest) params rest := by
  induction h with
  | close hw =>
    exact ((Takes.accept_true hw (by decide)).then .pure).rounds_stop progressive_parameter
  | @more us comma vs param params hparam hcomma hparams ih =>
    have hround := takes_parameter hparam hcomma (hparams.firstKind_mem rest)
    rw [List.append_assoc]
    exact hround.rounds_next progressive_parameter ih

/-- The words of a parameter list, its two parentheses among them, are taken as its parameters, whatever
words follow. -/
theorem Parameters.Derives.takes {params : List Declaration} (h : Parameters.Derives us params) :
    Takes parameters (us ++ rest) params rest := by
  cases h with
  | mk hw h => exact .expect hw (by decide) h.takes

/-- The kinds of the words that an item starts with. -/
theorem Item.Derives.firstKind_mem {omission : Omission} {item : Item}
    (h : item.Derives omission us) (rest : List Word) :
    firstKind (us ++ rest) ∈ [Kind.typeKeyword, .entryWord, .importWord] := by
  cases h with
  | function ht => simp [ht.kind]
  | declaration h => simp [List.append_assoc, h.firstKind_eq]
  | entry hw => simp [hw]
  | importFile hw => simp [hw]

/-- The last word is one that ends a statement or a block. -/
def Word.Ended (us : List Word) : Prop :=
  ∃ last, us.getLast? = some last ∧ last.kind ∈ [Kind.semicolon, .closeCurly]

/-- Words whose last one is an operand do not end a statement or a block. -/
theorem Word.not_ended {w : Word} (hw : w.kind ∈ [Kind.identifier, .literal])
    (hlast : us.getLast? = some w) : ¬ Ended us := by
  rintro ⟨last, hlast', hkind⟩
  obtain rfl : w = last := by simpa [hlast] using hlast'
  simp only [List.mem_cons, List.not_mem_nil, or_false] at hw hkind
  rcases hw with hw | hw <;> simp [hw] at hkind

/-- An expression ends with an operand, so the words up to its end do not end a statement, whatever stands
before it. -/
theorem Expr.Derives.not_ended {value : Expr} (h : value.Derives us) (front : List Word) :
    ¬ Word.Ended (front ++ us) := by
  induction h generalizing front with
  | operand hw => exact Word.not_ended hw.kind_mem (by simp)
  | @binary w s left op us right hw hs hright ih => simpa using ih (front ++ [w, s])

/-- A declaration ends with its name or its value, so its words alone do not end a statement. -/
theorem Declaration.Derives.not_ended {declared : Declaration} (h : declared.Derives us) :
    ¬ Word.Ended us := by
  cases h with
  | @plain t colon name type ht hcolon hname =>
    exact Word.not_ended (w := name) (by simp [hname]) rfl
  | @valued t colon type us first ht hcolon hfirst =>
    cases hfirst with
    | @mk name equals us value hname hequals hvalue => exact hvalue.not_ended [t, colon, name, equals]

/-- An item that has ended is taken before any word, and every item before a word that does not continue
it. -/
theorem Item.Derives.takes_before {item : Item} (h : item.Derives .settled us)
    (hrest : Word.Ended us ∨ firstKind rest ∉ [Kind.mathOp, .assignment, .semicolon]) :
    Takes topLevel (us ++ rest) (.next (some item)) rest := by
  have hmore : firstKind (us ++ rest) ≠ .endOfInput := by
    intro hk
    have := h.firstKind_mem rest
    simp [hk] at this
  apply (Takes.accept_false hmore).else
  cases h with
  | function ht hname hparams hbody =>
    apply (Takes.leads (by simp [Lead.kinds, ht.kind, hname])).then
    rw [List.append_assoc]
    refine Takes.bind ?_ .pure
    refine ht.takes.bind ((Takes.expectValue hname (by decide)).bind ?_)
    exact hparams.takes.bind ((hbody.takes).bind .pure)
  | @declaration us ending declared h hend =>
    have hnext : ending = [] → firstKind rest ∉ [Kind.mathOp, .assignment, .semicolon] := by
      rintro rfl
      rw [List.append_nil] at hrest
      exact hrest.resolve_left h.not_ended
    obtain ⟨hafter, found, htaken⟩ := takes_ending hend hnext
    -- the colon behind the type tells a declaration from a function
    have hfunction : Lead.function.kinds.isPrefixOf ((us ++ (ending ++ rest)).map Word.kind) = false := by
      cases h with
      | plain ht hcolon => simp [Lead.kinds, List.isPrefixOf, ht.kind, hcolon]
      | valued ht hcolon => simp [Lead.kinds, List.isPrefixOf, ht.kind, hcolon]
    rw [List.append_assoc]
    refine (Takes.leads hfunction).else ((Takes.leads (h.leads _)).then ?_)
    exact (h.takes hafter).bind (htaken.bind .pure)
  | entry hw hbody =>
    apply (Takes.leads (by simp [Lead.kinds, List.isPrefixOf, hw])).else
    apply (Takes.leads (by simp [Lead.kinds, List.isPrefixOf, hw])).else
    apply (Takes.leads (by simp [Lead.kinds, hw])).then
    refine Takes.bind ?_ .pure
    exact .expect hw (by decide) (hbody.takes.bind .pure)
  | @importFile w path ending hw hpath hend =>
    have hnext : ending = [] → firstKind rest ∉ [Kind.mathOp, .assignment, .semicolon] := by
      rintro rfl
      exact hrest.resolve_left (Word.not_ended (w := path) (by simp [hpath]) rfl)
    obtain ⟨-, found, htaken⟩ := takes_ending hend hnext
    apply (Takes.leads (by simp [Lead.kinds, List.isPrefixOf, hw])).else
    apply (Takes.leads (by simp [Lead.kinds, List.isPrefixOf, hw])).else
    apply (Takes.leads (by simp [Lead.kinds, List.isPrefixOf, hw])).else
    apply Takes.kind.bind
    rw [if_pos (by simpa using hw)]
    refine Takes.bind ?_ (htaken.bind .pure)
    exact .expect hw (by decide) ((Takes.expectValue hpath (by decide)).bind .pure)

/-- An item is taken before another one and at the end. -/
theorem Item.Derives.takes {item : Item} (h : item.Derives .settled us)
    (hrest : firstKind rest ∈ [Kind.typeKeyword, .entryWord, .importWord, .endOfInput]) :
    Takes topLevel (us ++ rest) (.next (some item)) rest := by
  refine h.takes_before (.inr ?_)
  simp only [List.mem_cons, List.not_mem_nil, or_false] at hrest
  rcases hrest with hk | hk | hk | hk <;> simp [hk]

/-- A program that is derived from the words up to an end token is read without a report. -/
theorem Program.Derives.reads {items : Program} {cursor : Cursor}
    (h : Program.Derives .settled us items) (hrest : firstKind rest = .endOfInput)
    (hc : cursor.Valid) (hahead : cursor.ahead = us ++ rest) :
    ∃ after, Reads program cursor items after := by
  induction h generalizing cursor with
  | nil =>
    have hk : cursor.kind = .endOfInput := by
      rw [Cursor.kind_eq_firstKind, hahead]
      exact hrest
    obtain ⟨-, hrun⟩ | ⟨hne, -⟩ | ⟨hne, -⟩ | ⟨hne, -⟩ | ⟨hne, -⟩ | ⟨hne, -⟩ := topLevel_cases cursor
    · -- an end token stops the loop and is left behind, if it is not the last token
      have hstop : Reads topLevel cursor .stop cursor.step :=
        ⟨by rw [hrun], by rw [hrun], Cursor.diagnostics_step cursor⟩
      exact ⟨_, hstop.rounds_stop progressive_topLevel hc⟩
    · exact absurd hk hne
    · exact absurd hk hne
    · exact absurd hk hne
    · simp [hk] at hne
    · exact absurd hk hne
  | @cons us vs item items hitem hitems ih =>
    have hnext : firstKind (vs ++ rest) ∈ [Kind.typeKeyword, .entryWord, .importWord, .endOfInput] := by
      cases hitems with
      | nil => simp [hrest]
      | cons hitem hitems =>
        rw [List.append_assoc]
        exact List.mem_append_left [Kind.endOfInput] (hitem.firstKind_mem _)
    rw [List.append_assoc] at hahead
    obtain ⟨middle, hread, hmiddle⟩ := hitem.takes hnext cursor hc hahead
    obtain ⟨after, hreads⟩ := ih (hread.valid hc) hmiddle
    exact ⟨after, hread.rounds_next progressive_topLevel hreads hc⟩

end

end BraceLang
