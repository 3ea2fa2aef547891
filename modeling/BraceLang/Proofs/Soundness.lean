import BraceLang.Proofs.Derivation
import BraceLang.Proofs.Unbounded

/-!
# What is read without complaint is derived

`Reads` is a run of a production that reports nothing. Such a run takes words off the front of what the
cursor sees, and the grammar derives what was read from exactly these words. There is one lemma for each
part of the grammar. Statements and blocks need each other, so the lemma about blocks takes what is known
about the statements inside as a hypothesis, and the lemma about statements is an induction on the number of
tokens that remain.

Nothing that such a run leaves out could have been taken: derivations are in the grammar
`Omission.settled`.
-/

set_option autoImplicit false

namespace BraceLang.Production

open Cursor (reaches_step)
open Word (firstKind Optional Perhaps)

variable {α β : Type} {p : Production α} {f : α → Production β} {cursor middle after : Cursor}

/-! ### Runs that report nothing -/

/-- A run without a report: the production gives `a` and leaves the cursor at `after`. -/
structure Reads (p : Production α) (cursor : Cursor) (a : α) (after : Cursor) : Prop where
  result : (p cursor).1 = a
  state : (p cursor).2 = after
  quiet : after.diagnostics = cursor.diagnostics

/-- A run is told by what the production does: it has no other result and leads nowhere else. -/
theorem Reads.eq {a b : α} (h : Reads p cursor a after) (hrun : p cursor = (b, middle)) :
    b = a ∧ middle = after := by
  have hresult := h.result
  have hstate := h.state
  rw [hrun] at hresult hstate
  exact ⟨hresult, hstate⟩

/-- A run without a report leads from a valid cursor to a valid one, as every run does. -/
theorem Reads.valid {a : α} [hp : Forward p] (h : Reads p cursor a after) (hc : cursor.Valid) :
    after.Valid :=
  h.state ▸ hc.reaches (hp.reaches cursor)

/-- A run without a report leaves no more tokens than there were. -/
theorem Reads.remaining_le {a : α} [hp : Forward p] (h : Reads p cursor a after) :
    after.remaining ≤ cursor.remaining :=
  h.state ▸ (hp.reaches cursor).remaining_le

/-- A sequence reports nothing only if its parts report nothing. -/
theorem Reads.split {b : β} [hp : Forward p] [hf : ∀ a, Forward (f a)]
    (h : Reads (p >>= f) cursor b after) :
    ∃ a middle, Reads p cursor a middle ∧ Reads (f a) middle b after := by
  have hsecond := (hf (p cursor).1).reaches (p cursor).2
  rw [show (f (p cursor).1 (p cursor).2).2 = after from h.state] at hsecond
  obtain ⟨hfirst, hrest⟩ := (hp.reaches cursor).quiet hsecond h.quiet
  exact ⟨_, _, ⟨rfl, rfl, hfirst⟩, ⟨h.result, h.state, hrest⟩⟩

/-- A production that only gives a value reads nothing. -/
theorem Reads.pure_eq {a b : α} (h : Reads (pure a) cursor b after) : b = a ∧ after = cursor :=
  ⟨h.result.symm, h.state.symm⟩

/-- A run whose value is changed afterwards is a run with the value as it was. -/
theorem Reads.of_map {g : α → β} {b : β} (h : Reads (g <$> p) cursor b after) :
    ∃ a, b = g a ∧ Reads p cursor a after :=
  ⟨_, h.result.symm, rfl, h.state, h.quiet⟩

/-- A run of another production that does the same on the cursor. -/
theorem Reads.congr {q : Production α} {a : α} (h : Reads p cursor a after)
    (hrun : p cursor = q cursor) : Reads q cursor a after :=
  ⟨hrun ▸ h.result, hrun ▸ h.state, h.quiet⟩

/-- Whoever reports something reports it to the end, so that a run without a report has none on the way. -/
theorem Reads.no_report {a b : α} {cause : Cause} {position : Position}
    (h : Reads p cursor a after) (hrun : p cursor = (b, middle))
    (hr : (cursor.reportAt cause position).Reaches middle) : False := by
  obtain ⟨-, rfl⟩ := h.eq hrun
  have hlen := hr.diagnostics.length_le
  rw [h.quiet] at hlen
  simp only [Cursor.reportAt, Array.toList_push, List.length_append, List.length_singleton] at hlen
  omega

/-! ### Tokens -/

/-- A demanded token is there, since it would have been reported otherwise. -/
theorem Reads.expect {wanted : Kind} {token? : Option Token}
    (h : Reads (expect wanted) cursor token? after) (hc : cursor.Valid)
    (hwanted : wanted ≠ .endOfInput) :
    ∃ w : Word, cursor.ahead = w :: after.ahead ∧ w.kind = wanted := by
  obtain ⟨hk, hrun⟩ | ⟨-, hrun⟩ := expect_cases cursor wanted
  · obtain ⟨-, rfl⟩ := h.eq hrun
    exact ⟨cursor.current.word, hc.ahead_eq (hk ▸ hwanted), hk⟩
  · exact (h.no_report hrun (reaches_step _)).elim

/-- A token that is demanded for its value is there, and the value is its text. -/
theorem Reads.expectValue {wanted : Kind} {text : String}
    (h : Reads (expectValue wanted) cursor text after) (hc : cursor.Valid)
    (hwanted : wanted ≠ .endOfInput) :
    ∃ w : Word, cursor.ahead = w :: after.ahead ∧ w.kind = wanted ∧ text = w.value := by
  obtain ⟨hk, hrun⟩ | ⟨-, hrun⟩ := expectValue_cases cursor wanted
  · obtain ⟨rfl, rfl⟩ := h.eq hrun
    exact ⟨cursor.current.word, hc.ahead_eq (hk ▸ hwanted), hk, rfl⟩
  · exact (h.no_report hrun (reaches_step _)).elim

/-- A token that may be there is taken if it is. -/
theorem Reads.accept {wanted : Kind} {found : Bool} (h : Reads (accept wanted) cursor found after)
    (hc : cursor.Valid) (hwanted : wanted ≠ .endOfInput) :
    (found = true ∧ ∃ w : Word, cursor.ahead = w :: after.ahead ∧ w.kind = wanted) ∨
    (found = false ∧ after = cursor ∧ after.kind ≠ wanted) := by
  obtain ⟨hk, hrun⟩ | ⟨hk, hrun⟩ := accept_cases cursor wanted
  · obtain ⟨rfl, rfl⟩ := h.eq hrun
    exact .inl ⟨rfl, cursor.current.word, hc.ahead_eq (hk ▸ hwanted), hk⟩
  · obtain ⟨rfl, rfl⟩ := h.eq hrun
    exact .inr ⟨rfl, rfl, hk⟩

/-! ### Types, expressions and conditions -/

/-- A type that is read without a report is spelled by the word that was taken for it. -/
theorem Reads.dataType {type : DataType} (h : Reads dataType cursor type after)
    (hc : cursor.Valid) : ∃ w : Word, cursor.ahead = w :: after.ahead ∧ type.Spelled w := by
  obtain ⟨-, hrun⟩ | ⟨text, -, -, hrun⟩ | ⟨hk, hknown, hrun⟩ := dataType_cases cursor
  · exact (h.no_report hrun (reaches_step _)).elim
  · obtain ⟨-, rfl⟩ := h.eq hrun
    have := h.quiet
    simp [Cursor.reportAt] at this
  · obtain ⟨rfl, rfl⟩ := h.eq hrun
    refine ⟨cursor.current.word, hc.ahead_eq (by simp [hk]), hk, ?_⟩
    exact DataType.mem_keywords_iff.2 ⟨rfl, hknown⟩

/-- An operand that is read without a report is spelled by the word that was taken for it. -/
theorem Reads.operand {value : Operand} (h : Reads operand cursor value after)
    (hc : cursor.Valid) : ∃ w : Word, cursor.ahead = w :: after.ahead ∧ value.Spelled w := by
  obtain ⟨hk, hrun⟩ | ⟨hk, hrun⟩ | ⟨-, -, hrun⟩ := operand_cases cursor
  · obtain ⟨rfl, rfl⟩ := h.eq hrun
    exact ⟨cursor.current.word, hc.ahead_eq (by simp [hk]), .identifier hk⟩
  · obtain ⟨rfl, rfl⟩ := h.eq hrun
    exact ⟨cursor.current.word, hc.ahead_eq (by simp [hk]), .literal hk⟩
  · exact (h.no_report hrun (.refl _)).elim

/-- An operator that has just been taken has a meaning. -/
theorem Reads.mathOperator {op : MathOp} (h : Reads mathOperator cursor.step op after)
    (hc : cursor.Valid) (hk : cursor.kind = .mathOp) :
    after = cursor.step ∧ op.Spelled cursor.current.word := by
  have hprevious : cursor.step.previous = cursor.current := hc.previous_step (by simp [hk])
  obtain ⟨symbol, -, hrun⟩ | ⟨hknown, hrun⟩ := mathOperator_cases cursor.step
  · exact (h.no_report hrun (.refl _)).elim
  · obtain ⟨rfl, rfl⟩ := h.eq hrun
    refine ⟨rfl, hk, MathOp.mem_symbols_iff.2 ⟨?_, hknown⟩⟩
    rw [hprevious]
    rfl

/-- A comparison that has just been taken without a report is two equals signs. -/
theorem Reads.comparison {op : CompareOp} (h : Reads comparison cursor.step op after)
    (hc : cursor.Valid) (hk : cursor.kind = .compareOp) :
    after = cursor.step ∧ op = .equals ∧ cursor.current.word.value = "==" := by
  have hprevious : cursor.step.previous = cursor.current := hc.previous_step (by simp [hk])
  obtain ⟨symbol, -, hrun⟩ | ⟨hknown, hrun⟩ := comparison_cases cursor.step
  · exact (h.no_report hrun (.refl _)).elim
  · obtain ⟨rfl, rfl⟩ := h.eq hrun
    rw [hprevious] at hknown
    exact ⟨rfl, rfl, CompareOp.ofSymbol_eq_equals_iff.1 hknown⟩

/-- Behind an operand, an expression ends without a token taken, or an operator and an operand are taken. -/
theorem Reads.link {outcome : Round (MathOp × Operand)} (h : Reads link cursor outcome after)
    (hc : cursor.Valid) :
    (outcome = .stop ∧ after = cursor) ∨
    (∃ (s v : Word) (op : MathOp) (right : Operand), outcome = .next (some (op, right)) ∧
      cursor.ahead = s :: v :: after.ahead ∧ op.Spelled s ∧ right.Spelled v) := by
  obtain ⟨found, m, haccept, h⟩ := h.split
  obtain ⟨hk, hrun⟩ | ⟨hk, hrun⟩ := accept_cases cursor .mathOp
  · obtain ⟨rfl, rfl⟩ := haccept.eq hrun
    rw [if_pos rfl] at h
    obtain ⟨op, m, hop, h⟩ := h.split
    obtain ⟨right, m', hright, h⟩ := h.split
    obtain ⟨rfl, rfl⟩ := h.pure_eq
    obtain ⟨rfl, hs⟩ := hop.mathOperator hc hk
    obtain ⟨v, hv, hspelled⟩ := hright.operand hc.step
    refine .inr ⟨cursor.current.word, v, op, right, rfl, ?_, hs, hspelled⟩
    rw [hc.ahead_eq (by simp [hk]), hv]
  · obtain ⟨rfl, rfl⟩ := haccept.eq hrun
    rw [if_neg Bool.false_ne_true] at h
    exact .inl h.pure_eq

/-- Induction over the rounds of a loop that reports nothing: none of its rounds does. -/
theorem Reads.loop {round : Production (Round α)} [hf : Forward round] {elements : List α}
    {motive : Cursor → List α → Prop} (h : Reads (rounds round) cursor elements after)
    (hp : Progressive round) (hc : cursor.Valid)
    (stop : ∀ c, c.Valid → Reads round c .stop after → motive c [])
    (last : ∀ c element, c.Valid → Reads round c (.last element) after → motive c [element])
    (skip : ∀ c m elements, c.Valid → Reads round c (.next none) m →
      motive m elements → motive c elements)
    (next : ∀ c m element elements, c.Valid → Reads round c (.next (some element)) m →
      motive m elements → motive c (element :: elements)) :
    motive cursor elements := by
  have hrepeats : Repeats round cursor elements after :=
    (repeats_iff hp hc).2 (Prod.ext h.result h.state)
  have hq := h.quiet
  clear h
  induction hrepeats with
  | stop hround => exact stop _ hc ⟨hround, rfl, hq⟩
  | last hround => exact last _ _ hc ⟨hround, rfl, hq⟩
  | skip hround more ih =>
    obtain ⟨hq₁, hq₂⟩ := (hf.reaches _).quiet more.reaches hq
    have hread : Reads round _ _ _ := ⟨hround, rfl, hq₁⟩
    exact skip _ _ _ hc hread (ih (hread.valid hc) stop last hq₂)
  | next hround more ih =>
    obtain ⟨hq₁, hq₂⟩ := (hf.reaches _).quiet more.reaches hq
    have hread : Reads round _ _ _ := ⟨hround, rfl, hq₁⟩
    exact next _ _ _ _ hc hread (ih (hread.valid hc) stop last hq₂)

/-- The operators and operands that follow an operand make up an expression with it. -/
theorem Reads.links {links : List (MathOp × Operand)} (h : Reads (rounds Production.link) cursor links after)
    (hc : cursor.Valid) {w : Word} {first : Operand} (hw : first.Spelled w) :
    ∃ us, cursor.ahead = us ++ after.ahead ∧ (Expr.chain first links).Derives (w :: us) := by
  revert w first
  refine h.loop progressive_link hc (motive := fun c links => ∀ {w : Word} {first : Operand},
    first.Spelled w →
      ∃ us, c.ahead = us ++ after.ahead ∧ (Expr.chain first links).Derives (w :: us)) ?_ ?_ ?_ ?_
  · intro c hc h w first hw
    obtain ⟨-, rfl⟩ | ⟨s, v, op, right, hnext, -⟩ := h.link hc
    · exact ⟨[], rfl, .operand hw⟩
    · cases hnext
  · intro c link hc h
    obtain ⟨hstop, -⟩ | ⟨s, v, op, right, hnext, -⟩ := h.link hc
    · cases hstop
    · cases hnext
  · intro c m links hc h
    obtain ⟨hstop, -⟩ | ⟨s, v, op, right, hnext, -⟩ := h.link hc
    · cases hstop
    · cases hnext
  · intro c m link links hc h ih w first hw
    obtain ⟨hstop, -⟩ | ⟨s, v, op, right, hlink, hahead, hop, hright⟩ := h.link hc
    · cases hstop
    · cases hlink
      obtain ⟨us, hus, hderives⟩ := ih hright
      refine ⟨s :: v :: us, by rw [hahead, hus]; rfl, ?_⟩
      rw [Expr.chain_cons]
      exact .binary hw hop hderives

/-- An expression that is read without a report is derived from the words that were taken for it. -/
theorem Reads.expr {value : Expr} (h : Reads expr cursor value after) (hc : cursor.Valid) :
    ∃ us, cursor.ahead = us ++ after.ahead ∧ value.Derives us := by
  obtain ⟨first, m, hfirst, h⟩ := h.split
  obtain ⟨links, m', hlinks, h⟩ := h.split
  obtain ⟨rfl, rfl⟩ := h.pure_eq
  have hm := hfirst.valid hc
  obtain ⟨w, hw, hspelled⟩ := hfirst.operand hc
  obtain ⟨us, hus, hderives⟩ := hlinks.links hm hspelled
  exact ⟨w :: us, by rw [hw, hus]; rfl, hderives⟩

/-- The rest of a condition makes a condition together with the word of its first operand. -/
theorem Reads.conditionFrom {left : Operand} {test : Condition} {w : Word}
    (h : Reads (conditionFrom left) cursor test after) (hc : cursor.Valid) (hw : left.Spelled w) :
    ∃ us, cursor.ahead = us ++ after.ahead ∧ test.Bare (w :: us) := by
  obtain ⟨found, m, haccept, h⟩ := h.split
  obtain ⟨hk, hrun⟩ | ⟨hk, hrun⟩ := accept_cases cursor .compareOp
  · obtain ⟨rfl, rfl⟩ := haccept.eq hrun
    rw [if_pos rfl] at h
    obtain ⟨op, m, hop, h⟩ := h.split
    obtain ⟨right, m', hright, h⟩ := h.split
    obtain ⟨rfl, rfl⟩ := h.pure_eq
    obtain ⟨rfl, rfl, hequals⟩ := hop.comparison hc hk
    obtain ⟨v, hv, hspelled⟩ := hright.operand hc.step
    refine ⟨[cursor.current.word, v], ?_, .compare hw hk hequals hspelled⟩
    rw [hc.ahead_eq (by simp [hk]), hv]
    rfl
  · obtain ⟨rfl, rfl⟩ := haccept.eq hrun
    rw [if_neg Bool.false_ne_true] at h
    obtain ⟨rfl, rfl⟩ := h.pure_eq
    exact ⟨[], rfl, .operand hw⟩

/-- A parenthesis is closed if it was opened, and nothing is taken if it was not. -/
theorem Reads.closeParenIf {opened : Bool} {u : Unit}
    (h : Reads (closeParenIf opened) cursor u after) (hc : cursor.Valid) :
    (opened = true ∧ ∃ w : Word, cursor.ahead = w :: after.ahead ∧ w.kind = .closeParen) ∨
    (opened = false ∧ after = cursor) := by
  cases opened with
  | true =>
    obtain ⟨token?, m, hclose, h⟩ := h.split
    obtain ⟨-, rfl⟩ := h.pure_eq
    exact .inl ⟨rfl, hclose.expect hc (by decide)⟩
  | false => exact .inr ⟨rfl, h.pure_eq.2⟩

/-- A condition that is read without a report is derived from its words, with parentheses around it or
without. -/
theorem Reads.condition {test : Condition} (h : Reads condition cursor test after)
    (hc : cursor.Valid) : ∃ us, cursor.ahead = us ++ after.ahead ∧ test.Derives us := by
  obtain ⟨opened, m, hopen, h⟩ := h.split
  obtain ⟨left, m₁, hleft, h⟩ := h.split
  obtain ⟨read, m₂, hread, h⟩ := h.split
  obtain ⟨u, m₃, hclose, h⟩ := h.split
  obtain ⟨rfl, rfl⟩ := h.pure_eq
  have hm := hopen.valid hc
  have hm₁ := hleft.valid hm
  obtain ⟨w, hw, hspelled⟩ := hleft.operand hm
  obtain ⟨us, hus, hbare⟩ := hread.conditionFrom hm₁ hspelled
  obtain ⟨rfl, v, hv, hkind⟩ | ⟨rfl, hkind, hstay⟩ := hopen.accept hc (by decide)
  · obtain ⟨-, v', hv', hkind'⟩ | ⟨hclosed, -⟩ := hclose.closeParenIf (hread.valid hm₁)
    · exact ⟨v :: (w :: us) ++ [v'], by simp [hv, hw, hus, hv'], .parenthesised hkind hbare hkind'⟩
    · cases hclosed
  · obtain ⟨hopened, -⟩ | ⟨-, rfl⟩ := hclose.closeParenIf (hread.valid hm₁)
    · cases hopened
    · exact ⟨w :: us, by rw [← hkind, hw, hus]; rfl, .bare hbare⟩

/-- A round of arguments that reports nothing takes the closing parenthesis, or an expression with the word
behind it. -/
theorem Reads.argument {outcome : Round Expr} (h : Reads argument cursor outcome after)
    (hc : cursor.Valid) :
    (outcome = .stop ∧ ∃ w : Word, cursor.ahead = w :: after.ahead ∧ w.kind = .closeParen) ∨
    (∃ (us : List Word) (arg : Expr) (w : Word), cursor.ahead = us ++ w :: after.ahead ∧
      arg.Derives us ∧ (outcome = .last arg ∧ w.kind = .closeParen ∨
        outcome = .next (some arg) ∧ w.kind = .comma)) := by
  obtain ⟨hk, hrun⟩ | ⟨hk, hrun⟩ | ⟨-, -, hcomma, hrun⟩ | ⟨-, -, -, hrun⟩ := argument_cases cursor
  · obtain ⟨rfl, rfl⟩ := h.eq hrun
    exact .inl ⟨rfl, cursor.current.word, hc.ahead_eq (by simp [hk]), hk⟩
  · exact (h.no_report hrun (.refl _)).elim
  · obtain ⟨rfl, rfl⟩ := h.eq hrun
    have hexpr : Reads Production.expr cursor _ _ :=
      ⟨rfl, rfl, (Cursor.diagnostics_step _).symm.trans h.quiet⟩
    obtain ⟨us, hus, hderives⟩ := hexpr.expr hc
    obtain ⟨w, hw, hkind, -⟩ := (hexpr.valid hc).exists_word hcomma (by decide)
    exact .inr ⟨us, _, w, by rw [hus, hw], hderives, .inr ⟨rfl, hkind⟩⟩
  · obtain ⟨rfl, rfl⟩ := h.eq hrun
    obtain ⟨hq₁, hq₂⟩ := (Forward.reaches cursor).quiet (Forward.reaches _) h.quiet
    have hexpr : Reads Production.expr cursor _ _ := ⟨rfl, rfl, hq₁⟩
    have hclose : Reads (Production.expect .closeParen) _ _ _ := ⟨rfl, rfl, hq₂⟩
    obtain ⟨us, hus, hderives⟩ := hexpr.expr hc
    obtain ⟨w, hw, hkind⟩ := hclose.expect (hexpr.valid hc) (by decide)
    exact .inr ⟨us, _, w, by rw [hus, hw], hderives, .inl ⟨rfl, hkind⟩⟩

/-- Arguments that are read without a report are derived from their words, both parentheses included. -/
theorem Reads.arguments {args : List Expr} (h : Reads arguments cursor args after)
    (hc : cursor.Valid) : ∃ us, cursor.ahead = us ++ after.ahead ∧ Arguments.Derives us args := by
  obtain ⟨token?, m, hopen, h⟩ := h.split
  obtain ⟨w, hw, hkind⟩ := hopen.expect hc (by decide)
  have hinside : ∃ us, m.ahead = us ++ after.ahead ∧ Arguments.Inside us args := by
    -- a round ends in one of three ways, and each of the four goals keeps the one that it is about
    refine h.loop progressive_argument (hopen.valid hc) (motive := fun c args =>
      ∃ us, c.ahead = us ++ after.ahead ∧ Arguments.Inside us args) ?_ ?_ ?_ ?_
    · intro c hc h
      obtain ⟨-, w, hw, hkind⟩ | ⟨us, arg, w, -, -, ⟨hlast, -⟩ | ⟨hnext, -⟩⟩ := h.argument hc
      · exact ⟨[w], hw, .close hkind⟩
      · cases hlast
      · cases hnext
    · intro c arg hc h
      obtain ⟨hstop, -⟩ | ⟨us, arg, w, hus, hderives, ⟨hlast, hkind⟩ | ⟨hnext, -⟩⟩ := h.argument hc
      · cases hstop
      · cases hlast
        exact ⟨us ++ [w], by simp [hus], .last hderives hkind⟩
      · cases hnext
    · intro c m args hc h
      obtain ⟨hstop, -⟩ | ⟨us, arg, w, -, -, ⟨hlast, -⟩ | ⟨hnext, -⟩⟩ := h.argument hc
      · cases hstop
      · cases hlast
      · cases hnext
    · intro c m arg args hc h ⟨vs, hvs, hinside⟩
      obtain ⟨hstop, -⟩ | ⟨us, arg, w, hus, hderives, ⟨hlast, -⟩ | ⟨hnext, hkind⟩⟩ := h.argument hc
      · cases hstop
      · cases hlast
      · cases hnext
        exact ⟨us ++ w :: vs, by simp [hus, hvs], .more hderives hkind hinside⟩
  obtain ⟨us, hus, hinside⟩ := hinside
  exact ⟨w :: us, by rw [hw, hus]; rfl, .mk hkind hinside⟩

/-! ### Declarations and assignments -/

/-- An assignment that is read without a report is derived from its words. -/
theorem Reads.assignment {assigned : Assignment} (h : Reads assignment cursor assigned after)
    (hc : cursor.Valid) : ∃ us, cursor.ahead = us ++ after.ahead ∧ assigned.Derives us := by
  obtain ⟨target, m, htarget, h⟩ := h.split
  obtain ⟨token?, m', hequals, h⟩ := h.split
  obtain ⟨value, m'', hvalue, h⟩ := h.split
  obtain ⟨rfl, rfl⟩ := h.pure_eq
  have hm := htarget.valid hc
  have hm' := hequals.valid hm
  obtain ⟨w, hw, hname, rfl⟩ := htarget.expectValue hc (by decide)
  obtain ⟨v, hv, hsign⟩ := hequals.expect hm (by decide)
  obtain ⟨us, hus, hderives⟩ := hvalue.expr hm'
  exact ⟨w :: v :: us, by rw [hw, hv, hus]; rfl, .mk hname hsign hderives⟩

/-- A declaration that is read without a report is derived from its words, with a first value or without. -/
theorem Reads.declaration {declared : Declaration} (h : Reads declaration cursor declared after)
    (hc : cursor.Valid) : ∃ us, cursor.ahead = us ++ after.ahead ∧ declared.Derives us := by
  obtain ⟨type, m, htype, h⟩ := h.split
  obtain ⟨token?, m', hcolon, h⟩ := h.split
  have hm := htype.valid hc
  have hm' := hcolon.valid hm
  obtain ⟨t, ht, hspelled⟩ := htype.dataType hc
  obtain ⟨colon, hcolon, hkind⟩ := hcolon.expect hm (by decide)
  obtain ⟨lead, m'', hlead, h⟩ := h.split
  obtain rfl : m' = m'' := by simpa using hlead.state
  cases lead with
  | true =>
    obtain ⟨first, m'', hfirst, h⟩ := h.split
    obtain ⟨rfl, rfl⟩ := h.pure_eq
    obtain ⟨us, hus, hderives⟩ := hfirst.assignment hm'
    exact ⟨t :: colon :: us, by rw [ht, hcolon, hus]; rfl, .valued hspelled hkind hderives⟩
  | false =>
    obtain ⟨name, m'', hname, h⟩ := h.split
    obtain ⟨rfl, rfl⟩ := h.pure_eq
    obtain ⟨w, hw, hword, rfl⟩ := hname.expectValue hm' (by decide)
    exact ⟨[t, colon, w], by rw [ht, hcolon, hw]; rfl, .plain hspelled hkind hword⟩

/-! ### Simple statements -/

/-- What was read before a semicolon that may be left out. It is left out only where none follows. -/
theorem Reads.terminated {body : Production Stmt} [Forward body] {stmt : Stmt}
    (h : Reads (terminated body) cursor stmt after) (hc : cursor.Valid) :
    ∃ middle ending, Reads body cursor stmt middle ∧ middle.ahead = ending ++ after.ahead ∧
      Omission.settled.Ends ending after.kind ∧ (ending = [] → after = middle) := by
  obtain ⟨read, m, hbody, h⟩ := h.split
  obtain ⟨found, m', haccept, h⟩ := h.split
  obtain ⟨rfl, rfl⟩ := h.pure_eq
  obtain ⟨-, w, hw, hkind⟩ | ⟨-, rfl, hkind⟩ :=
    Reads.accept haccept (hbody.valid hc) (by decide)
  · exact ⟨m, [w], hbody, hw, .semicolon hkind, by simp⟩
  · exact ⟨after, [], hbody, rfl, .nothing hkind, fun _ => rfl⟩

/-- A call that is read without a report is a name and its arguments. -/
theorem Reads.call {stmt : Stmt} (h : Reads call cursor stmt after) (hc : cursor.Valid) :
    ∃ (name : Word) (us : List Word) (args : List Expr), cursor.ahead = name :: us ++ after.ahead ∧
      stmt = .call name.value args ∧ name.kind = .identifier ∧ Arguments.Derives us args := by
  obtain ⟨callee, m, hcallee, h⟩ := h.split
  obtain ⟨args, m', hargs, h⟩ := h.split
  obtain ⟨rfl, rfl⟩ := h.pure_eq
  obtain ⟨name, hname, hkind, rfl⟩ := hcallee.expectValue hc (by decide)
  obtain ⟨us, hus, hderives⟩ := hargs.arguments (hcallee.valid hc)
  exact ⟨name, us, args, by rw [hname, hus]; rfl, rfl, hkind, hderives⟩

/-- The value of a return is missing only in front of a word that ends the return, and derived from its
words otherwise. -/
theorem Reads.returnValue {value? : Option Expr} (h : Reads returnValue cursor value? after)
    (hc : cursor.Valid) :
    (value? = none ∧ after = cursor ∧ after.kind ∈ [Kind.semicolon, .closeCurly, .endOfInput]) ∨
    (∃ (us : List Word) (value : Expr), value? = some value ∧
      cursor.ahead = us ++ after.ahead ∧ value.Derives us) := by
  obtain ⟨hk, hrun⟩ | ⟨-, hrun⟩ := returnValue_cases cursor
  · obtain ⟨rfl, rfl⟩ := h.eq hrun
    exact .inl ⟨rfl, rfl, hk⟩
  · obtain ⟨rfl, rfl⟩ := h.eq hrun
    have hexpr : Reads Production.expr cursor _ _ := ⟨rfl, rfl, h.quiet⟩
    obtain ⟨us, hus, hderives⟩ := hexpr.expr hc
    exact .inr ⟨us, _, rfl, hus, hderives⟩

/-- A return with its end. The value is missing only where something ends the return at once. -/
theorem Reads.terminated_ret {stmt : Stmt}
    (h : Reads (Production.terminated ret) cursor stmt after) (hc : cursor.Valid) :
    ∃ us, cursor.ahead = us ++ after.ahead ∧ stmt.Derives .settled us after.kind := by
  obtain ⟨m, ending, hret, hending, hends, hstay⟩ := h.terminated hc
  rw [ret_eq] at hret
  obtain ⟨token?, m₁, hreturn, hret⟩ := hret.split
  obtain ⟨value?, m₂, hvalue, hret⟩ := hret.split
  obtain ⟨rfl, rfl⟩ := hret.pure_eq
  obtain ⟨w, hw, hkind⟩ := hreturn.expect hc (by decide)
  obtain ⟨rfl, rfl, hnext⟩ | ⟨us, value, rfl, hus, hderives⟩ :=
    hvalue.returnValue (hreturn.valid hc)
  · refine ⟨w :: ending, by rw [hw, hending]; rfl, .ret hkind hends fun hnil => ?_⟩
    obtain rfl := hstay hnil
    cases hends with
    | semicolon hword => cases hnil
    | nothing hother =>
      have : after.kind ≠ .semicolon := hother
      simpa [Omission.settled, this] using hnext
  · exact ⟨w :: us ++ ending, by simp [hw, hus, hending], .retValue hkind hderives hends⟩

/-- A declaration as a statement is derived from its words and the semicolon behind them, if there is
one. -/
theorem Reads.terminated_declaration {stmt : Stmt}
    (h : Reads (Production.terminated (.declaration <$> Production.declaration)) cursor stmt after)
    (hc : cursor.Valid) :
    ∃ us, cursor.ahead = us ++ after.ahead ∧ stmt.Derives .settled us after.kind := by
  obtain ⟨m, ending, hbody, hending, hends, -⟩ := h.terminated hc
  obtain ⟨declared, rfl, hread⟩ := hbody.of_map
  obtain ⟨us, hus, hderives⟩ := hread.declaration hc
  exact ⟨us ++ ending, by simp [hus, hending], .declaration hderives hends⟩

/-- A statement that holds no others and is read without a report is a call, a declaration, an assignment or
a return. -/
theorem Reads.simpleStatement {stmt : Stmt} (h : Reads simpleStatement cursor stmt after)
    (hc : cursor.Valid) :
    ∃ us, cursor.ahead = us ++ after.ahead ∧ stmt.Derives .settled us after.kind := by
  obtain ⟨-, hrun⟩ | ⟨-, hrun⟩ | ⟨-, hrun⟩ | ⟨-, hrun⟩ | ⟨-, -, -, -, hrun⟩ :=
    simpleStatement_cases cursor
  · have h : Reads (Production.terminated Production.call) cursor stmt after := h.congr hrun
    obtain ⟨m, ending, hbody, hending, hends, -⟩ := h.terminated hc
    obtain ⟨name, us, args, hus, rfl, hkind, hargs⟩ := hbody.call hc
    exact ⟨name :: us ++ ending, by simp [hus, hending], .call hkind hargs hends⟩
  · exact (h.congr hrun).terminated_declaration hc
  · have h : Reads (Production.terminated (.assignment <$> Production.assignment)) cursor stmt
      after := h.congr hrun
    obtain ⟨m, ending, hbody, hending, hends, -⟩ := h.terminated hc
    obtain ⟨assigned, rfl, hread⟩ := hbody.of_map
    obtain ⟨us, hus, hderives⟩ := hread.assignment hc
    exact ⟨us ++ ending, by simp [hus, hending], .assignment hderives hends⟩
  · exact (h.congr hrun).terminated_ret hc
  · rw [unknownStatement_apply] at hrun
    exact (h.no_report hrun (reaches_step _)).elim

/-! ### Statements that hold others -/

/-- What `nested` reads without a report where at most `n` tokens are left is a statement. -/
def Sound (n : Nat) (nested : Production Stmt) : Prop :=
  ∀ cursor after : Cursor, ∀ stmt : Stmt, cursor.Valid → cursor.remaining ≤ n →
    Reads nested cursor stmt after →
      ∃ us, cursor.ahead = us ++ after.ahead ∧ stmt.Derives .settled us after.kind

/-- One token fewer is left behind a word, which is what the induction on nested statements needs. -/
theorem remaining_of_ahead {w : Word} (h : cursor.ahead = w :: after.ahead) :
    cursor.remaining = after.remaining + 1 := by
  have := congrArg List.length h
  simpa using this

section

variable {n : Nat} {nested : Production Stmt}

/-- A round of a block that reports nothing takes the closing bracket or reads a statement. -/
theorem Reads.blockRound {outcome : Round Stmt}
    (h : Reads (blockRound nested) cursor outcome after) (hc : cursor.Valid) :
    (outcome = .stop ∧ ∃ w : Word, cursor.ahead = w :: after.ahead ∧ w.kind = .closeCurly) ∨
    (∃ stmt, outcome = .next (some stmt) ∧ Reads nested cursor stmt after) := by
  obtain ⟨hk, hrun⟩ | ⟨-, hrun⟩ | ⟨-, -, hrun⟩ := blockRound_cases cursor nested
  · obtain ⟨rfl, rfl⟩ := h.eq hrun
    exact .inl ⟨rfl, cursor.current.word, hc.ahead_eq (by simp [hk]), hk⟩
  · exact (h.no_report hrun (.refl _)).elim
  · obtain ⟨rfl, rfl⟩ := h.eq hrun
    exact .inr ⟨_, rfl, rfl, rfl, h.quiet⟩

variable [Forward nested] (hstrict : Strict nested) (hsound : Sound n nested)

include hstrict hsound

/-- A block. What follows one of its statements is inside the block too. -/
theorem Reads.blockOf {body : Block} (h : Reads (blockOf nested) cursor body after)
    (hc : cursor.Valid) (hn : cursor.remaining ≤ n + 1) :
    ∃ us, cursor.ahead = us ++ after.ahead ∧ Block.Derives .settled us body := by
  obtain ⟨token?, m, hopen, h⟩ := h.split
  obtain ⟨w, hw, hkind⟩ := hopen.expect hc (by decide)
  have hlength := remaining_of_ahead hw
  have hinside : m.remaining ≤ n →
      ∃ us, m.ahead = us ++ after.ahead ∧ Block.Inside .settled us body := by
    -- the bound goes along with the loop, since statements are known to be sound only below it
    refine h.loop (progressive_blockRound hstrict) (hopen.valid hc) (motive := fun c body =>
      c.remaining ≤ n → ∃ us, c.ahead = us ++ after.ahead ∧ Block.Inside .settled us body)
      ?_ ?_ ?_ ?_
    · intro c hc h _
      obtain ⟨-, w, hw, hkind⟩ | ⟨stmt, hnext, -⟩ := h.blockRound hc
      · exact ⟨[w], hw, .close hkind⟩
      · cases hnext
    · intro c stmt hc h
      obtain ⟨hstop, -⟩ | ⟨stmt, hnext, -⟩ := h.blockRound hc
      · cases hstop
      · cases hnext
    · intro c m body hc h
      obtain ⟨hstop, -⟩ | ⟨stmt, hnext, -⟩ := h.blockRound hc
      · cases hstop
      · cases hnext
    · intro c m stmt body hc h ih hn
      have hle := h.remaining_le
      obtain ⟨hstop, -⟩ | ⟨stmt, hnext, hread⟩ := h.blockRound hc
      · cases hstop
      · cases hnext
        obtain ⟨us, hus, hstmt⟩ := hsound _ _ _ hc hn hread
        obtain ⟨vs, hvs, hinside⟩ := ih (Nat.le_trans hle hn)
        refine ⟨us ++ vs, by rw [hus, hvs, List.append_assoc], .more ?_ hinside⟩
        rwa [Cursor.kind_eq_firstKind, hvs, Word.firstKind_append hinside.ne_nil] at hstmt
  obtain ⟨us, hus, hinside⟩ := hinside (by omega)
  exact ⟨w :: us, by rw [hw, hus]; rfl, .mk hkind hinside⟩

/-- The other branch, if there is one. The statement of a further condition is a condition, because its
first word says so. -/
theorem Reads.otherwiseOf {other? : Option Stmt} (h : Reads (otherwiseOf nested) cursor other? after)
    (hc : cursor.Valid) (hn : cursor.remaining ≤ n) :
    (other? = none ∧ after = cursor) ∨
    (∃ (v : Word) (ws : List Word), cursor.ahead = v :: ws ++ after.ahead ∧ v.kind = .elseWord ∧
      ((∃ other, other? = some (.compound other) ∧ Block.Derives .settled ws other) ∨
        (∃ test body other'?, other? = some (.ifElse test body other'?) ∧
          Stmt.Derives .settled ws (.ifElse test body other'?) after.kind))) := by
  obtain ⟨-, hrun⟩ | ⟨hk, hif, hrun⟩ | ⟨hk, -, hrun⟩ := otherwiseOf_cases cursor nested
  · obtain ⟨rfl, rfl⟩ := h.eq hrun
    exact .inl ⟨rfl, rfl⟩
  · obtain ⟨v, hv, hkind, -⟩ := hc.exists_word hk (by decide)
    have hlength := remaining_of_ahead hv
    obtain ⟨rfl, rfl⟩ := h.eq hrun
    have hread : Reads nested cursor.step _ _ :=
      ⟨rfl, rfl, h.quiet.trans (Cursor.diagnostics_step cursor).symm⟩
    obtain ⟨ws, hws, hstmt⟩ := hsound _ _ _ hc.step (by omega) hread
    -- among the statements only a condition starts with this word
    have hfirst := hstmt.firstKind_eq (nested cursor.step).2.ahead
    rw [← hws, ← Cursor.kind_eq_firstKind, hif] at hfirst
    refine .inr ⟨v, ws, by rw [hv, hws]; rfl, hkind, .inr ?_⟩
    cases hread : (nested cursor.step).1 <;> rw [hread] at hfirst hstmt <;> try cases hfirst
    exact ⟨_, _, _, rfl, hstmt⟩
  · obtain ⟨v, hv, hkind, -⟩ := hc.exists_word hk (by decide)
    have hlength := remaining_of_ahead hv
    obtain ⟨rfl, rfl⟩ := h.eq hrun
    have hread : Reads (Production.blockOf nested) cursor.step _ _ :=
      ⟨rfl, rfl, h.quiet.trans (Cursor.diagnostics_step cursor).symm⟩
    obtain ⟨ws, hws, hblock⟩ := hread.blockOf hstrict hsound hc.step (by omega)
    exact .inr ⟨v, ws, by rw [hv, hws]; rfl, hkind, .inl ⟨_, rfl, hblock⟩⟩

/-- A choice that is read without a report is derived from its words, if the statements inside it are from
theirs. -/
theorem Reads.ifElseOf {stmt : Stmt} (h : Reads (ifElseOf nested) cursor stmt after)
    (hc : cursor.Valid) (hn : cursor.remaining ≤ n + 1) :
    ∃ us, cursor.ahead = us ++ after.ahead ∧ stmt.Derives .settled us after.kind := by
  rw [ifElseOf_eq] at h
  obtain ⟨token?, m₁, hif, h⟩ := h.split
  obtain ⟨test, m₂, htest, h⟩ := h.split
  obtain ⟨body, m₃, hbody, h⟩ := h.split
  obtain ⟨other?, m₄, hother, h⟩ := h.split
  obtain ⟨rfl, rfl⟩ := h.pure_eq
  have hm₁ := hif.valid hc
  have hm₂ := htest.valid hm₁
  have hle₂ := htest.remaining_le
  have hle₃ := hbody.remaining_le
  obtain ⟨w, hw, hkind⟩ := hif.expect hc (by decide)
  have hlength := remaining_of_ahead hw
  obtain ⟨us, hus, hcondition⟩ := htest.condition hm₁
  obtain ⟨vs, hvs, hblock⟩ := hbody.blockOf hstrict hsound hm₂ (by omega)
  obtain ⟨rfl, rfl⟩ | ⟨v, ws, hws, helse, hbranch⟩ :=
    hother.otherwiseOf hstrict hsound (hbody.valid hm₂) (by omega)
  · exact ⟨w :: us ++ vs, by simp [hw, hus, hvs], .ifThen hkind hcondition hblock⟩
  · refine ⟨w :: us ++ vs ++ v :: ws, by simp [hw, hus, hvs, hws], ?_⟩
    obtain ⟨other, rfl, hderives⟩ | ⟨test', body', other'?, rfl, hderives⟩ := hbranch
    · exact .ifElse hkind hcondition hblock helse hderives
    · exact .ifElseIf hkind hcondition hblock helse hderives

/-- A while loop that is read without a report is derived from its words, if the statements inside it are
from theirs. -/
theorem Reads.whileLoopOf {stmt : Stmt} (h : Reads (whileLoopOf nested) cursor stmt after)
    (hc : cursor.Valid) (hn : cursor.remaining ≤ n + 1) :
    ∃ us, cursor.ahead = us ++ after.ahead ∧ stmt.Derives .settled us after.kind := by
  obtain ⟨token?, m₁, hwhile, h⟩ := h.split
  obtain ⟨test, m₂, htest, h⟩ := h.split
  obtain ⟨body, m₃, hbody, h⟩ := h.split
  obtain ⟨rfl, rfl⟩ := h.pure_eq
  have hm₁ := hwhile.valid hc
  have hle₁ := hwhile.remaining_le
  have hle₂ := htest.remaining_le
  obtain ⟨w, hw, hkind⟩ := hwhile.expect hc (by decide)
  obtain ⟨us, hus, hcondition⟩ := htest.condition hm₁
  obtain ⟨vs, hvs, hblock⟩ := hbody.blockOf hstrict hsound (htest.valid hm₁) (by omega)
  exact ⟨w :: us ++ vs, by simp [hw, hus, hvs], .whileLoop hkind hcondition hblock⟩

end

/-- What a counting loop starts with is missing or derived from its words. -/
theorem Reads.forInit {init? : Option Stmt} (h : Reads forInit cursor init? after)
    (hc : cursor.Valid) :
    ∃ us, cursor.ahead = us ++ after.ahead ∧ Perhaps ForInit.Derives us init? := by
  obtain ⟨-, hrun⟩ | ⟨-, hrun⟩ | ⟨-, -, hrun⟩ := forInit_cases cursor
  · obtain ⟨rfl, rfl⟩ := h.eq hrun
    have hread : Reads Production.declaration cursor _ _ := ⟨rfl, rfl, h.quiet⟩
    obtain ⟨us, hus, hderives⟩ := hread.declaration hc
    exact ⟨us, hus, .some (.declaration hderives)⟩
  · obtain ⟨rfl, rfl⟩ := h.eq hrun
    have hread : Reads Production.assignment cursor _ _ := ⟨rfl, rfl, h.quiet⟩
    obtain ⟨us, hus, hderives⟩ := hread.assignment hc
    exact ⟨us, hus, .some (.assignment hderives)⟩
  · obtain ⟨rfl, rfl⟩ := h.eq hrun
    exact ⟨[], rfl, .none⟩

/-- The condition of a counting loop is missing or derived from its words. -/
theorem Reads.forCondition {condition? : Option Condition}
    (h : Reads forCondition cursor condition? after) (hc : cursor.Valid) :
    ∃ us, cursor.ahead = us ++ after.ahead ∧ Perhaps Condition.Derives us condition? := by
  obtain ⟨-, hrun⟩ | ⟨-, hrun⟩ := forCondition_cases cursor
  · obtain ⟨rfl, rfl⟩ := h.eq hrun
    exact ⟨[], rfl, .none⟩
  · obtain ⟨rfl, rfl⟩ := h.eq hrun
    have hread : Reads Production.condition cursor _ _ := ⟨rfl, rfl, h.quiet⟩
    obtain ⟨us, hus, hderives⟩ := hread.condition hc
    exact ⟨us, hus, .some hderives⟩

/-- The last part of the header of a counting loop is missing or derived from its words. -/
theorem Reads.forStep {step? : Option Assignment} (h : Reads forStep cursor step? after)
    (hc : cursor.Valid) :
    ∃ us, cursor.ahead = us ++ after.ahead ∧ Perhaps Assignment.Derives us step? := by
  obtain ⟨-, hrun⟩ | ⟨-, hrun⟩ := forStep_cases cursor
  · obtain ⟨rfl, rfl⟩ := h.eq hrun
    have hread : Reads Production.assignment cursor _ _ := ⟨rfl, rfl, h.quiet⟩
    obtain ⟨us, hus, hderives⟩ := hread.assignment hc
    exact ⟨us, hus, .some hderives⟩
  · obtain ⟨rfl, rfl⟩ := h.eq hrun
    exact ⟨[], rfl, .none⟩

/-- The header of a counting loop is derived from its words, and both semicolons are among them. -/
theorem Reads.forHeader {header : Option Stmt × Option Condition × Option Assignment}
    (h : Reads forHeader cursor header after) (hc : cursor.Valid) :
    ∃ us, cursor.ahead = us ++ after.ahead ∧
      ForHeader.Derives us header.1 header.2.1 header.2.2 := by
  obtain ⟨init?, m₁, hinit, h⟩ := h.split
  obtain ⟨token?, m₂, hfirst, h⟩ := h.split
  obtain ⟨condition?, m₃, hcondition, h⟩ := h.split
  obtain ⟨token'?, m₄, hsecond, h⟩ := h.split
  obtain ⟨step?, m₅, hstep, h⟩ := h.split
  obtain ⟨rfl, rfl⟩ := h.pure_eq
  have hm₁ := hinit.valid hc
  have hm₂ := hfirst.valid hm₁
  have hm₃ := hcondition.valid hm₂
  obtain ⟨us, hus, hderives₁⟩ := hinit.forInit hc
  obtain ⟨s, hs, hkind⟩ := hfirst.expect hm₁ (by decide)
  obtain ⟨vs, hvs, hderives₂⟩ := hcondition.forCondition hm₂
  obtain ⟨t, ht, hkind'⟩ := hsecond.expect hm₃ (by decide)
  obtain ⟨ws, hws, hderives₃⟩ := hstep.forStep (hsecond.valid hm₃)
  exact ⟨us ++ s :: (vs ++ t :: ws), by simp [hus, hs, hvs, ht, hws],
    .mk hderives₁ hkind hderives₂ hkind' hderives₃⟩

section

variable {n : Nat} {nested : Production Stmt} [Forward nested] (hstrict : Strict nested)
  (hsound : Sound n nested)

include hstrict hsound

/-- A counting loop that is read without a report is derived from its words, with its header in parentheses
or without. -/
theorem Reads.forLoopOf {stmt : Stmt} (h : Reads (forLoopOf nested) cursor stmt after)
    (hc : cursor.Valid) (hn : cursor.remaining ≤ n + 1) :
    ∃ us, cursor.ahead = us ++ after.ahead ∧ stmt.Derives .settled us after.kind := by
  rw [forLoopOf_eq] at h
  obtain ⟨token?, m₁, hfor, h⟩ := h.split
  obtain ⟨opened, m₂, hopen, h⟩ := h.split
  obtain ⟨header, m₃, hheader, h⟩ := h.split
  obtain ⟨u, m₄, hclose, h⟩ := h.split
  obtain ⟨body, m₅, hbody, h⟩ := h.split
  obtain ⟨rfl, rfl⟩ := h.pure_eq
  have hm₁ := hfor.valid hc
  have hm₂ := hopen.valid hm₁
  have hm₃ := hheader.valid hm₂
  have hle : m₄.remaining ≤ n + 1 := calc
    m₄.remaining ≤ m₃.remaining := hclose.remaining_le
    _ ≤ m₂.remaining := hheader.remaining_le
    _ ≤ m₁.remaining := hopen.remaining_le
    _ ≤ cursor.remaining := hfor.remaining_le
    _ ≤ n + 1 := hn
  obtain ⟨w, hw, hkind⟩ := hfor.expect hc (by decide)
  obtain ⟨us, hus, hderives⟩ := hheader.forHeader hm₂
  obtain ⟨vs, hvs, hblock⟩ := hbody.blockOf hstrict hsound (hclose.valid hm₃) hle
  obtain ⟨rfl, left, hleft, hkind₁⟩ | ⟨rfl, rfl, -⟩ := hopen.accept hm₁ (by decide)
  · obtain ⟨-, right, hright, hkind₂⟩ | ⟨hclosed, -⟩ := hclose.closeParenIf hm₃
    · exact ⟨w :: left :: us ++ right :: vs, by simp [hw, hleft, hus, hright, hvs],
        .forLoopParenthesised hkind hkind₁ hderives hkind₂ hblock⟩
    · cases hclosed
  · obtain ⟨hopened, -⟩ | ⟨-, rfl⟩ := hclose.closeParenIf hm₃
    · cases hopened
    · exact ⟨w :: us ++ vs, by simp [hw, hus, hvs], .forLoop hkind hderives hblock⟩

/-- A statement is sound on one token more than the statements inside it. -/
theorem Sound.statementOf : Sound (n + 1) (statementOf nested) := by
  intro cursor after stmt hc hn h
  obtain ⟨-, hrun⟩ | ⟨-, hrun⟩ | ⟨-, hrun⟩ | ⟨-, hrun⟩ | ⟨hk, hrun⟩ | ⟨-, hrun⟩ | ⟨-, hrun⟩ :=
    statementOf_cases cursor nested
  · exact (h.congr hrun).ifElseOf hstrict hsound hc hn
  · exact (h.congr hrun).whileLoopOf hstrict hsound hc hn
  · exact (h.congr hrun).forLoopOf hstrict hsound hc hn
  · obtain ⟨rfl, rfl⟩ := h.eq hrun
    have hread : Reads (blockOf nested) cursor _ _ := ⟨rfl, rfl, h.quiet⟩
    obtain ⟨us, hus, hblock⟩ := hread.blockOf hstrict hsound hc hn
    exact ⟨us, hus, .compound hblock⟩
  · obtain ⟨rfl, rfl⟩ := h.eq hrun
    exact ⟨[cursor.current.word], hc.ahead_eq (by simp [hk]), .empty hk⟩
  · exact (h.congr hrun).terminated_declaration hc
  · exact (h.congr hrun).simpleStatement hc

end

/-- Statements are sound, by induction on the number of tokens left. -/
theorem sound_statement (n : Nat) : Sound n statement := by
  induction n with
  | zero =>
    intro cursor after stmt hc hn
    have := hc.inside
    unfold Cursor.remaining at hn
    omega
  | succ n ih =>
    intro cursor after stmt hc hn h
    exact Sound.statementOf strict_statement ih cursor after stmt hc hn (h.congr (statement_eq hc))

/-- The body of a function or of the entry point is derived from its words, with the statements in it at any
depth. -/
theorem Reads.block {body : Block} (h : Reads block cursor body after) (hc : cursor.Valid) :
    ∃ us, cursor.ahead = us ++ after.ahead ∧ Block.Derives .settled us body :=
  Reads.blockOf strict_statement (sound_statement cursor.remaining) h hc (Nat.le_succ _)

/-! ### Items and programs -/

/-- What was taken where a token may be left out. -/
theorem Reads.optional {wanted : Kind} {found : Bool}
    (h : Reads (Production.accept wanted) cursor found after) (hc : cursor.Valid)
    (hwanted : wanted ≠ .endOfInput) :
    ∃ us, cursor.ahead = us ++ after.ahead ∧ Optional wanted us := by
  obtain ⟨-, w, hw, hkind⟩ | ⟨-, rfl, -⟩ := h.accept hc hwanted
  · exact ⟨[w], hw, .present hkind⟩
  · exact ⟨[], rfl, .absent⟩

/-- A round of parameters that reports nothing takes the closing parenthesis, or a declaration with or
without a comma. -/
theorem Reads.parameter {outcome : Round Declaration} (h : Reads parameter cursor outcome after)
    (hc : cursor.Valid) :
    (outcome = .stop ∧ ∃ w : Word, cursor.ahead = w :: after.ahead ∧ w.kind = .closeParen) ∨
    (∃ (us comma : List Word) (param : Declaration), outcome = .next (some param) ∧
      cursor.ahead = us ++ comma ++ after.ahead ∧ param.Derives us ∧ Optional .comma comma) := by
  obtain ⟨hk, hrun⟩ | ⟨-, hrun⟩ | ⟨-, hrun⟩ | ⟨-, hrun⟩ := parameter_cases cursor
  · obtain ⟨rfl, rfl⟩ := h.eq hrun
    exact .inl ⟨rfl, cursor.current.word, hc.ahead_eq (by simp [hk]), hk⟩
  · exact (h.no_report hrun (.refl _)).elim
  · exact (h.no_report hrun (.refl _)).elim
  · obtain ⟨rfl, rfl⟩ := h.eq hrun
    obtain ⟨hq₁, hq₂⟩ := (Forward.reaches cursor).quiet (Forward.reaches _) h.quiet
    have hparam : Reads Production.declaration cursor _ _ := ⟨rfl, rfl, hq₁⟩
    have hcomma : Reads (Production.accept .comma) _ _ _ := ⟨rfl, rfl, hq₂⟩
    obtain ⟨us, hus, hderives⟩ := hparam.declaration hc
    obtain ⟨comma, hvs, hoptional⟩ := hcomma.optional (hparam.valid hc) (by decide)
    exact .inr ⟨us, comma, _, rfl, by rw [hus, hvs, List.append_assoc], hderives, hoptional⟩

/-- Parameters that are read without a report are derived from their words, both parentheses included. -/
theorem Reads.parameters {params : List Declaration} (h : Reads parameters cursor params after)
    (hc : cursor.Valid) :
    ∃ us, cursor.ahead = us ++ after.ahead ∧ Parameters.Derives us params := by
  obtain ⟨token?, m, hopen, h⟩ := h.split
  obtain ⟨w, hw, hkind⟩ := hopen.expect hc (by decide)
  have hinside : ∃ us, m.ahead = us ++ after.ahead ∧ Parameters.Inside us params := by
    refine h.loop progressive_parameter (hopen.valid hc) (motive := fun c params =>
      ∃ us, c.ahead = us ++ after.ahead ∧ Parameters.Inside us params) ?_ ?_ ?_ ?_
    · intro c hc h
      obtain ⟨-, w, hw, hkind⟩ | ⟨us, comma, param, hnext, -⟩ := h.parameter hc
      · exact ⟨[w], hw, .close hkind⟩
      · cases hnext
    · intro c param hc h
      obtain ⟨hstop, -⟩ | ⟨us, comma, param, hnext, -⟩ := h.parameter hc
      · cases hstop
      · cases hnext
    · intro c m params hc h
      obtain ⟨hstop, -⟩ | ⟨us, comma, param, hnext, -⟩ := h.parameter hc
      · cases hstop
      · cases hnext
    · intro c m param params hc h ⟨vs, hvs, hinside⟩
      obtain ⟨hstop, -⟩ | ⟨us, comma, param, hnext, hus, hderives, hcomma⟩ := h.parameter hc
      · cases hstop
      · cases hnext
        exact ⟨us ++ comma ++ vs, by simp [hus, hvs], .more hderives hcomma hinside⟩
  obtain ⟨us, hus, hinside⟩ := hinside
  exact ⟨w :: us, by rw [hw, hus]; rfl, .mk hkind hinside⟩

/-- A function that is read without a report is derived from its words. -/
theorem Reads.function {item : Item} (h : Reads function cursor item after) (hc : cursor.Valid) :
    ∃ us, cursor.ahead = us ++ after.ahead ∧ item.Derives .settled us := by
  obtain ⟨type, m₁, htype, h⟩ := h.split
  obtain ⟨text, m₂, hname, h⟩ := h.split
  obtain ⟨params, m₃, hparams, h⟩ := h.split
  obtain ⟨body, m₄, hbody, h⟩ := h.split
  obtain ⟨rfl, rfl⟩ := h.pure_eq
  have hm₁ := htype.valid hc
  have hm₂ := hname.valid hm₁
  obtain ⟨t, ht, hspelled⟩ := htype.dataType hc
  obtain ⟨name, hw, hkind, rfl⟩ := hname.expectValue hm₁ (by decide)
  obtain ⟨us, hus, hinside⟩ := hparams.parameters hm₂
  obtain ⟨vs, hvs, hblock⟩ := hbody.block (hparams.valid hm₂)
  exact ⟨t :: name :: us ++ vs, by simp [ht, hw, hus, hvs], .function hspelled hkind hinside hblock⟩

/-- The entry point that is read without a report is derived from its words. -/
theorem Reads.entry {item : Item} (h : Reads entry cursor item after) (hc : cursor.Valid) :
    ∃ us, cursor.ahead = us ++ after.ahead ∧ item.Derives .settled us := by
  obtain ⟨token?, m, hentry, h⟩ := h.split
  obtain ⟨body, m', hbody, h⟩ := h.split
  obtain ⟨rfl, rfl⟩ := h.pure_eq
  obtain ⟨w, hw, hkind⟩ := hentry.expect hc (by decide)
  obtain ⟨us, hus, hblock⟩ := hbody.block (hentry.valid hc)
  exact ⟨w :: us, by simp [hw, hus], .entry hkind hblock⟩

/-- An import that is read without a report is its word and the literal behind it. -/
theorem Reads.importFile {item : Item} (h : Reads importFile cursor item after) (hc : cursor.Valid) :
    ∃ w path : Word, cursor.ahead = w :: path :: after.ahead ∧ item = .importFile path.value ∧
      w.kind = .importWord ∧ path.kind = .literal := by
  obtain ⟨token?, m, himport, h⟩ := h.split
  obtain ⟨text, m', hpath, h⟩ := h.split
  obtain ⟨rfl, rfl⟩ := h.pure_eq
  obtain ⟨w, hw, hkind⟩ := himport.expect hc (by decide)
  obtain ⟨path, hv, hliteral, rfl⟩ := hpath.expectValue (himport.valid hc) (by decide)
  exact ⟨w, path, by rw [hw, hv], rfl, hkind, hliteral⟩

/-- A round at the top level that reports nothing finds the end of the input or reads an item. -/
theorem Reads.topLevel {outcome : Round Item} (h : Reads topLevel cursor outcome after)
    (hc : cursor.Valid) :
    (outcome = .stop ∧ cursor.kind = .endOfInput) ∨
    (∃ (us : List Word) (item : Item), outcome = .next (some item) ∧
      cursor.ahead = us ++ after.ahead ∧ item.Derives .settled us) := by
  obtain ⟨hk, hrun⟩ | ⟨-, -, hrun⟩ | ⟨-, -, hrun⟩ | ⟨-, -, hrun⟩ | ⟨-, hrun⟩ | ⟨-, hrun⟩ :=
    topLevel_cases cursor
  · obtain ⟨rfl, rfl⟩ := h.eq hrun
    exact .inl ⟨rfl, hk⟩
  · obtain ⟨rfl, rfl⟩ := h.eq hrun
    have hread : Reads Production.function cursor _ _ := ⟨rfl, rfl, h.quiet⟩
    obtain ⟨us, hus, hderives⟩ := hread.function hc
    exact .inr ⟨us, _, rfl, hus, hderives⟩
  · obtain ⟨rfl, rfl⟩ := h.eq hrun
    obtain ⟨hq₁, hq₂⟩ := (Forward.reaches cursor).quiet (Forward.reaches _) h.quiet
    have hread : Reads Production.declaration cursor _ _ := ⟨rfl, rfl, hq₁⟩
    have hend : Reads (Production.accept .semicolon) _ _ _ := ⟨rfl, rfl, hq₂⟩
    obtain ⟨us, hus, hderives⟩ := hread.declaration hc
    obtain ⟨ending, hending, hoptional⟩ := hend.optional (hread.valid hc) (by decide)
    exact .inr ⟨us ++ ending, _, rfl, by simp [hus, hending], .declaration hderives hoptional⟩
  · obtain ⟨rfl, rfl⟩ := h.eq hrun
    have hread : Reads Production.entry cursor _ _ := ⟨rfl, rfl, h.quiet⟩
    obtain ⟨us, hus, hderives⟩ := hread.entry hc
    exact .inr ⟨us, _, rfl, hus, hderives⟩
  · obtain ⟨rfl, rfl⟩ := h.eq hrun
    obtain ⟨hq₁, hq₂⟩ := (Forward.reaches cursor).quiet (Forward.reaches _) h.quiet
    have hread : Reads Production.importFile cursor _ _ := ⟨rfl, rfl, hq₁⟩
    have hend : Reads (Production.accept .semicolon) _ _ _ := ⟨rfl, rfl, hq₂⟩
    obtain ⟨w, path, hw, hitem, hkind, hpath⟩ := hread.importFile hc
    obtain ⟨ending, hending, hoptional⟩ := hend.optional (hread.valid hc) (by decide)
    refine .inr ⟨w :: path :: ending, _, rfl, by simp [hw, hending], ?_⟩
    rw [hitem]
    exact .importFile hkind hpath hoptional
  · exact (h.no_report hrun (reaches_step _)).elim

/-- A program that is read without a report is derived from the words up to an end token. -/
theorem Reads.program {items : Program} (h : Reads program cursor items after)
    (hc : cursor.Valid) :
    ∃ us rest, cursor.ahead = us ++ rest ∧ firstKind rest = .endOfInput ∧
      Program.Derives .settled us items := by
  refine Reads.loop h progressive_topLevel hc (motive := fun c items =>
    ∃ us rest, c.ahead = us ++ rest ∧ firstKind rest = .endOfInput ∧
      Program.Derives .settled us items) ?_ ?_ ?_ ?_
  · intro c hc h
    obtain ⟨-, hk⟩ | ⟨us, item, hnext, -⟩ := h.topLevel hc
    · exact ⟨[], c.ahead, rfl, c.kind_eq_firstKind.symm.trans hk, .nil⟩
    · cases hnext
  · intro c item hc h
    obtain ⟨hstop, -⟩ | ⟨us, item, hnext, -⟩ := h.topLevel hc
    · cases hstop
    · cases hnext
  · intro c m items hc h
    obtain ⟨hstop, -⟩ | ⟨us, item, hnext, -⟩ := h.topLevel hc
    · cases hstop
    · cases hnext
  · intro c m item items hc h ⟨vs, rest, hvs, hend, hitems⟩
    obtain ⟨hstop, -⟩ | ⟨us, item, hnext, hus, hderives⟩ := h.topLevel hc
    · cases hstop
    · cases hnext
      exact ⟨us ++ vs, rest, by simp [hus, hvs], hend, .cons hderives hitems⟩

end BraceLang.Production
