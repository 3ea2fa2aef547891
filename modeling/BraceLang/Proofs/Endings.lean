import BraceLang.Proofs.Cascade
import BraceLang.Proofs.Concatenation
import BraceLang.Proofs.Dispatch

/-!
# Streams that go on behind an end token

Reading is over at the first end token, and what stands behind that token matters in one case only: a token of
another kind is demanded there. Then the end token is reported, and it is passed over like any other token, so that
reading goes on behind it. `parse_ending_append` says so: either what follows the first end token changes nothing at
all, or a token is missing at that end token (`MissedAt`). Then both readings report it, with the same reports before,
and both programs start with the same items, up to the one in which the token is missing.

* A cursor on a stream that its first end token closes (`Cursor.Sealed`) is compared with the same cursor on a longer
  stream (`Cursor.extend`).
* The two are `Parted` when both have reported that the same token is missing at the end. Whatever is read after that,
  they stay parted, because reports are never taken back and the end of the shorter stream is never left.
* A production is `Sheltered` if it does the same with both cursors or parts them. All of the grammar is sheltered,
  down to statements of any depth (`shelteredInside_statement`), as far as it is read before the end. So items are the
  same up to one that parts the cursors, and in the shorter stream that one is the last (`program_agree`).
-/

set_option autoImplicit false

namespace BraceLang

open Production (Forward Strict Progressive Repeats leads rounds statement statementOf topLevel program)

/-- Whether the tokens of a kind end the input, as a Boolean that instances can be found by. -/
@[reducible]
def Kind.ends : Kind → Bool
  | .endOfInput => true
  | _ => false

/-- Something does not end. As a class, this is found by itself for every kind that is written out. -/
class Ongoing (ended : Bool) : Prop where
  eq_false : ended = false

instance : Ongoing false := ⟨rfl⟩

/-- A kind that goes on is not that of end tokens. -/
theorem Kind.ne_endOfInput (kind : Kind) [h : Ongoing kind.ends] : kind ≠ .endOfInput := by
  rintro rfl
  cases h.eq_false

/-- Kinds without the end token are at the front of a list with an end token, or they are not, whatever
follows that list. -/
theorem Kind.isPrefixOf_append {kinds front : List Kind} (hkinds : Kind.endOfInput ∉ kinds)
    (hfront : Kind.endOfInput ∈ front) (back : List Kind) :
    kinds.isPrefixOf (front ++ back) = kinds.isPrefixOf front := by
  induction kinds generalizing front with
  | nil => simp
  | cons kind kinds ih =>
    obtain ⟨hkind, hrest⟩ : Kind.endOfInput ≠ kind ∧ Kind.endOfInput ∉ kinds := by
      simpa [not_or] using hkinds
    cases front with
    | nil => cases hfront
    | cons first front =>
      by_cases hfirst : kind = first
      · subst hfirst
        have hmore : Kind.endOfInput ∈ front := by
          simpa [hkind] using hfront
        simp [ih hrest hmore]
      · have hne : (kind == first) = false := beq_false_of_ne hfirst
        simp [List.isPrefixOf, hne]

namespace Cursor

/-- The same cursor on a stream that goes on with `rest`. -/
def extend (rest : Array Token) (cursor : Cursor) : Cursor :=
  { cursor with tokens := cursor.tokens ++ rest }

/-- The token that closes the stream, which is the last one. -/
def ending (cursor : Cursor) : Token :=
  cursor.tokenAt (cursor.tokens.size - 1)

/-- The complaint that a token is missing at the end of the stream. -/
def missing (cursor : Cursor) (wanted : Kind) : Diagnostic :=
  ⟨.unexpected wanted cursor.ending.value, cursor.positionOf cursor.ending⟩

/-- A cursor on a stream with one end token, its last. The stream may go on with `rest`. -/
structure Sealed (rest : Array Token) (cursor : Cursor) : Prop where
  valid : cursor.Valid
  extended : (cursor.extend rest).Valid
  only : ∀ place, place + 1 < cursor.tokens.size → (cursor.tokenAt place).kind ≠ .endOfInput

/-- Both cursors have reported that a token is missing at the end, with the same reports before that. The first of
them is at the end of its stream. -/
structure Parted (cursor twin : Cursor) : Prop where
  ended : cursor.pos + 1 = cursor.tokens.size
  reported : ∃ earlier wanted, earlier ++ [cursor.missing wanted] <+: cursor.diagnostics.toList ∧
    earlier ++ [cursor.missing wanted] <+: twin.diagnostics.toList

variable {rest : Array Token} {cursor after twin other : Cursor}

/-- A longer stream has the same tokens up to the end of the shorter one. -/
theorem tokenAt_extend {place : Nat} (h : place < cursor.tokens.size) :
    (cursor.extend rest).tokenAt place = cursor.tokenAt place := by
  have hlonger : place < cursor.tokens.size + rest.size := by omega
  simp [extend, tokenAt, Array.getD, h, hlonger, Array.getElem_append_left]

/-- Reading keeps parted cursors parted: no report is taken back, and the first cursor stays at the end of
its stream. -/
theorem Parted.reaches (h : Parted cursor twin) (hc : cursor.Reaches after) (ht : twin.Reaches other) :
    Parted after other := by
  obtain ⟨hended, earlier, wanted, hfront, htwin⟩ := h
  have hmissing : after.missing wanted = cursor.missing wanted := by
    simp only [missing, ending, tokenAt, positionOf, hc.tokens, hc.file]
  have hafter : after.pos + 1 = after.tokens.size := by
    have hle := hc.pos_le
    have hinside := hc.inside (by omega)
    rw [hc.tokens]
    omega
  refine ⟨hafter, earlier, wanted, ?_, ?_⟩
  · rw [hmissing]
    exact hfront.trans hc.diagnostics
  · rw [hmissing]
    exact htwin.trans ht.diagnostics

namespace Sealed

/-- Reading forward keeps the stream sealed, since it changes no token. -/
theorem reaches (h : cursor.Sealed rest) (hr : cursor.Reaches after) : after.Sealed rest where
  valid := h.valid.reaches hr
  extended := by
    have hinside := (h.valid.reaches hr).inside
    refine ⟨?_, ?_⟩
    · simp only [extend, Array.size_append]
      omega
    · simpa only [extend, hr.tokens] using h.extended.closed
  only place hplace := by
    rw [hr.tokens] at hplace
    simpa only [tokenAt, hr.tokens] using h.only place hplace

/-- On the longer stream the cursor stands on the same token. -/
theorem current_extend (h : cursor.Sealed rest) : (cursor.extend rest).current = cursor.current :=
  tokenAt_extend h.valid.inside

/-- On the longer stream the same token is behind the cursor. -/
theorem previous_extend (h : cursor.Sealed rest) : (cursor.extend rest).previous = cursor.previous :=
  tokenAt_extend (Nat.lt_of_le_of_lt (Nat.sub_le _ _) h.valid.inside)

/-- On the longer stream the current token has the same kind. -/
theorem kind_extend (h : cursor.Sealed rest) : (cursor.extend rest).kind = cursor.kind :=
  congrArg Token.kind h.current_extend

/-- A report about the current token says the same on the longer stream. -/
theorem report_extend (h : cursor.Sealed rest) (cause : Cause) :
    (cursor.extend rest).report cause = (cursor.report cause).extend rest := by
  simp only [report, h.current_extend]
  rfl

/-- Before the end a step is the same on the longer stream. On the end token itself only the longer one has
somewhere to go. -/
theorem step_extend (h : cursor.Sealed rest) (hk : cursor.kind ≠ .endOfInput) :
    (cursor.extend rest).step = cursor.step.extend rest := by
  rw [h.valid.step_eq hk, h.extended.step_eq (by rwa [h.kind_extend])]
  rfl

/-- A cursor that stands on an end token stands on the last token of its stream. -/
theorem pos_succ_eq (h : cursor.Sealed rest) (hk : cursor.kind = .endOfInput) :
    cursor.pos + 1 = cursor.tokens.size := by
  have hinside := h.valid.inside
  have hnot : ¬ cursor.pos + 1 < cursor.tokens.size := fun hlt => h.only cursor.pos hlt hk
  omega

/-- An end token that the cursor stands on is the one that closes the stream. -/
theorem current_eq_ending (h : cursor.Sealed rest) (hk : cursor.kind = .endOfInput) :
    cursor.current = cursor.ending := by
  have hlast : cursor.pos = cursor.tokens.size - 1 := by
    have hended := h.pos_succ_eq hk
    omega
  rw [current, ending, hlast]

/-- The end token is ahead of the cursor, or the cursor stands on it. -/
theorem endOfInput_mem_ahead (h : cursor.Sealed rest) :
    Kind.endOfInput ∈ cursor.ahead.map Word.kind := by
  obtain ⟨last, hlast, hkind⟩ := h.valid.closed
  have hinside : ¬ cursor.tokens.toList.length ≤ cursor.pos := by simpa using h.valid.inside
  have hmem : last ∈ cursor.tokens.toList.drop cursor.pos := by
    refine List.mem_of_getLast? ?_
    rw [List.getLast?_drop, if_neg hinside, hlast]
  refine List.mem_map.2 ⟨last.word, List.mem_map_of_mem hmem, hkind⟩

/-- Leads are told by the tokens up to the end, since no lead has an end token in it. -/
theorem leads_extend (h : cursor.Sealed rest) (lead : Lead) :
    leads lead (cursor.extend rest) = ((leads lead cursor).1, cursor.extend rest) := by
  have hahead : (cursor.extend rest).ahead = cursor.ahead ++ rest.toList.map Token.word := by
    have hinside : cursor.pos ≤ cursor.tokens.toList.length := by
      simpa using Nat.le_of_lt h.valid.inside
    simp only [ahead, extend, Array.toList_append, List.drop_append_of_le_length hinside, List.map_append]
  have hkinds : Kind.endOfInput ∉ lead.kinds := by cases lead <;> decide
  rw [Production.leads_eq lead (cursor.extend rest), Production.leads_eq lead cursor, hahead, List.map_append,
    Kind.isPrefixOf_append hkinds h.endOfInput_mem_ahead]

end Sealed

end Cursor

/-- The form that an item has: a function, a declaration, the entry point or an import. -/
def Item.form : Item → Production.ItemForm
  | function .. => .function
  | declaration _ => .declaration
  | entry _ => .entry
  | importFile _ => .importFile

/-- Two programs have the same items up to one, which is of the same form in both and the last one of the first. -/
def Program.PartsFrom (short long : Program) : Prop :=
  ∃ (items : List Item) (last next : Item) (others : List Item),
    short = items ++ [last] ∧ long = items ++ next :: others ∧ last.form = next.form

/-- More items that are the same in front change nothing about where two programs part. -/
theorem Program.PartsFrom.append {short long : Program} (h : short.PartsFrom long) (done : Program) :
    Program.PartsFrom (done ++ short) (done ++ long) := by
  obtain ⟨items, last, next, others, rfl, rfl, hform⟩ := h
  exact ⟨done ++ items, last, next, others, (List.append_assoc ..).symm, (List.append_assoc ..).symm, hform⟩

/-! ### Productions before the end -/

namespace Production

open Cursor (Parted Sealed)

variable {α β : Type} {rest : Array Token} {n : Nat} {p q : Production α} {f : α → Production β}
  {cursor : Cursor}

/-- On the longer stream a production does the same, or the two cursors are parted. -/
def Agrees (rest : Array Token) (p : Production α) (cursor : Cursor) : Prop :=
  p (cursor.extend rest) = ((p cursor).1, (p cursor).2.extend rest) ∨
    Parted (p cursor).2 (p (cursor.extend rest)).2

/-- A production that agrees wherever at most `n` tokens are left up to the end. -/
class Sheltered (rest : Array Token) (n : Nat) (p : Production α) : Prop where
  forward : Forward p
  agrees : ∀ {cursor : Cursor}, cursor.Sealed rest → cursor.remaining ≤ n → Agrees rest p cursor

/-- A production that agrees there, except for the end itself. -/
structure ShelteredInside (rest : Array Token) (n : Nat) (p : Production α) : Prop where
  forward : Forward p
  agrees : ∀ {cursor : Cursor}, cursor.Sealed rest → cursor.remaining ≤ n → cursor.kind ≠ .endOfInput →
    Agrees rest p cursor

/-! ### Sequences and branches -/

/-- A sequence agrees if both of its parts do. Cursors that the first part has parted stay parted in the
second. -/
theorem Agrees.bind (hp : Agrees rest p cursor) (hforward : ∀ a, Forward (f a))
    (hf : Agrees rest (f (p cursor).1) (p cursor).2) : Agrees rest (p >>= f) cursor := by
  rcases hp with hsame | hparted
  · rw [Agrees, bind_apply, bind_apply, hsame]
    exact hf
  · exact .inr (hparted.reaches (Forward.reaches _) (Forward.reaches _))

instance sheltered_pure (a : α) : Sheltered rest n (pure a : Production α) :=
  ⟨inferInstance, fun _ _ => .inl rfl⟩

instance sheltered_bind [hp : Sheltered rest n p] [hf : ∀ a, Sheltered rest n (f a)] :
    Sheltered rest n (p >>= f) := by
  refine ⟨hp.forward.bind fun a => (hf a).forward, fun {cursor} h hn => ?_⟩
  have hreach := hp.forward.reaches cursor
  refine (hp.agrees h hn).bind (fun a => (hf a).forward) ?_
  exact (hf _).agrees (h.reaches hreach) (Nat.le_trans hreach.remaining_le hn)

/-- A sequence of sheltered productions is sheltered, because the second is read where no more tokens are
left. -/
theorem Sheltered.bind (hp : Sheltered rest n p) (hf : ∀ a, Sheltered rest n (f a)) :
    Sheltered rest n (p >>= f) :=
  sheltered_bind

instance sheltered_map (g : α → β) [hp : Sheltered rest n p] : Sheltered rest n (g <$> p) := by
  have := hp.forward
  refine ⟨inferInstance, fun h hn => ?_⟩
  rcases hp.agrees h hn with hsame | hparted
  · exact .inl (by rw [map_apply, map_apply, hsame])
  · exact .inr hparted

/-- A branch between sheltered productions is sheltered. What it is decided by does not depend on the
stream. -/
theorem Sheltered.ite {b : Prop} [Decidable b] (hp : Sheltered rest n p) (hq : Sheltered rest n q) :
    Sheltered rest n (if b then p else q) := by
  split <;> assumption

instance sheltered_ite (b : Prop) [Decidable b] [hp : Sheltered rest n p] [hq : Sheltered rest n q] :
    Sheltered rest n (if b then p else q) :=
  hp.ite hq

/-- A sequence is sheltered inside the input if its first part is, and the second part also at the end. -/
theorem ShelteredInside.bind (hp : ShelteredInside rest n p) (hf : ∀ a, Sheltered rest n (f a)) :
    ShelteredInside rest n (p >>= f) := by
  refine ⟨hp.forward.bind fun a => (hf a).forward, fun {cursor} h hn hk => ?_⟩
  have hreach := hp.forward.reaches cursor
  refine (hp.agrees h hn hk).bind (fun a => (hf a).forward) ?_
  exact (hf _).agrees (h.reaches hreach) (Nat.le_trans hreach.remaining_le hn)

/-- Behind a production that leaves a token behind, one token less is left for the second part of a
sequence. -/
theorem ShelteredInside.bind_strict (hp : ShelteredInside rest (n + 1) p) (hs : Strict p)
    (hf : ∀ a, Sheltered rest n (f a)) : ShelteredInside rest (n + 1) (p >>= f) := by
  refine ⟨hp.forward.bind fun a => (hf a).forward, fun {cursor} h hn hk => ?_⟩
  have hreach := hp.forward.reaches cursor
  have hfewer := hreach.remaining_lt h.valid (hs cursor (h.valid.not_last hk))
  refine (hp.agrees h hn hk).bind (fun a => (hf a).forward) ?_
  exact (hf _).agrees (h.reaches hreach) (by omega)

/-- To change the value of a production does not change where it is sheltered. -/
theorem ShelteredInside.map (g : α → β) (hp : ShelteredInside rest n p) : ShelteredInside rest n (g <$> p) := by
  have := hp.forward
  refine ⟨inferInstance, fun h hn hk => ?_⟩
  rcases hp.agrees h hn hk with hsame | hparted
  · exact .inl (by rw [map_apply, map_apply, hsame])
  · exact .inr hparted

/-- A branch between productions that are sheltered inside the input is sheltered there too. -/
theorem ShelteredInside.ite {b : Prop} [Decidable b] (hp : ShelteredInside rest n p)
    (hq : ShelteredInside rest n q) : ShelteredInside rest n (if b then p else q) := by
  split <;> assumption

/-- Looking around first does not lead to the end, so that what comes after is still read inside the
input. -/
theorem ShelteredInside.look (hp : Sheltered rest n p) (hlook : ∀ cursor, (p cursor).2 = cursor)
    (hf : ∀ a, ShelteredInside rest n (f a)) : ShelteredInside rest n (p >>= f) := by
  refine ⟨hp.forward.bind fun a => (hf a).forward, fun {cursor} h hn hk => ?_⟩
  refine (hp.agrees h hn).bind (fun a => (hf a).forward) ?_
  rw [hlook cursor]
  exact (hf _).agrees h hn hk

/-- What is sheltered everywhere is sheltered inside the input. -/
theorem Sheltered.inside (h : Sheltered rest n p) : ShelteredInside rest n p :=
  ⟨h.forward, fun hc hn _ => h.agrees hc hn⟩

/-! ### Tokens -/

instance : Sheltered rest n peek :=
  ⟨inferInstance, fun h _ => .inl (by rw [peek_apply, peek_apply, h.current_extend])⟩

instance : Sheltered rest n previous :=
  ⟨inferInstance, fun h _ => .inl (by rw [previous_apply, previous_apply, h.previous_extend])⟩

instance : Sheltered rest n kind :=
  ⟨inferInstance, fun h _ => .inl (by rw [kind_apply, kind_apply, h.kind_extend])⟩

instance : Sheltered rest n atEnd :=
  ⟨inferInstance, fun h _ => .inl (by rw [atEnd_apply, atEnd_apply, h.kind_extend])⟩

instance (cause : Cause) : Sheltered rest n (report cause) :=
  ⟨inferInstance, fun h _ => .inl (by rw [report_apply, report_apply, h.report_extend])⟩

instance (token : Token) (cause : Cause) : Sheltered rest n (reportOn token cause) :=
  ⟨inferInstance, fun _ _ => .inl rfl⟩

instance (lead : Lead) : Sheltered rest n (leads lead) :=
  ⟨inferInstance, fun h _ => .inl (by rw [h.leads_extend, leads_state])⟩

instance sheltered_accept (wanted : Kind) [Ongoing wanted.ends] : Sheltered rest n (accept wanted) := by
  refine ⟨inferInstance, fun {cursor} h _ => .inl ?_⟩
  obtain ⟨hk, hrun⟩ | ⟨hk, hrun⟩ := accept_cases cursor wanted
  · rw [hrun, accept_of_eq (h.kind_extend.trans hk), h.step_extend (hk ▸ wanted.ne_endOfInput)]
  · rw [hrun, accept_of_ne (h.kind_extend ▸ hk)]

/-- A token that is demanded parts the cursors if it is missing at the end. -/
instance sheltered_expect (wanted : Kind) [Ongoing wanted.ends] : Sheltered rest n (expect wanted) := by
  refine ⟨inferInstance, fun {cursor} h _ => ?_⟩
  obtain ⟨hk, hrun⟩ | ⟨hk, hrun⟩ := expect_cases cursor wanted
  · refine .inl ?_
    rw [hrun, expect_of_eq (h.kind_extend.trans hk), h.current_extend,
      h.step_extend (hk ▸ wanted.ne_endOfInput)]
  · have hlong : expect wanted (cursor.extend rest) = (none,
        ((cursor.report (.unexpected wanted cursor.current.value)).extend rest).step) := by
      rw [expect_of_ne (by rwa [h.kind_extend]), h.current_extend, h.report_extend]
    have hreported : (cursor.report (.unexpected wanted cursor.current.value)).Sealed rest :=
      h.reaches (Cursor.reaches_reportAt cursor _ _)
    by_cases hend : cursor.kind = .endOfInput
    · have hmissing : (cursor.report (.unexpected wanted cursor.current.value)).diagnostics.toList =
          cursor.diagnostics.toList ++ [cursor.missing wanted] := by
        rw [Cursor.missing, ← h.current_eq_ending hend]
        exact Array.toList_push
      have hparted : Parted (cursor.report (.unexpected wanted cursor.current.value))
          ((cursor.report (.unexpected wanted cursor.current.value)).extend rest) :=
        ⟨h.pos_succ_eq hend, cursor.diagnostics.toList, wanted, hmissing ▸ List.prefix_refl _,
          hmissing ▸ List.prefix_refl _⟩
      refine .inr ?_
      rw [hrun, hlong]
      exact hparted.reaches (Cursor.reaches_step _) (Cursor.reaches_step _)
    · refine .inl ?_
      rw [hrun, hlong, hreported.step_extend hend]

/-- Inside the input any token can be left behind, with the same token behind it on both streams. -/
theorem shelteredInside_advance : ShelteredInside rest n advance :=
  ⟨inferInstance, fun h _ hk => .inl (by rw [advance_apply, advance_apply, h.current_extend, h.step_extend hk])⟩

/-- Inside the input a token that is reported and left behind is so on the longer stream. -/
theorem skip_extend (cause : Token → Cause) (result : Token → α) (h : cursor.Sealed rest)
    (hk : cursor.kind ≠ .endOfInput) :
    let skip : Production α := do
      let found ← peek
      report (cause found)
      let _ ← advance
      return result found
    skip (cursor.extend rest) = ((skip cursor).1, (skip cursor).2.extend rest) := by
  have hreported : (cursor.report (cause cursor.current)).Sealed rest :=
    h.reaches (Cursor.reaches_reportAt cursor _ _)
  simp only [bind_apply, peek_apply, report_apply, advance_apply, pure_apply, h.current_extend, h.report_extend,
    hreported.step_extend hk]

/-- Where the end has been looked for and not found, the input has not ended, so that the other branch has
to be sheltered inside only. -/
theorem Sheltered.unlessAtEnd (hp : Sheltered rest n p) (hq : ShelteredInside rest n q) :
    Sheltered rest n (atEnd >>= fun ended => if ended = true then p else q) := by
  have hforward (ended : Bool) : Forward (if ended = true then p else q) := hp.forward.ite hq.forward
  refine ⟨Forward.bind inferInstance hforward, fun {cursor} h hn => ?_⟩
  refine Agrees.bind ((inferInstance : Sheltered rest n atEnd).agrees h hn) hforward ?_
  rw [atEnd_apply]
  by_cases hk : cursor.kind = .endOfInput
  · simpa [hk] using hp.agrees h hn
  · simpa [hk] using hq.agrees h hn hk

/-- Where a token of a kind other than the end token has been seen, the input has not ended, so that this
branch has to be sheltered inside only. -/
theorem Sheltered.ifKind {wanted : Kind} [Ongoing wanted.ends] (hp : ShelteredInside rest n p)
    (hq : Sheltered rest n q) :
    Sheltered rest n (kind >>= fun found => if found = wanted then p else q) := by
  have hforward (found : Kind) : Forward (if found = wanted then p else q) := hp.forward.ite hq.forward
  refine ⟨Forward.bind inferInstance hforward, fun {cursor} h hn => ?_⟩
  refine Agrees.bind ((inferInstance : Sheltered rest n kind).agrees h hn) hforward ?_
  rw [kind_apply]
  by_cases hk : cursor.kind = wanted
  · simpa [hk] using hp.agrees h hn (hk ▸ wanted.ne_endOfInput)
  · simpa [hk] using hq.agrees h hn

/-! ### Loops -/

section

variable {round : Production (Round α)} [Forward round]

/-- Loops give the same if their rounds do. Of a round that ends the loop it is enough that the two cursors are then
as `ends` says; and if a round parts the cursors, the loops have given the same up to there, and what they give from
there on is as `parts` says. -/
theorem rounds_agree (hp : Progressive round) (ends : Cursor → Cursor → Prop)
    (hends : ∀ cursor : Cursor, ends cursor (cursor.extend rest)) (parts : List α → List α → Prop)
    (hround : ∀ {cursor : Cursor}, cursor.Sealed rest → cursor.remaining ≤ n →
      round (cursor.extend rest) = ((round cursor).1, (round cursor).2.extend rest) ∨
      ((round cursor).1 = .stop ∧ (round (cursor.extend rest)).1 = .stop ∧
        ends (round cursor).2 (round (cursor.extend rest)).2) ∨
      (Parted (round cursor).2 (round (cursor.extend rest)).2 ∧
        parts (rounds round cursor).1 (rounds round (cursor.extend rest)).1))
    (h : cursor.Sealed rest) (hn : cursor.remaining ≤ n) :
    ((rounds round (cursor.extend rest)).1 = (rounds round cursor).1 ∧
        ends (rounds round cursor).2 (rounds round (cursor.extend rest)).2) ∨
      (Parted (rounds round cursor).2 (rounds round (cursor.extend rest)).2 ∧
        ∃ done short long, (rounds round cursor).1 = done ++ short ∧
          (rounds round (cursor.extend rest)).1 = done ++ long ∧ parts short long) := by
  -- a round that goes on leaves fewer tokens, so the induction is on how many are left
  induction hm : cursor.remaining using Nat.strongRecOn generalizing cursor with
  | ind m ih =>
    rcases hround h hn with hsame | ⟨hstop, hstop', hlast⟩ | ⟨hparted, hparts⟩
    · rw [rounds_eq hp h.extended, rounds_eq hp h.valid, hsame]
      have hreach := Forward.reaches (p := round) cursor
      cases hresult : (round cursor).1 with
      | stop | last => exact .inl ⟨rfl, hends _⟩
      | next element? =>
        have hfewer := hreach.remaining_lt h.valid (hp cursor h.valid element? hresult)
        have hmore := ih (round cursor).2.remaining (hm ▸ hfewer) (h.reaches hreach) (by omega) rfl
        cases element? with
        | none => exact hmore
        | some element =>
          rcases hmore with ⟨hresult, hlast⟩ | ⟨hparted, done, short, long, hshort, hlong, hparts⟩
          · exact .inl ⟨congrArg (element :: ·) hresult, hlast⟩
          · exact .inr ⟨hparted, element :: done, short, long, congrArg (element :: ·) hshort,
              congrArg (element :: ·) hlong, hparts⟩
    · rw [rounds_eq hp h.extended, rounds_eq hp h.valid, hstop, hstop']
      exact .inl ⟨rfl, hlast⟩
    · exact .inr ⟨hparted.reaches (reaches_rounds hp h.valid) (reaches_rounds hp h.extended), [], _, _, rfl, rfl,
        hparts⟩

/-- A loop is sheltered if its rounds are. The round that parts the cursors is the last that matters. -/
theorem sheltered_rounds (hp : Progressive round) [hround : Sheltered rest n round] :
    Sheltered rest n (rounds round) := by
  refine ⟨inferInstance, fun {cursor} h hn => ?_⟩
  have hagree := rounds_agree hp (fun after twin => twin = after.extend rest) (fun _ => rfl) (fun _ _ => True)
    (fun h hn => (hround.agrees h hn).imp_right fun hparted => .inr ⟨hparted, trivial⟩) h hn
  rcases hagree with ⟨hresult, hlast⟩ | ⟨hparted, -⟩
  · exact .inl (Prod.ext hresult hlast)
  · exact .inr hparted

end

/-! ### Types, expressions and conditions -/

instance (wanted : Kind) [Ongoing wanted.ends] : Sheltered rest n (expectValue wanted) := by
  unfold expectValue
  infer_instance

instance : Sheltered rest n dataType := by
  refine (sheltered_expect _).bind fun token? => ?_
  cases token? with
  | none => infer_instance
  | some token =>
    dsimp only
    split <;> infer_instance

instance : Sheltered rest n operand := by
  unfold operand
  infer_instance

instance : Sheltered rest n mathOperator := by
  refine Sheltered.bind inferInstance fun token => ?_
  split <;> infer_instance

instance : Sheltered rest n comparison := by
  refine Sheltered.bind inferInstance fun token => ?_
  split <;> infer_instance

instance : Sheltered rest n link := by
  unfold link
  infer_instance

instance : Sheltered rest n (rounds link) :=
  sheltered_rounds progressive_link

instance : Sheltered rest n expr := by
  unfold expr
  infer_instance

instance (opened : Bool) : Sheltered rest n (closeParenIf opened) := by
  unfold closeParenIf
  infer_instance

instance (left : Operand) : Sheltered rest n (conditionFrom left) := by
  unfold conditionFrom
  infer_instance

instance : Sheltered rest n condition := by
  unfold condition
  infer_instance

instance : Sheltered rest n argument := by
  unfold argument
  infer_instance

instance : Sheltered rest n (rounds argument) :=
  sheltered_rounds progressive_argument

instance : Sheltered rest n arguments := by
  unfold arguments
  infer_instance

/-! ### Statements -/

instance : Sheltered rest n endOfStatement := by
  unfold endOfStatement
  infer_instance

instance : Sheltered rest n assignment := by
  unfold assignment
  infer_instance

instance : Sheltered rest n declaration := by
  unfold declaration
  infer_instance

instance : Sheltered rest n call := by
  unfold call
  infer_instance

instance : Sheltered rest n returnValue := by
  unfold returnValue
  infer_instance

instance : Sheltered rest n ret := by
  rw [ret_eq]
  infer_instance

instance (body : Production Stmt) [Forward body] [Sheltered rest n body] : Sheltered rest n (terminated body) := by
  unfold terminated
  infer_instance

/-- Inside the input a token that starts no statement is reported and left behind alike on both streams. -/
theorem shelteredInside_unknownStatement : ShelteredInside rest n unknownStatement :=
  ⟨inferInstance, fun h _ hk => .inl (skip_extend (fun found => .misplaced found.value "expected a statement")
    (fun found => Stmt.unknown found.value) h hk)⟩

/-- Inside the input simple statements agree, whichever of their forms is told by the tokens ahead. -/
theorem shelteredInside_simpleStatement : ShelteredInside rest n simpleStatement := by
  refine .look inferInstance (leads_state _) fun _ => .ite (Sheltered.inside inferInstance) ?_
  refine .look inferInstance (leads_state _) fun _ => .ite (Sheltered.inside inferInstance) ?_
  refine .look inferInstance (leads_state _) fun _ => .ite (Sheltered.inside inferInstance) ?_
  refine .look inferInstance (fun _ => rfl) fun _ => .ite (Sheltered.inside inferInstance) ?_
  exact shelteredInside_unknownStatement

instance : Sheltered rest n forInit := by
  unfold forInit
  infer_instance

instance : Sheltered rest n forCondition := by
  unfold forCondition
  infer_instance

instance : Sheltered rest n forStep := by
  unfold forStep
  infer_instance

instance : Sheltered rest n forHeader := by
  unfold forHeader
  infer_instance

section

variable {nested : Production Stmt} (hs : Strict nested) (h : ShelteredInside rest n nested)

include hs h

/-- The statements up to the closing bracket of a block are sheltered, since none is read at the end of the
input. -/
theorem sheltered_inside : Sheltered rest n (rounds (blockRound nested)) := by
  have := h.forward
  have hround : Sheltered rest n (blockRound nested) :=
    Sheltered.bind inferInstance fun _ => Sheltered.ite inferInstance
      (.unlessAtEnd inferInstance (h.bind fun _ => inferInstance))
  exact sheltered_rounds (progressive_blockRound hs)

/-- A block is sheltered. Its bracket may be missing at the end, which parts the cursors. -/
theorem sheltered_blockOf : Sheltered rest n (blockOf nested) :=
  Sheltered.bind inferInstance fun _ => sheltered_inside hs h

/-- What is done otherwise is sheltered: another choice is read only where its word has been seen. -/
theorem sheltered_otherwiseOf : Sheltered rest n (otherwiseOf nested) := by
  have hblock := sheltered_blockOf hs h
  exact Sheltered.bind inferInstance fun _ => Sheltered.ite (.ifKind (h.map _) inferInstance) inferInstance

/-- A statement has one token more left to it than the statements inside it, which is why these are looked
at for fewer tokens. -/
theorem shelteredInside_statementOf : ShelteredInside rest (n + 1) (statementOf nested) := by
  have hinside := sheltered_inside hs h
  have hblock := sheltered_blockOf hs h
  have hotherwise := sheltered_otherwiseOf hs h
  refine .look inferInstance (fun _ => rfl) fun found => ?_
  split
  · rw [ifElseOf_eq]
    exact .bind_strict (Sheltered.inside inferInstance) (strict_expect _) fun _ => inferInstance
  · exact .bind_strict (Sheltered.inside inferInstance) (strict_expect _) fun _ => inferInstance
  · rw [forLoopOf_eq]
    exact .bind_strict (Sheltered.inside inferInstance) (strict_expect _) fun _ => inferInstance
  · exact .map _ (.bind_strict (Sheltered.inside inferInstance) (strict_expect _) fun _ => inferInstance)
  · exact shelteredInside_advance.bind fun _ => inferInstance
  · refine .look inferInstance (leads_state _) fun _ => .ite (Sheltered.inside inferInstance) ?_
    exact shelteredInside_simpleStatement

end

/-- Statements agree as long as the input has not ended. The induction is on the number of tokens left, because
statements inside others start at later tokens. -/
theorem shelteredInside_statement (n : Nat) : ShelteredInside rest n statement := by
  induction n with
  | zero =>
    refine ⟨inferInstance, fun {cursor} h hn _ => ?_⟩
    have hinside := h.valid.inside
    unfold Cursor.remaining at hn
    omega
  | succ n ih =>
    refine ⟨inferInstance, fun {cursor} h hn hk => ?_⟩
    rw [Agrees, statement_eq h.valid, statement_eq h.extended]
    exact (shelteredInside_statementOf strict_statement ih).agrees h hn hk

instance : Sheltered rest n block :=
  sheltered_blockOf strict_statement (shelteredInside_statement n)

/-! ### Items and programs -/

instance : Sheltered rest n parameter := by
  apply Sheltered.bind inferInstance
  intro _
  apply Sheltered.ite inferInstance
  infer_instance

instance : Sheltered rest n (rounds parameter) :=
  sheltered_rounds progressive_parameter

instance : Sheltered rest n parameters := by
  unfold parameters
  infer_instance

instance : Sheltered rest n function := by
  unfold function
  infer_instance

instance : Sheltered rest n importFile := by
  unfold importFile
  infer_instance

instance : Sheltered rest n entry := by
  unfold entry
  infer_instance

instance (form : ItemForm) : Sheltered rest n (form.read statement) := by
  cases form with
  | function => exact inferInstanceAs (Sheltered rest n (_ <$> function))
  | declaration => exact inferInstanceAs (Sheltered rest n (declaration >>= _))
  | entry => exact inferInstanceAs (Sheltered rest n (_ <$> entry))
  | importFile => exact inferInstanceAs (Sheltered rest n (importFile >>= _))

/-- What is read in a form is an item of this form, whatever reads the statements inside it. -/
theorem exists_item_of_read (nested : Production Stmt) (form : ItemForm) (cursor : Cursor) :
    ∃ item, (form.read nested cursor).1 = .next (some item) ∧ item.form = form := by
  cases form <;> simp only [ItemForm.read, functionOf, entryOf, importFile, bind_apply, map_apply, pure_apply]
  case function | declaration | entry | importFile => exact ⟨_, rfl, rfl⟩

/-- Where the same signs are there, the same form is read, or there is none on either side. -/
theorem firstOf_alike {Form : Type} {sign : Form → Sign} (read : Form → Production α) (otherwise : Production α)
    {twin : Cursor} (h : ∀ form, (check (sign form) twin).1 = (check (sign form) cursor).1) (forms : List Form) :
    (∃ form, firstOf sign read otherwise forms cursor = read form cursor ∧
      firstOf sign read otherwise forms twin = read form twin) ∨
    (firstOf sign read otherwise forms cursor = otherwise cursor ∧
      firstOf sign read otherwise forms twin = otherwise twin) := by
  induction forms with
  | nil => exact .inr ⟨rfl, rfl⟩
  | cons form forms ih =>
    rw [firstOf_cons_apply, firstOf_cons_apply, h form]
    by_cases hform : (check (sign form) cursor).1 = true
    · exact .inl ⟨form, if_pos hform, if_pos hform⟩
    · rw [if_neg hform, if_neg hform]
      exact ih

/-- Inside the input an item is read in the first form whose sign is there. -/
theorem topLevel_of_ongoing (hk : cursor.kind ≠ .endOfInput) :
    topLevel cursor = firstOf ItemForm.sign (ItemForm.read statement) unknownItem ItemForm.all cursor := by
  rw [← topLevelBy_all, topLevelBy, bind_apply, accept_of_ne hk]
  rfl

/-- Before the end an item, or a token in its place, is the same on the longer stream, or it is an item of the same
form that parts the cursors. -/
theorem topLevel_agree (h : cursor.Sealed rest) (hk : cursor.kind ≠ .endOfInput) :
    topLevel (cursor.extend rest) = ((topLevel cursor).1, (topLevel cursor).2.extend rest) ∨
      (Parted (topLevel cursor).2 (topLevel (cursor.extend rest)).2 ∧
        ∃ last next : Item, (topLevel cursor).1 = .next (some last) ∧
          (topLevel (cursor.extend rest)).1 = .next (some next) ∧ last.form = next.form) := by
  have hsigns (form : ItemForm) :
      (check form.sign (cursor.extend rest)).1 = (check form.sign cursor).1 := by
    cases form with
    | function | declaration | entry =>
      show (leads _ (cursor.extend rest)).1 = (leads _ cursor).1
      rw [h.leads_extend]
    | importFile =>
      show decide ((cursor.extend rest).kind = _) = decide (cursor.kind = _)
      rw [h.kind_extend]
  rw [topLevel_of_ongoing hk, topLevel_of_ongoing (by rwa [h.kind_extend])]
  rcases firstOf_alike (ItemForm.read statement) unknownItem hsigns ItemForm.all with
    ⟨form, hread, hread'⟩ | ⟨hread, hread'⟩
  · rw [hread, hread']
    have hsheltered : Sheltered rest cursor.remaining (form.read statement) := inferInstance
    refine (hsheltered.agrees h (Nat.le_refl _)).imp_right fun hparted => ⟨hparted, ?_⟩
    obtain ⟨last, hlast, hform⟩ := exists_item_of_read statement form cursor
    obtain ⟨next, hnext, hform'⟩ := exists_item_of_read statement form (cursor.extend rest)
    exact ⟨last, next, hlast, hnext, hform.trans hform'.symm⟩
  · rw [hread, hread']
    exact .inl (skip_extend (fun found => .unexpectedTopLevel found.value) (fun _ => Round.next none) h hk)

/-- At the end there are no more items. The end token is left behind there if that is possible. -/
theorem topLevel_of_ended (hk : cursor.kind = .endOfInput) : topLevel cursor = (.stop, cursor.step) := by
  simp [topLevel, accept_of_eq hk]

/-- An item that parts the cursors is the last one of the shorter stream, which is at its end behind it. -/
theorem partsFrom_of_parted (hparted : Parted (topLevel cursor).2 (topLevel (cursor.extend rest)).2)
    (h : cursor.Sealed rest) {last next : Item} (hlast : (topLevel cursor).1 = .next (some last))
    (hnext : (topLevel (cursor.extend rest)).1 = .next (some next)) (hform : last.form = next.form) :
    Program.PartsFrom (rounds topLevel cursor).1 (rounds topLevel (cursor.extend rest)).1 := by
  have hafter := h.reaches (Forward.reaches (p := topLevel) cursor)
  have hended : (topLevel cursor).2.kind = .endOfInput := by
    by_contra hmore
    have hlater := hafter.valid.not_last hmore
    have hend := hparted.ended
    omega
  have hstop : (rounds topLevel (topLevel cursor).2).1 = [] := by
    rw [rounds_eq progressive_topLevel hafter.valid, topLevel_of_ended hended]
  refine ⟨[], last, next, (rounds topLevel (topLevel (cursor.extend rest)).2).1, ?_, ?_, hform⟩
  · rw [rounds_eq progressive_topLevel h.valid, hlast]
    exact congrArg (last :: ·) hstop
  · rw [rounds_eq progressive_topLevel h.extended, hnext]
    rfl

/-- A program is the same on the longer stream, and so are the reports about it, or the cursors are parted. Then the
items are the same up to one, of the same form in both, which is the last one of the shorter stream. -/
theorem program_agree (h : cursor.Sealed rest) :
    ((program (cursor.extend rest)).1 = (program cursor).1 ∧
        (program (cursor.extend rest)).2.diagnostics = (program cursor).2.diagnostics) ∨
      (Parted (program cursor).2 (program (cursor.extend rest)).2 ∧
        Program.PartsFrom (program cursor).1 (program (cursor.extend rest)).1) := by
  have hround {cursor : Cursor} (h : cursor.Sealed rest) :
      topLevel (cursor.extend rest) = ((topLevel cursor).1, (topLevel cursor).2.extend rest) ∨
      ((topLevel cursor).1 = .stop ∧ (topLevel (cursor.extend rest)).1 = .stop ∧
        (topLevel (cursor.extend rest)).2.diagnostics = (topLevel cursor).2.diagnostics) ∨
      (Parted (topLevel cursor).2 (topLevel (cursor.extend rest)).2 ∧
        Program.PartsFrom (rounds topLevel cursor).1 (rounds topLevel (cursor.extend rest)).1) := by
    -- at the end both loops stop, though only the longer stream can be left one token further on
    by_cases hk : cursor.kind = .endOfInput
    · refine .inr (.inl ?_)
      rw [topLevel_of_ended hk, topLevel_of_ended (h.kind_extend.trans hk)]
      exact ⟨rfl, rfl, by rw [Cursor.diagnostics_step, Cursor.diagnostics_step]; rfl⟩
    · rcases topLevel_agree h hk with hsame | ⟨hparted, last, next, hlast, hnext, hform⟩
      · exact .inl hsame
      · exact .inr (.inr ⟨hparted, partsFrom_of_parted hparted h hlast hnext hform⟩)
  rcases rounds_agree progressive_topLevel (fun after twin => twin.diagnostics = after.diagnostics) (fun _ => rfl)
      Program.PartsFrom (fun h _ => hround h) h (Nat.le_refl _) with
    hsame | ⟨hparted, done, short, long, hshort, hlong, hparts⟩
  · exact .inl hsame
  · refine .inr ⟨hparted, ?_⟩
    rw [program, hshort, hlong]
    exact hparts.append done

end Production

/-! ### Token streams -/

section

variable {front : List Token} {ending : Token}

/-- Nothing is added to a stream with an end token at its end. -/
theorem Cursor.tokens_ofTokens_ending (hend : ending.kind = .endOfInput) (front : List Token) (file : String) :
    (ofTokens (front ++ [ending]) file).tokens = (front ++ [ending]).toArray := by
  simp [ofTokens, closed, hend]

/-- A stream that goes on behind an end token is the stream up to there and something behind it. -/
theorem Cursor.exists_ofTokens_eq_extend (hend : ending.kind = .endOfInput) (front rest : List Token)
    (file : String) :
    ∃ more, ofTokens (front ++ ending :: rest) file = (ofTokens (front ++ [ending]) file).extend more := by
  have hclosed : closed (front ++ [ending]) = front ++ [ending] := by simp [closed, hend]
  by_cases hrest : rest = []
  · exact ⟨#[], by simp [hrest, extend, ofTokens]⟩
  · refine ⟨(closed rest).toArray, ?_⟩
    have happend : closed (front ++ ending :: rest) = front ++ [ending] ++ closed rest := by
      rw [List.append_cons, closed_append _ hrest]
    simp [extend, ofTokens, happend, hclosed]

/-- What follows the first end token of a stream changes nothing, or both readings complain about that token in the same
words, and both programs start alike. -/
theorem parse_agree (hfront : ∀ token ∈ front, token.kind ≠ .endOfInput) (hend : ending.kind = .endOfInput)
    (rest : List Token) (file : String) :
    parse (front ++ ending :: rest) file = parse (front ++ [ending]) file ∨
      (parse (front ++ [ending]) file).1.PartsFrom (parse (front ++ ending :: rest) file).1 ∧
      ∃ earlier wanted,
        let diagnostic : Diagnostic := ⟨.unexpected wanted ending.value, ending.span.start.orIn file⟩
        earlier ++ [diagnostic] <+: (parse (front ++ [ending]) file).2 ∧
          earlier ++ [diagnostic] <+: (parse (front ++ ending :: rest) file).2 := by
  obtain ⟨more, hmore⟩ := Cursor.exists_ofTokens_eq_extend hend front rest file
  have htokens := Cursor.tokens_ofTokens_ending hend front file
  have hsealed : (Cursor.ofTokens (front ++ [ending]) file).Sealed more := by
    refine ⟨Cursor.valid_ofTokens _ _, hmore ▸ Cursor.valid_ofTokens _ _, fun place hplace => ?_⟩
    have hlt : place < front.length := by simpa [htokens] using hplace
    have htoken : (Cursor.ofTokens (front ++ [ending]) file).tokenAt place = front.get ⟨place, hlt⟩ := by
      simp [Cursor.tokenAt, htokens, List.getElem?_append_left hlt, List.getElem?_eq_getElem hlt]
    rw [htoken]
    exact hfront _ (List.get_mem _ _)
  have hparse (tokens : List Token) : parse tokens file = ((program (.ofTokens tokens file)).1,
      (program (.ofTokens tokens file)).2.diagnostics.toList) := rfl
  rw [hparse, hparse, hmore]
  rcases Production.program_agree hsealed with ⟨hresult, hdiagnostics⟩ | ⟨hparted, hprograms⟩
  · exact .inl (by rw [hresult, hdiagnostics])
  · obtain ⟨earlier, wanted, hshort, hlong⟩ := hparted.reported
    refine .inr ⟨hprograms, earlier, wanted, ?_⟩
    have hreach := (Forward.reaches (p := program) (Cursor.ofTokens (front ++ [ending]) file))
    have hending : (program (.ofTokens (front ++ [ending]) file)).2.ending = ending := by
      simp [Cursor.ending, Cursor.tokenAt, hreach.tokens, htokens]
    have hmissing : (program (.ofTokens (front ++ [ending]) file)).2.missing wanted =
        ⟨.unexpected wanted ending.value, ending.span.start.orIn file⟩ := by
      rw [Cursor.missing, hending, Cursor.positionOf, hreach.file]
      rfl
    rw [hmissing] at hshort hlong
    exact ⟨hshort, hlong⟩

end

/-! ### Complaints by the places of tokens

Two tokens may have the same value and start at the same position. So the complaint about the end token is looked for
among the complaints about words, which tell tokens by their places. -/

section

variable {front : List Word} {ending : Word}

/-- The placed stream of words that go on behind an end token goes on behind the placed stream up to there. -/
theorem Word.exists_stream_eq_append (hend : ending.kind = .endOfInput) (front rest : List Word) :
    stream (front ++ [ending]) = front.mapIdx Token.placed ++ [.placed front.length ending] ∧
    ∃ more, stream (front ++ ending :: rest) =
      front.mapIdx Token.placed ++ .placed front.length ending :: more := by
  have hclosed : ∃ added, closed (front ++ ending :: rest) = front ++ ending :: rest ++ added := by
    unfold closed
    split
    · split
      · exact ⟨[], (List.append_nil _).symm⟩
      · exact ⟨_, rfl⟩
    · rename_i hnone
      simp at hnone
  obtain ⟨added, hclosed⟩ := hclosed
  constructor
  · simp [stream, closed, hend, List.mapIdx_append]
  · rw [stream, hclosed, List.append_assoc, List.mapIdx_append, List.cons_append, List.mapIdx_cons, Nat.zero_add]
    exact ⟨_, rfl⟩

/-- What follows the first end token among words changes nothing, or both readings complain about that token, and both
programs start alike. -/
theorem Word.complaints_agree (hfront : ∀ word ∈ front, word.kind ≠ .endOfInput) (hend : ending.kind = .endOfInput)
    (rest : List Word) :
    (Word.program (front ++ ending :: rest) = Word.program (front ++ [ending]) ∧
      complaints (front ++ ending :: rest) = complaints (front ++ [ending])) ∨
    (Word.program (front ++ [ending])).PartsFrom (Word.program (front ++ ending :: rest)) ∧
      ∃ earlier wanted,
        earlier ++ [⟨.unexpected wanted ending.value, front.length⟩] <+: complaints (front ++ [ending]) ∧
        earlier ++ [⟨.unexpected wanted ending.value, front.length⟩] <+: complaints (front ++ ending :: rest) := by
  obtain ⟨hshort, more, hlong⟩ := exists_stream_eq_append hend front rest
  have hplaced : ∀ token ∈ front.mapIdx Token.placed, token.kind ≠ .endOfInput := by
    intro token htoken
    obtain ⟨place, hplace, rfl⟩ := List.mem_mapIdx.1 htoken
    exact hfront _ (List.getElem_mem hplace)
  unfold Word.program complaints
  rw [hshort, hlong]
  have hplacedEnd : (Token.placed front.length ending).kind = .endOfInput := hend
  rcases parse_agree hplaced hplacedEnd more "" with
    hsame | ⟨hprograms, earlier, wanted, hearlier, hearlier'⟩
  · exact .inl ⟨by rw [hsame], by rw [hsame]⟩
  · refine .inr ⟨hprograms, earlier.map Diagnostic.complaint, wanted, ?_⟩
    have hcomplaint : Diagnostic.complaint ⟨.unexpected wanted (Token.placed front.length ending).value,
        (Token.placed front.length ending).span.start.orIn ""⟩ =
          ⟨.unexpected wanted ending.value, front.length⟩ := by
      have hposition : (Token.placed front.length ending).span.start.orIn "" =
          ⟨0, String.ofList (List.replicate front.length '.')⟩ := if_neg (replicate_ne_noFile _)
      rw [hposition, Diagnostic.complaint, String.length_ofList, List.length_replicate]
      rfl
    have hmap := hearlier.map Diagnostic.complaint
    have hmap' := hearlier'.map Diagnostic.complaint
    rw [List.map_append, List.map_singleton, hcomplaint] at hmap hmap'
    exact ⟨hmap, hmap'⟩

/-- Where complaints are in order, those about earlier tokens than one of them come before it. -/
theorem Complaint.filter_eq_of_isPrefix {earlier complaints : List Complaint} {complaint : Complaint}
    (hordered : complaints.Pairwise fun complaint next => complaint.place ≤ next.place)
    (h : earlier ++ [complaint] <+: complaints) :
    complaints.filter (fun other => other.place < complaint.place) =
      earlier.filter (fun other => other.place < complaint.place) := by
  obtain ⟨later, rfl⟩ := h
  have hlater : ∀ other ∈ later, complaint.place ≤ other.place :=
    (List.pairwise_append.1 hordered).2.2 complaint (by simp)
  have hnone : later.filter (fun other => other.place < complaint.place) = [] :=
    List.filter_eq_nil_iff.2 fun other hother => by simpa using hlater other hother
  rw [List.filter_append, List.filter_append, hnone, List.append_nil]
  simp

end

/-- A complaint about a token of a stream is located there also if the stream goes on. -/
theorem Cursor.located_extend {rest : Array Token} {cursor : Cursor} {complaint : Complaint}
    (h : complaint.place < cursor.tokens.size) : (cursor.extend rest).located complaint = cursor.located complaint := by
  rw [located, located, tokenAt_extend h]
  rfl

/-- What the reading of a stream up to an end token and the reading of the stream that goes on with `rest` have in
common if a token of the kind `wanted` is missing at that end token. -/
structure MissedAt (front : List Token) (ending : Token) (rest : List Token) (file : String) (wanted : Kind) :
    Prop where
  /-- Up to the item in which the token is missing the items are the same. That item is the last that is read of the
  shorter stream, and it has the same form in the longer one. -/
  programs : (parse (front ++ [ending]) file).1.PartsFrom (parse (front ++ ending :: rest) file).1
  /-- Both readings complain about the token behind `front`, and have the same complaints before that. -/
  complaints : ∃ earlier,
    earlier ++ [⟨.unexpected wanted ending.value, front.length⟩] <+:
        Word.complaints ((front ++ [ending]).map Token.word) ∧
      earlier ++ [⟨.unexpected wanted ending.value, front.length⟩] <+:
        Word.complaints ((front ++ ending :: rest).map Token.word)
  /-- The complaints about the tokens of `front` are the same. -/
  before : (Word.complaints ((front ++ [ending]).map Token.word)).filter (fun other => other.place < front.length) =
    (Word.complaints ((front ++ ending :: rest).map Token.word)).filter fun other => other.place < front.length
  /-- The diagnostics are the same up to the one that the complaint is. -/
  diagnostics : ∃ earlier,
    let diagnostic : Diagnostic := ⟨.unexpected wanted ending.value, ending.span.start.orIn file⟩
    earlier ++ [diagnostic] <+: (parse (front ++ [ending]) file).2 ∧
      earlier ++ [diagnostic] <+: (parse (front ++ ending :: rest) file).2

/-- What follows the first end token of a stream changes nothing, or a token is missing at that end token: then the
whole stream and the stream up to there both get a complaint about that, the same complaints before it, and the same
items before the one in which the token is missing. -/
theorem parse_ending_append {front : List Token} {ending : Token}
    (hfront : ∀ token ∈ front, token.kind ≠ .endOfInput) (hend : ending.kind = .endOfInput)
    (rest : List Token) (file : String) :
    parse (front ++ ending :: rest) file = parse (front ++ [ending]) file ∨
      ∃ wanted, MissedAt front ending rest file wanted := by
  have hwords : (front ++ [ending]).map Token.word = front.map Token.word ++ [ending.word] := by simp
  have hwords' : (front ++ ending :: rest).map Token.word =
      front.map Token.word ++ ending.word :: rest.map Token.word := by simp
  obtain ⟨hprogram, hdiagnostics, hinside⟩ := parse_eq_reading (front ++ [ending]) file
  obtain ⟨hprogram', hdiagnostics', -⟩ := parse_eq_reading (front ++ ending :: rest) file
  -- complaints about the shorter stream are located alike in the longer one
  obtain ⟨more, hmore⟩ := Cursor.exists_ofTokens_eq_extend hend front rest file
  have hlocated : ∀ complaint ∈ Word.complaints ((front ++ [ending]).map Token.word),
      (Cursor.ofTokens (front ++ ending :: rest) file).located complaint =
        (Cursor.ofTokens (front ++ [ending]) file).located complaint := by
    intro complaint hmem
    rw [hmore]
    exact Cursor.located_extend (hinside complaint hmem)
  have hplain : ∀ word ∈ front.map Token.word, word.kind ≠ .endOfInput := by simpa [Token.word] using hfront
  have hendWord : ending.word.kind = .endOfInput := hend
  rcases Word.complaints_agree hplain hendWord (rest.map Token.word) with
    ⟨hresult, hsame⟩ | ⟨hparts, earlier, wanted, hshort, hlong⟩
  · rw [← hwords, ← hwords'] at hresult hsame
    refine .inl (Prod.ext ?_ ?_)
    · rw [hprogram, hprogram', hresult]
    · rw [hdiagnostics, hdiagnostics', hsame]
      exact List.map_congr_left hlocated
  · have hvalue : ending.word.value = ending.value := rfl
    rw [List.length_map, hvalue, ← hwords] at hshort
    rw [List.length_map, hvalue, ← hwords'] at hlong
    rw [← hwords, ← hwords'] at hparts
    refine .inr ⟨wanted, ?_, ⟨earlier, hshort, hlong⟩, ?_, ?_⟩
    · rw [hprogram, hprogram']
      exact hparts
    · rw [Complaint.filter_eq_of_isPrefix (Word.complaints_orderly _).1 hshort,
        Complaint.filter_eq_of_isPrefix (Word.complaints_orderly _).1 hlong]
    · have hending : (Cursor.ofTokens (front ++ [ending]) file).located
          ⟨.unexpected wanted ending.value, front.length⟩ =
            ⟨.unexpected wanted ending.value, ending.span.start.orIn file⟩ := by
        rw [Cursor.located, Cursor.positionOf, Cursor.tokenAt, Cursor.tokens_ofTokens_ending hend]
        simp [Cursor.ofTokens]
      have hmap := hshort.map (Cursor.ofTokens (front ++ [ending]) file).located
      have hmap' := hlong.map (Cursor.ofTokens (front ++ ending :: rest) file).located
      have hearlier := List.map_congr_left fun complaint hmem => hlocated complaint (hshort.subset hmem)
      rw [← hdiagnostics, List.map_append, List.map_singleton, hending] at hmap
      rw [← hdiagnostics', hearlier, List.map_append, List.map_singleton, hending] at hmap'
      exact ⟨_, hmap, hmap'⟩

/-- A declaration that could go on behind the end token does not. -/
theorem parse_ending_append_sample :
    let front : List Token :=
      [.synthetic .typeKeyword "int", .synthetic .confirm ":", .synthetic .identifier "a"]
    let ending : Token := .ending .nowhere
    let rest : List Token := [.synthetic .assignment "=", .synthetic .literal "1"]
    (∀ token ∈ front, token.kind ≠ .endOfInput) ∧ ending.kind = .endOfInput ∧
      (parse (front ++ [ending]) "f").2 = [] ∧
      parse (front ++ ending :: rest) "f" = parse (front ++ [ending]) "f" := by
  intro front ending rest
  have hfront : ∀ token ∈ front, token.kind ≠ .endOfInput := by decide
  have hquiet : (parse (front ++ [ending]) "f").2 = [] := by decide +kernel
  have hend : ending.kind = .endOfInput := rfl
  refine ⟨hfront, hend, hquiet, ?_⟩
  rcases parse_ending_append hfront hend rest "f" with hsame | ⟨wanted, hmissed⟩
  · exact hsame
  · obtain ⟨earlier, hshort, -⟩ := hmissed.diagnostics
    rw [hquiet] at hshort
    exact absurd (List.prefix_nil.1 hshort) (by simp)

/-- An import whose path is missing at the first end token leaves that token behind, so that an import that follows
it is read as well. -/
theorem parse_ending_append_ne :
    ¬ ∀ (front rest : List Token) (ending : Token) (file : String),
      (∀ token ∈ front, token.kind ≠ .endOfInput) → ending.kind = .endOfInput →
        parse (front ++ ending :: rest) file = parse (front ++ [ending]) file := by
  intro h
  have hsame := h [.synthetic .importWord "import"] [.synthetic .importWord "import", .synthetic .literal "a"]
    (.ending .nowhere) "f" (by decide) rfl
  have hlong : (parse ([.synthetic .importWord "import"] ++ Token.ending .nowhere ::
      [.synthetic .importWord "import", .synthetic .literal "a"]) "f").1.length = 2 := by decide +kernel
  have hshort : (parse ([.synthetic .importWord "import"] ++ [Token.ending .nowhere]) "f").1.length = 1 := by
    decide +kernel
  rw [hsame, hshort] at hlong
  cases hlong

end BraceLang
