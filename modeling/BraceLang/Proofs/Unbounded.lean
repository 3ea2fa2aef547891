import BraceLang.Proofs.Forward

/-!
# Loops and levels without their bounds

Repetitions are run for at most as many rounds as tokens remain, and statements are read to at most as many
levels. Neither bound is ever reached, because a round that is followed by another takes a token, and so
does a statement before it reads the statements inside it. Here the bounds are removed:

* `Repeats` is the loop as such, which goes round until a round ends it. From every valid cursor it has
  exactly one run, and that is what `rounds` gives (`repeats_iff`);
* a statement is read by `statementOf` with statements inside that are read in the same way
  (`statement_eq`), and more levels change nothing (`statementWithin_eq`).

Everything about loops and statements is proved from these two facts.
-/

set_option autoImplicit false

namespace BraceLang.Production

open Cursor (Reaches Valid)

variable {α β : Type}

/-! ### Loops -/

/-- A loop that ends: from the first cursor it gathers the elements and stops at the second. -/
inductive Repeats (round : Production (Round α)) : Cursor → List α → Cursor → Prop
  | stop {cursor : Cursor} (h : (round cursor).1 = .stop) :
      Repeats round cursor [] (round cursor).2
  | last {cursor : Cursor} {element : α} (h : (round cursor).1 = .last element) :
      Repeats round cursor [element] (round cursor).2
  | skip {cursor after : Cursor} {elements : List α} (h : (round cursor).1 = .next none)
      (more : Repeats round (round cursor).2 elements after) :
      Repeats round cursor elements after
  | next {cursor after : Cursor} {element : α} {elements : List α}
      (h : (round cursor).1 = .next (some element))
      (more : Repeats round (round cursor).2 elements after) :
      Repeats round cursor (element :: elements) after

/-- A round that leaves a token behind whenever another follows it. -/
def Progressive (round : Production (Round α)) : Prop :=
  ∀ cursor : Cursor, cursor.Valid → ∀ element? : Option α,
    (round cursor).1 = .next element? → cursor.pos < (round cursor).2.pos

variable {round : Production (Round α)} {cursor after : Cursor} {elements : List α}

/-- A loop ends in one way only, because every round is determined by where it starts. -/
theorem Repeats.unique {after' : Cursor} {elements' : List α}
    (h : Repeats round cursor elements after) (h' : Repeats round cursor elements' after') :
    elements = elements' ∧ after = after' := by
  induction h generalizing elements' with
  | stop h => cases h' <;> simp_all
  | last h => cases h' <;> simp_all
  | skip h more ih =>
    cases h' with
    | skip hagain more' => exact ih more'
    | stop hagain | last hagain | next hagain more' => simp_all
  | next h more ih =>
    cases h' with
    | next hagain more' =>
      obtain ⟨rfl, rfl⟩ := ih more'
      simp_all
    | stop hagain | last hagain | skip hagain more' => simp_all

/-- A loop goes forward if its rounds do. The induction is on the rounds. -/
theorem Repeats.reaches [hf : Forward round] (h : Repeats round cursor elements after) :
    cursor.Reaches after := by
  induction h with
  | stop h => exact hf.reaches _
  | last h => exact hf.reaches _
  | skip h more ih => exact (hf.reaches _).trans ih
  | next h more ih => exact (hf.reaches _).trans ih

/-- With as many rounds allowed as tokens remain, the loop ends by itself. -/
theorem repeats_roundsWithin [hf : Forward round] (hp : Progressive round) {limit : Nat}
    (hc : cursor.Valid) (hlimit : cursor.remaining ≤ limit) :
    ∃ elements after, Repeats round cursor elements after ∧
      ∀ done, roundsWithin round limit done cursor = (done.reverse ++ elements, after) := by
  induction limit generalizing cursor with
  | zero =>
    have := hc.inside
    unfold Cursor.remaining at hlimit
    omega
  | succ limit ih =>
    have hreach := hf.reaches cursor
    have hmiddle := hc.reaches hreach
    -- a round that goes on has left a token behind, so one round fewer is enough from there
    have hshorter (element? : Option α) (h : (round cursor).1 = .next element?) :
        (round cursor).2.remaining ≤ limit := by
      have := hreach.remaining_lt hc (hp cursor hc element? h)
      omega
    rcases hround : (round cursor).1 with _ | element | _ | element
    · refine ⟨[], _, .stop hround, fun done => ?_⟩
      simp [roundsWithin, hround]
    · refine ⟨[element], _, .last hround, fun done => ?_⟩
      simp [roundsWithin, hround]
    · obtain ⟨elements, after, hrepeats, hrun⟩ := ih hmiddle (hshorter none hround)
      refine ⟨elements, after, .skip hround hrepeats, fun done => ?_⟩
      simp [roundsWithin, hround, hrun]
    · obtain ⟨elements, after, hrepeats, hrun⟩ := ih hmiddle (hshorter (some element) hround)
      refine ⟨element :: elements, after, .next hround hrepeats, fun done => ?_⟩
      simp [roundsWithin, hround, hrun]

/-- The loop ends, and `rounds` gives how, so that the limit on its rounds is never met. -/
theorem repeats_rounds [Forward round] (hp : Progressive round) (hc : cursor.Valid) :
    Repeats round cursor (rounds round cursor).1 (rounds round cursor).2 := by
  obtain ⟨elements, after, hrepeats, hrun⟩ := repeats_roundsWithin hp hc (Nat.le_refl _)
  have hrounds : rounds round cursor = (elements, after) := hrun []
  rwa [hrounds]

/-- What `rounds` gives is the one way in which the loop ends. -/
theorem repeats_iff [Forward round] (hp : Progressive round) (hc : cursor.Valid) :
    Repeats round cursor elements after ↔ rounds round cursor = (elements, after) := by
  have hrun := repeats_rounds hp hc
  constructor
  · intro h
    obtain ⟨helements, hafter⟩ := hrun.unique h
    exact Prod.ext helements hafter
  · intro h
    rwa [h] at hrun

/-- What a loop gives depends on how its first round ends. -/
theorem rounds_eq [Forward round] (hp : Progressive round) (hc : cursor.Valid) :
    rounds round cursor =
      match (round cursor).1 with
      | .stop => ([], (round cursor).2)
      | .last element => ([element], (round cursor).2)
      | .next none => rounds round (round cursor).2
      | .next (some element) =>
        (element :: (rounds round (round cursor).2).1, (rounds round (round cursor).2).2) := by
  have hmore := repeats_rounds hp (hc.reaches (Forward.reaches (p := round) cursor))
  apply (repeats_iff hp hc).1
  rcases hround : (round cursor).1 with _ | element | _ | element
  · exact .stop hround
  · exact .last hround
  · exact .skip hround hmore
  · exact .next hround hmore

/-- A loop goes forward from where its first round has led. -/
theorem reaches_rounds [Forward round] (hp : Progressive round) (hc : cursor.Valid) :
    (round cursor).2.Reaches (rounds round cursor).2 := by
  rw [rounds_eq hp hc]
  rcases (round cursor).1 with _ | element | _ | element
  · exact .refl _
  · exact .refl _
  · exact Forward.reaches _
  · exact Forward.reaches (p := rounds round) _

/-! ### The loops of the grammar -/

/-- Taking a token of a kind other than the end token moves on. -/
theorem pos_lt_step (hc : cursor.Valid) (hk : cursor.kind ≠ .endOfInput) :
    cursor.pos < cursor.step.pos := by
  rw [hc.step_eq hk]
  exact Nat.lt_succ_self _

/-- A link that is followed by another has taken its operator. -/
theorem progressive_link : Progressive link := by
  intro cursor hc element? h
  obtain ⟨hk, hrun⟩ | ⟨hk, hrun⟩ := link_cases cursor
  · simp [hrun] at h
  · have hmoved := pos_lt_step hc (by simp [hk])
    have hoperator := (inferInstance : Forward mathOperator).reaches cursor.step
    have hoperand := (inferInstance : Forward operand).reaches (mathOperator cursor.step).2
    simp only [hrun]
    exact Nat.lt_of_lt_of_le hmoved (hoperator.trans hoperand).pos_le

/-- An argument that is followed by another has a comma behind it, which is taken. -/
theorem progressive_argument : Progressive argument := by
  intro cursor hc element? h
  obtain ⟨-, hrun⟩ | ⟨-, hrun⟩ | ⟨-, -, hcomma, hrun⟩ | ⟨-, -, -, hrun⟩ := argument_cases cursor
  · simp [hrun] at h
  · simp [hrun] at h
  · have hexpr := (inferInstance : Forward expr).reaches cursor
    have hmoved := pos_lt_step (hc.reaches hexpr) (by simp [hcomma])
    simp only [hrun]
    exact Nat.lt_of_le_of_lt hexpr.pos_le hmoved
  · simp [hrun] at h

/-- A parameter that is followed by another has left a token behind, since declarations are strict. -/
theorem progressive_parameter : Progressive parameter := by
  intro cursor hc element? h
  obtain ⟨-, hrun⟩ | ⟨-, hrun⟩ | ⟨-, hrun⟩ | ⟨hk, hrun⟩ := parameter_cases cursor
  · simp [hrun] at h
  · simp [hrun] at h
  · simp [hrun] at h
  · have hmoved := strict_declaration cursor (hc.not_last (by simp_all))
    have hcomma := (inferInstance : Forward (accept .comma)).reaches (declaration cursor).2
    simp only [hrun]
    exact Nat.lt_of_lt_of_le hmoved hcomma.pos_le

/-- A statement that is followed by another has left a token behind, if statements are strict. -/
theorem progressive_blockRound {nested : Production Stmt} (hnested : Strict nested) :
    Progressive (blockRound nested) := by
  intro cursor hc element? h
  obtain ⟨-, hrun⟩ | ⟨-, hrun⟩ | ⟨-, hend, hrun⟩ := blockRound_cases cursor nested
  · simp [hrun] at h
  · simp [hrun] at h
  · simp only [hrun]
    exact hnested cursor (hc.not_last hend)

/-- An item that is followed by another has left a token behind, and so has a token that starts none. -/
theorem progressive_topLevel : Progressive topLevel := by
  intro cursor hc element? h
  have hsemicolon := (inferInstance : Forward (accept .semicolon)).reaches
  obtain ⟨-, hrun⟩ | ⟨hk, -, hrun⟩ | ⟨hk, -, hrun⟩ | ⟨hk, -, hrun⟩ | ⟨hk, hrun⟩ | ⟨hk, hrun⟩ :=
    topLevel_cases cursor
  · simp [hrun] at h
  · simp only [hrun]
    exact strict_function cursor (hc.not_last hk)
  · simp only [hrun]
    exact Nat.lt_of_lt_of_le (strict_declaration cursor (hc.not_last hk)) (hsemicolon _).pos_le
  · simp only [hrun]
    exact strict_entry cursor (hc.not_last hk)
  · simp only [hrun]
    have hmoved := strict_importFile cursor (hc.not_last (by simp [hk]))
    exact Nat.lt_of_lt_of_le hmoved (hsemicolon _).pos_le
  · simp only [hrun]
    exact strict_advance (cursor.report _) (hc.not_last hk)

/-! ### Levels -/

/-- Two productions that do the same on valid cursors with at most `n` tokens left. -/
def AgreeWithin (n : Nat) (p q : Production α) : Prop :=
  ∀ cursor : Cursor, cursor.Valid → cursor.remaining ≤ n → p cursor = q cursor

variable {n : Nat} {p q : Production α} {f g : α → Production β}

/-- A production agrees with itself, for any number of tokens. -/
theorem AgreeWithin.refl (p : Production α) : AgreeWithin n p p :=
  fun _ _ _ => rfl

/-- Sequences agree if their parts do, because the second parts start where no more tokens are left. -/
theorem AgreeWithin.bind [hp : Forward p] (h : AgreeWithin n p q)
    (hfg : ∀ a, AgreeWithin n (f a) (g a)) : AgreeWithin n (p >>= f) (q >>= g) := by
  intro cursor hc hn
  have hreach := hp.reaches cursor
  have hrest := hfg (p cursor).1 _ (hc.reaches hreach) (Nat.le_trans hreach.remaining_le hn)
  rw [bind_apply, bind_apply, hrest, h cursor hc hn]

/-- To change the values of two productions in the same way does not change where they agree. -/
theorem AgreeWithin.map (k : α → β) (h : AgreeWithin n p q) : AgreeWithin n (k <$> p) (k <$> q) := by
  intro cursor hc hn
  rw [map_apply, map_apply, h cursor hc hn]

/-- Branches that are decided alike agree if their sides do. -/
theorem AgreeWithin.ite {b : Prop} [Decidable b] {p' q' : Production α} (h : AgreeWithin n p q)
    (h' : AgreeWithin n p' q') : AgreeWithin n (if b then p else p') (if b then q else q') := by
  split <;> assumption

/-- What comes after a token of a statement may be read differently on cursors with more tokens left. -/
theorem AgreeWithin.bind_after [hp : Forward p] (hs : Strict p) (hfg : ∀ a, AgreeWithin n (f a) (g a))
    (hc : cursor.Valid) (hk : cursor.kind ≠ .endOfInput) (hn : cursor.remaining ≤ n + 1) :
    (p >>= f) cursor = (p >>= g) cursor := by
  have hreach := hp.reaches cursor
  have hlt := hreach.remaining_lt hc (hs cursor (hc.not_last hk))
  exact hfg (p cursor).1 _ (hc.reaches hreach) (by omega)

/-- Loops agree if their rounds do, as they have the same limit. -/
theorem AgreeWithin.rounds {round' : Production (Round α)} [hf : Forward round]
    (h : AgreeWithin n round round') : AgreeWithin n (rounds round) (rounds round') := by
  have hwithin (limit : Nat) : ∀ done : List α,
      AgreeWithin n (roundsWithin round limit done) (roundsWithin round' limit done) := by
    induction limit with
    | zero => exact fun done => .refl _
    | succ limit ih =>
      intro done
      refine h.bind fun outcome => ?_
      rcases outcome with _ | element | _ | element
      · exact .refl _
      · exact .refl _
      · exact ih done
      · exact ih (element :: done)
  exact fun cursor hc hn => hwithin cursor.remaining [] cursor hc hn

section

variable {inner inner' : Production Stmt} [Forward inner] (h : AgreeWithin n inner inner')

include h

/-- Rounds of blocks agree if the statements inside them do. -/
theorem AgreeWithin.blockRound : AgreeWithin n (blockRound inner) (blockRound inner') := by
  refine (AgreeWithin.refl _).bind fun _ => (AgreeWithin.refl _).ite ?_
  refine (AgreeWithin.refl _).bind fun _ => (AgreeWithin.refl _).ite ?_
  exact h.bind fun _ => .refl _

/-- Blocks agree if the statements inside them do. -/
theorem AgreeWithin.blockOf : AgreeWithin n (blockOf inner) (blockOf inner') :=
  (AgreeWithin.refl _).bind fun _ => h.blockRound.rounds

/-- What is done otherwise agrees if the statements inside it do, whether it is a choice or a block. -/
theorem AgreeWithin.otherwiseOf : AgreeWithin n (otherwiseOf inner) (otherwiseOf inner') := by
  refine (AgreeWithin.refl _).bind fun _ => AgreeWithin.ite ?_ (.refl _)
  refine (AgreeWithin.refl _).bind fun _ => AgreeWithin.ite ?_ ?_
  · exact h.map _
  · exact h.blockOf.map _

section

variable (hc : cursor.Valid) (hk : cursor.kind ≠ .endOfInput) (hn : cursor.remaining ≤ n + 1)

include hc hk hn

/-- Choices agree with one token more, because their word is left behind before any statement inside. -/
theorem AgreeWithin.ifElseOf : ifElseOf inner cursor = ifElseOf inner' cursor := by
  rw [ifElseOf_eq, ifElseOf_eq]
  refine AgreeWithin.bind_after (strict_expect _) (fun _ => ?_) hc hk hn
  refine (AgreeWithin.refl _).bind fun _ => h.blockOf.bind fun _ => ?_
  exact h.otherwiseOf.bind fun _ => .refl _

/-- While loops agree with one token more, because their word is left behind before any statement inside. -/
theorem AgreeWithin.whileLoopOf : whileLoopOf inner cursor = whileLoopOf inner' cursor := by
  refine AgreeWithin.bind_after (strict_expect _) (fun _ => ?_) hc hk hn
  exact (AgreeWithin.refl _).bind fun _ => h.blockOf.bind fun _ => .refl _

/-- Counting loops agree with one token more, because their word is left behind before any statement
inside. -/
theorem AgreeWithin.forLoopOf : forLoopOf inner cursor = forLoopOf inner' cursor := by
  rw [forLoopOf_eq, forLoopOf_eq]
  refine AgreeWithin.bind_after (strict_expect _) (fun _ => ?_) hc hk hn
  refine (AgreeWithin.refl _).bind fun _ => (AgreeWithin.refl _).bind fun _ => ?_
  exact (AgreeWithin.refl _).bind fun _ => h.blockOf.bind fun _ => .refl _

/-- Blocks as statements agree with one token more, because their bracket is left behind first. -/
theorem AgreeWithin.nestedBlock : Production.blockOf inner cursor = Production.blockOf inner' cursor := by
  refine AgreeWithin.bind_after (strict_expect _) (fun _ => ?_) hc hk hn
  exact h.blockRound.rounds

end

/-- One more token is left to a statement than to the statements inside it, so these decide. -/
theorem AgreeWithin.statementOf : AgreeWithin (n + 1) (statementOf inner) (statementOf inner') := by
  intro cursor hc hn
  cases hk : cursor.kind with
  | ifWord =>
    simpa [Production.statementOf, hk] using h.ifElseOf hc (by simp [hk]) hn
  | whileWord =>
    simpa [Production.statementOf, hk] using h.whileLoopOf hc (by simp [hk]) hn
  | forWord =>
    simpa [Production.statementOf, hk] using h.forLoopOf hc (by simp [hk]) hn
  | openCurly =>
    simp [Production.statementOf, hk, h.nestedBlock hc (by simp [hk]) hn]
  | _ => simp [Production.statementOf, hk]

end

/-- More levels than tokens change nothing, so that statements are never cut off at a depth. -/
theorem statementWithin_eq {depth : Nat} (hc : cursor.Valid) (h : cursor.remaining ≤ depth) :
    statementWithin depth cursor = statement cursor := by
  have hagree (n : Nat) : ∀ d d', n ≤ d → n ≤ d' →
      AgreeWithin n (statementWithin d) (statementWithin d') := by
    induction n with
    | zero =>
      intro d d' _ _ cursor hc hn
      have := hc.inside
      unfold Cursor.remaining at hn
      omega
    | succ n ih =>
      intro d d' hd hd'
      obtain ⟨d, rfl⟩ := Nat.exists_eq_add_of_le' (Nat.le_trans (Nat.le_add_left 1 n) hd)
      obtain ⟨d', rfl⟩ := Nat.exists_eq_add_of_le' (Nat.le_trans (Nat.le_add_left 1 n) hd')
      exact (ih d d' (by omega) (by omega)).statementOf
  exact hagree cursor.remaining depth cursor.remaining h (Nat.le_refl _) cursor hc (Nat.le_refl _)

/-- A statement is read with the statements inside it read in the same way. -/
theorem statement_eq (hc : cursor.Valid) : statement cursor = statementOf statement cursor := by
  have hagree : AgreeWithin cursor.remaining (statementWithin cursor.remaining) statement :=
    fun other hother hn => statementWithin_eq hother hn
  calc statement cursor = statementWithin (cursor.remaining + 1) cursor :=
        (statementWithin_eq hc (Nat.le_succ _)).symm
    _ = statementOf (statementWithin cursor.remaining) cursor := rfl
    _ = statementOf statement cursor := hagree.statementOf cursor hc (Nat.le_succ _)

end BraceLang.Production
