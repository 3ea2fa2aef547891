import BraceLang.Proofs.Unbounded

/-!
# Triples

`Triple n pre p post` says that on every valid cursor with at most `n` tokens left that satisfies `pre`,
the production `p` gives a result and a cursor that satisfy `post`. It is about every run, whatever is
reported on the way.

There is a rule for sequences, a rule with an invariant for loops, and a rule for each production that
branches, which asks for the branches with what the cursor has to see there. Statements are handled by
induction on the number of tokens left (`triple_statement`).
-/

set_option autoImplicit false

namespace BraceLang.Production

variable {α β : Type} {n : Nat} {p q : Production α} {f : α → Production β} {pre : Cursor → Prop}

/-- What holds after every run of a production that starts where `pre` holds. -/
structure Triple (n : Nat) (pre : Cursor → Prop) (p : Production α) (post : α → Cursor → Prop) :
    Prop where
  holds : ∀ cursor : Cursor, cursor.Valid → cursor.remaining ≤ n → pre cursor →
    post (p cursor).1 (p cursor).2

/-! ### Sequences and loops -/

/-- What holds between two productions links what is needed before the first to what holds after the
second. -/
theorem Triple.bind [hp : Forward p] {middle : α → Cursor → Prop} {post : β → Cursor → Prop}
    (h : Triple n pre p middle) (h' : ∀ a, Triple n (middle a) (f a) post) :
    Triple n pre (p >>= f) post := by
  constructor
  intro cursor hc hn hpre
  have hreach := hp.reaches cursor
  exact (h' _).holds _ (hc.reaches hreach) (Nat.le_trans hreach.remaining_le hn)
    (h.holds cursor hc hn hpre)

section

variable {post : α → Cursor → Prop}

/-- A production that only gives a value establishes what held before, said of that value. -/
theorem Triple.pure {a : α} (h : ∀ cursor : Cursor, pre cursor → post a cursor) :
    Triple n pre (pure a) post :=
  ⟨fun cursor _ _ hpre => h cursor hpre⟩

/-- What is to hold of a changed value has to hold of the value that it is made from. -/
theorem Triple.map {g : β → α} {p : Production β} (h : Triple n pre p fun b => post (g b)) :
    Triple n pre (g <$> p) post :=
  ⟨fun cursor hc hn hpre => h.holds cursor hc hn hpre⟩

/-- A triple may need more than it has to and establish less than it could. -/
theorem Triple.mono {pre' : Cursor → Prop} {post' : α → Cursor → Prop} (h : Triple n pre p post)
    (hpre : ∀ cursor, pre' cursor → pre cursor)
    (hpost : ∀ a cursor, post a cursor → post' a cursor) : Triple n pre' p post' :=
  ⟨fun cursor hc hn hpre' => hpost _ _ (h.holds cursor hc hn (hpre cursor hpre'))⟩

/-- What is also known of the cursor may be forgotten, such as what a branch has looked at. -/
theorem Triple.guarded {guard : Cursor → Prop} (h : Triple n pre p post) :
    Triple n (fun cursor => guard cursor ∧ pre cursor) p post :=
  h.mono (fun _ h => h.2) fun _ _ h => h

/-- What a production does on a token other than an end token, it does on a token of such a kind. -/
theorem Triple.of_kind {k : Kind} (hk : k ≠ .endOfInput)
    (h : Triple n (fun cursor => cursor.kind ≠ .endOfInput ∧ pre cursor) p post) :
    Triple n (fun cursor => cursor.kind = k ∧ pre cursor) p post :=
  h.mono (fun _ hcursor => ⟨hcursor.1 ▸ hk, hcursor.2⟩) fun _ _ h => h

/-- The part of a statement behind its first token has a token fewer left. -/
theorem Triple.bind_strict {p : Production β} {f : β → Production α} [hp : Forward p] (hs : Strict p)
    {middle : β → Cursor → Prop} (hpre : ∀ cursor, pre cursor → cursor.kind ≠ .endOfInput)
    (h : Triple (n + 1) pre p middle) (h' : ∀ b, Triple n (middle b) (f b) post) :
    Triple (n + 1) pre (p >>= f) post := by
  constructor
  intro cursor hc hn hcursor
  have hreach := hp.reaches cursor
  have hlt := hreach.remaining_lt hc (hs cursor (hc.not_last (hpre cursor hcursor)))
  exact (h' _).holds _ (hc.reaches hreach) (by omega) (h.holds cursor hc hn hcursor)

/-- What holds after a round of a loop that has gathered `done`: what the loop is to establish if the round
ends it, and the invariant otherwise. -/
def Round.After (inv post : List α → Cursor → Prop) (done : List α) :
    Round α → Cursor → Prop
  | .stop => post done
  | .last element => post (done ++ [element])
  | .next none => inv done
  | .next (some element) => inv (done ++ [element])

/-- A loop keeps what its rounds keep, whatever has been gathered so far. The invariant may speak of
that. -/
theorem Triple.rounds {round : Production (Round α)} [hf : Forward round] (hp : Progressive round)
    {inv post : List α → Cursor → Prop}
    (h : ∀ done, Triple n (inv done) round (Round.After inv post done)) :
    Triple n (inv []) (rounds round) post := by
  constructor
  intro cursor hc hn hinv
  -- what is gathered so far is generalised, so that the invariant can be passed on to the next round
  have hloop {cursor after : Cursor} {elements : List α} (hrun : Repeats round cursor elements after) :
      ∀ done, cursor.Valid → cursor.remaining ≤ n → inv done cursor → post (done ++ elements) after := by
    induction hrun with
    | stop hstop =>
      intro done hc hn hinv
      have := (h done).holds _ hc hn hinv
      rw [hstop] at this
      rwa [List.append_nil]
    | last hlast =>
      intro done hc hn hinv
      have := (h done).holds _ hc hn hinv
      rwa [hlast] at this
    | @skip cursor _ _ hskip more ih =>
      intro done hc hn hinv
      have hreach := hf.reaches cursor
      have := (h done).holds _ hc hn hinv
      rw [hskip] at this
      exact ih done (hc.reaches hreach) (Nat.le_trans hreach.remaining_le hn) this
    | @next cursor _ element _ hnext more ih =>
      intro done hc hn hinv
      have hreach := hf.reaches cursor
      have := (h done).holds _ hc hn hinv
      rw [hnext] at this
      have := ih (done ++ [element]) (hc.reaches hreach) (Nat.le_trans hreach.remaining_le hn) this
      rwa [List.append_assoc] at this
  exact hloop (repeats_rounds hp hc) [] hc hn hinv

/-- A loop keeps what every round keeps, whatever it gathers. -/
theorem triple_rounds {round : Production (Round α)} [Forward round] (hp : Progressive round)
    (h : Triple n pre round fun _ => pre) : Triple n pre (rounds round) fun _ => pre := by
  have hround (done : List α) :
      Triple n pre round (Round.After (fun _ => pre) (fun _ => pre) done) := by
    refine h.mono (fun _ h => h) fun found cursor hcursor => ?_
    rcases found with _ | element | _ | element <;> exact hcursor
  exact Triple.rounds hp hround

/-! ### Branches -/

/-- A branch has a triple if both of its sides have it. -/
theorem Triple.ite {b : Prop} [Decidable b] (hp : Triple n pre p post) (hq : Triple n pre q post) :
    Triple n pre (if b then p else q) post := by
  split <;> assumption

end

/-- Looking at the kind of the current token, or for a lead, changes nothing. -/
theorem triple_kind : Triple n pre kind fun _ => pre :=
  ⟨fun _ _ _ h => h⟩

/-- To look for a lead changes nothing, so that it keeps whatever holds. -/
theorem triple_leads (lead : Lead) : Triple n pre (leads lead) fun _ => pre := by
  constructor
  intro cursor _ _ h
  rwa [leads_state]

/-- Taking a token or not, before a production that does not care. -/
theorem triple_accept {wanted : Kind} {post : Bool → Cursor → Prop}
    (htaken : ∀ cursor : Cursor, cursor.Valid → cursor.kind = wanted → pre cursor →
      post true cursor.step)
    (hleft : ∀ cursor : Cursor, cursor.kind ≠ wanted → pre cursor → post false cursor) :
    Triple n pre (accept wanted) post := by
  constructor
  intro cursor hc _ hpre
  obtain ⟨hk, hrun⟩ | ⟨hk, hrun⟩ := accept_cases cursor wanted
  · simp only [hrun]
    exact htaken cursor hc hk hpre
  · simp only [hrun]
    exact hleft cursor hk hpre

/-- A token that is demanded is taken or reported, and what holds after either has to be shown. -/
theorem triple_expect {wanted : Kind} {post : Option Token → Cursor → Prop}
    (htaken : ∀ cursor : Cursor, cursor.Valid → cursor.kind = wanted → pre cursor →
      post (some cursor.current) cursor.step)
    (hreported : ∀ cursor : Cursor, cursor.Valid → cursor.kind ≠ wanted → pre cursor →
      post none (cursor.report (.unexpected wanted cursor.current.value)).step) :
    Triple n pre (expect wanted) post := by
  constructor
  intro cursor hc _ hpre
  obtain ⟨hk, hrun⟩ | ⟨hk, hrun⟩ := expect_cases cursor wanted
  · simp only [hrun]
    exact htaken cursor hc hk hpre
  · simp only [hrun]
    exact hreported cursor hc hk hpre

section

variable {post : Stmt → Cursor → Prop} {nested : Production Stmt}

/-- A statement that holds no others is read by one of its alternatives, each of which may use what it was
told by. -/
theorem triple_simpleStatement
    (hcall : Triple n (fun cursor => cursor.kind = .identifier ∧ pre cursor) (terminated call) post)
    (hdeclaration : Triple n (fun cursor => cursor.kind = .typeKeyword ∧ pre cursor)
      (terminated (.declaration <$> declaration)) post)
    (hassignment : Triple n (fun cursor => cursor.kind = .identifier ∧ pre cursor)
      (terminated (.assignment <$> assignment)) post)
    (hret : Triple n (fun cursor => cursor.kind = .returnWord ∧ pre cursor) (terminated ret) post)
    (hunknown : Triple n pre unknownStatement post) :
    Triple n pre simpleStatement post := by
  constructor
  intro cursor hc hn hpre
  obtain ⟨hlead, hrun⟩ | ⟨hlead, hrun⟩ | ⟨hlead, hrun⟩ | ⟨hk, hrun⟩ | ⟨-, -, -, -, hrun⟩ :=
    simpleStatement_cases cursor
  · simp only [hrun]
    exact hcall.holds cursor hc hn ⟨kind_of_leads hc hlead rfl, hpre⟩
  · simp only [hrun]
    exact hdeclaration.holds cursor hc hn ⟨kind_of_leads hc hlead rfl, hpre⟩
  · simp only [hrun]
    exact hassignment.holds cursor hc hn ⟨kind_of_leads hc hlead rfl, hpre⟩
  · simp only [hrun]
    exact hret.holds cursor hc hn ⟨hk, hpre⟩
  · simp only [hrun]
    exact hunknown.holds cursor hc hn hpre

/-- The rounds of a block close it, report that it is not closed, or read a statement where the input has
not ended. -/
theorem triple_blockRound {post : Round Stmt → Cursor → Prop}
    (hclose : ∀ cursor : Cursor, cursor.kind = .closeCurly → pre cursor → post .stop cursor.step)
    (hend : ∀ cursor : Cursor, cursor.kind = .endOfInput → pre cursor →
      post .stop (cursor.report (.unterminated .closeCurly)))
    (hmore : Triple n (fun cursor => cursor.kind ≠ .endOfInput ∧ pre cursor) nested
      fun stmt => post (.next (some stmt))) :
    Triple n pre (blockRound nested) post := by
  constructor
  intro cursor hc hn hpre
  obtain ⟨hk, hrun⟩ | ⟨hk, hrun⟩ | ⟨-, hk, hrun⟩ := blockRound_cases cursor nested
  · simp only [hrun]
    exact hclose cursor hk hpre
  · simp only [hrun]
    exact hend cursor hk hpre
  · simp only [hrun]
    exact hmore.holds cursor hc hn ⟨hk, hpre⟩

/-- The other branch of a condition. `taken` is what holds behind its word. -/
theorem triple_otherwiseOf {taken : Cursor → Prop} {post : Option Stmt → Cursor → Prop}
    (hnone : ∀ cursor : Cursor, pre cursor → post none cursor)
    (htaken : ∀ cursor : Cursor, cursor.Valid → cursor.kind = .elseWord → pre cursor → taken cursor.step)
    (hif : Triple n (fun cursor => cursor.kind ≠ .endOfInput ∧ taken cursor) nested
      fun stmt => post (some stmt))
    (hblock : Triple n taken (blockOf nested) fun body => post (some (.compound body))) :
    Triple n pre (otherwiseOf nested) post := by
  constructor
  intro cursor hc hn hpre
  have hstep : cursor.step.remaining ≤ n := Nat.le_trans (Cursor.reaches_step cursor).remaining_le hn
  obtain ⟨-, hrun⟩ | ⟨hk, hnext, hrun⟩ | ⟨hk, -, hrun⟩ := otherwiseOf_cases cursor nested
  · simp only [hrun]
    exact hnone cursor hpre
  · simp only [hrun]
    exact hif.holds cursor.step hc.step hstep ⟨by simp [hnext], htaken cursor hc hk hpre⟩
  · simp only [hrun]
    exact hblock.holds cursor.step hc.step hstep (htaken cursor hc hk hpre)

/-- What a counting loop starts with is a declaration, an assignment or nothing, each with the kind that is
seen there. -/
theorem triple_forInit {post : Option Stmt → Cursor → Prop}
    (hdeclaration : Triple n (fun cursor => cursor.kind = .typeKeyword ∧ pre cursor) declaration
      fun first => post (some (.declaration first)))
    (hassignment : Triple n (fun cursor => cursor.kind = .identifier ∧ pre cursor) assignment
      fun first => post (some (.assignment first)))
    (hnone : ∀ cursor : Cursor, pre cursor → post none cursor) :
    Triple n pre forInit post := by
  constructor
  intro cursor hc hn hpre
  obtain ⟨hlead, hrun⟩ | ⟨hlead, hrun⟩ | ⟨-, -, hrun⟩ := forInit_cases cursor
  · simp only [hrun]
    exact hdeclaration.holds cursor hc hn ⟨kind_of_leads hc hlead rfl, hpre⟩
  · simp only [hrun]
    exact hassignment.holds cursor hc hn ⟨kind_of_leads hc hlead rfl, hpre⟩
  · simp only [hrun]
    exact hnone cursor hpre

/-- A statement is one of the statements that hold others or a simple one. -/
theorem triple_statementOf
    (hif : Triple n (fun cursor => cursor.kind = .ifWord ∧ pre cursor) (ifElseOf nested) post)
    (hwhile : Triple n (fun cursor => cursor.kind = .whileWord ∧ pre cursor) (whileLoopOf nested) post)
    (hfor : Triple n (fun cursor => cursor.kind = .forWord ∧ pre cursor) (forLoopOf nested) post)
    (hblock : Triple n (fun cursor => cursor.kind = .openCurly ∧ pre cursor) (blockOf nested)
      fun body => post (.compound body))
    (hempty : ∀ cursor : Cursor, cursor.Valid → cursor.kind = .semicolon → pre cursor →
      post .empty cursor.step)
    (hdeclaration : Triple n (fun cursor => cursor.kind = .typeKeyword ∧ pre cursor)
      (terminated (.declaration <$> declaration)) post)
    (hsimple : Triple n pre simpleStatement post) :
    Triple n pre (statementOf nested) post := by
  constructor
  intro cursor hc hn hpre
  obtain ⟨hk, hrun⟩ | ⟨hk, hrun⟩ | ⟨hk, hrun⟩ | ⟨hk, hrun⟩ | ⟨hk, hrun⟩ | ⟨hlead, hrun⟩ | ⟨-, hrun⟩ :=
    statementOf_cases cursor nested
  · simp only [hrun]
    exact hif.holds cursor hc hn ⟨hk, hpre⟩
  · simp only [hrun]
    exact hwhile.holds cursor hc hn ⟨hk, hpre⟩
  · simp only [hrun]
    exact hfor.holds cursor hc hn ⟨hk, hpre⟩
  · simp only [hrun]
    exact hblock.holds cursor hc hn ⟨hk, hpre⟩
  · simp only [hrun]
    exact hempty cursor hc hk hpre
  · simp only [hrun]
    exact hdeclaration.holds cursor hc hn ⟨kind_of_leads hc hlead rfl, hpre⟩
  · simp only [hrun]
    exact hsimple.holds cursor hc hn hpre

end

/-- What holds of a statement if it holds of the statements inside, which have a token fewer left. The
index `i` stands for what is known before the statement. -/
theorem triple_statement {ι : Type} {pre : ι → Cursor → Prop} {post : ι → Stmt → Cursor → Prop}
    (h : ∀ n, (∀ i, Triple n (pre i) statement (post i)) →
      ∀ i, Triple (n + 1) (pre i) (statementOf statement) (post i)) (n : Nat) (i : ι) :
    Triple n (pre i) statement (post i) := by
  induction n generalizing i with
  | zero =>
    constructor
    intro cursor hc hn
    -- a valid cursor has a token left, so there is nothing to show
    have := hc.inside
    unfold Cursor.remaining at hn
    omega
  | succ n ih =>
    constructor
    intro cursor hc hn hpre
    simp only [statement_eq hc]
    exact (h n ih i).holds cursor hc hn hpre

/-- A round at the top level stops at the end, reads an item by what it was told by, or passes over a token
that starts none. -/
theorem triple_topLevel {post : Round Item → Cursor → Prop}
    (hend : ∀ cursor : Cursor, cursor.kind = .endOfInput → pre cursor → post .stop cursor.step)
    (hfunction : Triple n (fun cursor => cursor.kind = .typeKeyword ∧ pre cursor) function
      fun item => post (.next (some item)))
    (hdeclaration : Triple n (fun cursor => cursor.kind = .typeKeyword ∧ pre cursor)
      (declaration >>= fun declared => accept .semicolon >>= fun _ => pure declared)
      fun declared => post (.next (some (.declaration declared))))
    (hentry : Triple n (fun cursor => cursor.kind = .entryWord ∧ pre cursor) entry
      fun item => post (.next (some item)))
    (himport : Triple n (fun cursor => cursor.kind = .importWord ∧ pre cursor)
      (importFile >>= fun item => accept .semicolon >>= fun _ => pure item)
      fun item => post (.next (some item)))
    (hskip : ∀ cursor : Cursor, cursor.Valid → pre cursor →
      post (.next none) (cursor.report (.unexpectedTopLevel cursor.current.value)).step) :
    Triple n pre topLevel post := by
  constructor
  intro cursor hc hn hpre
  obtain ⟨hk, hrun⟩ | ⟨-, hlead, hrun⟩ | ⟨-, hlead, hrun⟩ | ⟨-, hlead, hrun⟩ | ⟨hk, hrun⟩ | ⟨-, hrun⟩ :=
    topLevel_cases cursor
  · simp only [hrun]
    exact hend cursor hk hpre
  · simp only [hrun]
    exact hfunction.holds cursor hc hn ⟨kind_of_leads hc hlead rfl, hpre⟩
  · have := hdeclaration.holds cursor hc hn ⟨kind_of_leads hc hlead rfl, hpre⟩
    simpa only [hrun, bind_apply, pure_apply] using this
  · simp only [hrun]
    exact hentry.holds cursor hc hn ⟨kind_of_leads hc hlead rfl, hpre⟩
  · have := himport.holds cursor hc hn ⟨hk, hpre⟩
    simpa only [hrun, bind_apply, pure_apply] using this
  · simp only [hrun]
    exact hskip cursor hc hpre

end BraceLang.Production
