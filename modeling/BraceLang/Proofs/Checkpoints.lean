import BraceLang.Proofs.Execution
import Mathlib.Logic.Relation

/-!
# Checkpoints

A cursor may be asked anything at any time, also to remember places, to go back to them and to forget them.
A `Client` asks one request after the other, may choose by the answers what to ask next, and may look ahead
with another client, which may leave more or fewer places behind than it found. Four `Move`s are all that
can happen: reading forward, remembering, going back and forgetting. Every request is met by a sequence of
them (`Request.moves_perform`), and so is every client's run (`Client.moves_run`), so what a move keeps is
kept whatever is asked:

* the tokens stay, the cursor stays inside them, and the places are `Ordered`: none is behind a newer one or
  behind the cursor. So going back never goes forward;
* the diagnostics only grow;
* everything that reads can be carried out: no operation of it looks outside the stream, and none goes back where
  no place is remembered (`Production.Executes`).

A request fails only where a place is wanted and none is remembered, and there it changes nothing
(`Request.fails_iff`). A script that never takes away a place that it did not add, and takes away all that
it added, is `Balanced`: looking ahead with it comes back to the same place and the same places
(`Balanced.perform_lookahead`). What a client asks at a cursor is a script (`Client.run_script`), so the same
holds of looking ahead with a client (`Balanced.look`).
-/

set_option autoImplicit false

namespace BraceLang.Cursor

open Production (Forward)

/-! ### Moves -/

/-- What can happen to a cursor at once: it reads forward, remembers its place, goes back to one, or forgets
one. -/
inductive Move (cursor : Cursor) : Cursor → Prop
  | forward {after : Cursor} (h : cursor.Reaches after) : Move cursor after
  | mark : Move cursor cursor.mark
  | restore {after : Cursor} (h : cursor.restore? = some after) : Move cursor after
  | discard {after : Cursor} (h : cursor.discard? = some after) : Move cursor after

/-- What can happen to a cursor in any number of moves. -/
abbrev Moves : Cursor → Cursor → Prop :=
  Relation.ReflTransGen Move

/-- Reading forward, however far, is a single move. -/
theorem Moves.of_reaches {cursor after : Cursor} (h : cursor.Reaches after) : Moves cursor after :=
  .single (.forward h)

/-- A production moves the cursor forward, so that to answer with its result is one move. -/
theorem moves_answer {α : Type} (production : Production α) [hp : Forward production]
    (wrap : α → Answer) (cursor : Cursor) : Moves cursor (answer production wrap cursor).2 :=
  .of_reaches (hp.reaches cursor)

mutual

/-- A request is met by moves, and one that cannot be met has made moves up to where it is stuck. -/
theorem Request.moves_perform (cursor : Cursor) : ∀ request : Request,
    Moves cursor (request.perform cursor).2
  | .peek | .previous | .kind | .atEnd | .position | .positionOf _ => .refl
  | .advance => moves_answer Production.advance .token cursor
  | .accept wanted => moves_answer (Production.accept wanted) .truth cursor
  | .expect wanted => moves_answer (Production.expect wanted) .token? cursor
  | .leads lead => moves_answer (Production.leads lead) .truth cursor
  | .endOfStatement => moves_answer Production.endOfStatement .truth cursor
  | .read construct => moves_answer construct.production (.read construct) cursor
  | .report cause => .of_reaches (reaches_reportAt cursor cause _)
  | .reportAt cause place => .of_reaches (reaches_reportAt cursor cause place)
  | .mark => .single .mark
  | .restore => by
    rw [Request.perform]
    split
    · rename_i after h
      exact .single (.restore h)
    · exact .refl
  | .discard => by
    rw [Request.perform]
    split
    · rename_i after h
      exact .single (.discard h)
    · exact .refl
  | .lookahead script => by
    -- remembering the place is the first move, and going back to it is the last
    have hinside : Moves cursor (Request.performAll cursor.mark script).2 :=
      .head .mark (Request.moves_performAll cursor.mark script)
    rw [Request.perform]
    split
    · rename_i fault after h
      rwa [h] at hinside
    · rename_i inside after h
      rw [h] at hinside
      split
      · rename_i back hback
        exact hinside.tail (.restore hback)
      · exact hinside

/-- A script is run by moves, those of its requests up to the first that cannot be met. -/
theorem Request.moves_performAll (cursor : Cursor) : ∀ script : List Request,
    Moves cursor (Request.performAll cursor script).2
  | [] => .refl
  | request :: script => by
    have hfirst := Request.moves_perform cursor request
    rw [Request.performAll]
    split
    · rename_i fault after h
      rwa [h] at hfirst
    · rename_i first after h
      rw [h] at hfirst
      have hrest := hfirst.trans (Request.moves_performAll after script)
      split
      · rename_i fault last hlast
        rwa [hlast] at hrest
      · rename_i rest last hlast
        rwa [hlast] at hrest

end

/-! ### Clients -/

/-- What uses a cursor. It asks for things and may choose by each answer how to go on. -/
inductive Client where
  | done (verdict : Bool)
  | ask (request : Request) (next : Answer → Client)
  /-- Looks ahead with another client and goes on by its verdict. -/
  | look (inside : Client) (next : Bool → Client)

/-- What a client makes of a cursor, up to the first request that cannot be met. -/
def Client.run : Client → Cursor → Except Fault Bool × Cursor
  | done verdict, cursor => (.ok verdict, cursor)
  | ask request next, cursor =>
    match request.perform cursor with
    | (.error fault, after) => (.error fault, after)
    | (.ok given, after) => (next given).run after
  | look inside next, cursor =>
    match inside.run cursor.mark with
    | (.error fault, after) => (.error fault, after)
    | (.ok verdict, after) =>
      match after.restore? with
      | some back => (next verdict).run back
      | none => (.error .restoreWithoutMark, after)

/-- A client moves the cursor only by what it asks for, whatever it makes of the answers. The induction is
on the client. -/
theorem Client.moves_run (client : Client) (cursor : Cursor) : Moves cursor (client.run cursor).2 := by
  induction client generalizing cursor with
  | done verdict => exact .refl
  | ask request next ih =>
    have hfirst := Request.moves_perform cursor request
    rw [run]
    split
    · rename_i h
      rwa [h] at hfirst
    · rename_i given after h
      rw [h] at hfirst
      exact hfirst.trans (ih given after)
  | look inside next hinside hnext =>
    have hfirst : Moves cursor (inside.run cursor.mark).2 := .head .mark (hinside cursor.mark)
    rw [run]
    split
    · rename_i h
      rwa [h] at hfirst
    · rename_i verdict after h
      rw [h] at hfirst
      split
      · rename_i back hback
        exact (hfirst.tail (.restore hback)).trans (hnext verdict back)
      · exact hfirst

/-- The cursor after clients have used it, one after the other, whether or not what they asked for could be
met. -/
def after (cursor : Cursor) (clients : List Client) : Cursor :=
  clients.foldl (fun cursor client => (client.run cursor).2) cursor

/-- Any number of clients, one after the other, move the cursor only by what they ask for. -/
theorem moves_after (cursor : Cursor) (clients : List Client) : Moves cursor (cursor.after clients) := by
  induction clients generalizing cursor with
  | nil => exact .refl
  | cons client clients ih => exact (client.moves_run cursor).trans (ih (client.run cursor).2)

/-! ### What moves keep -/

/-- No remembered place is behind a newer one, nor behind the cursor. -/
structure Ordered (cursor : Cursor) : Prop where
  sorted : cursor.checkpoints.Pairwise fun newer older => older ≤ newer
  le_pos : ∀ place ∈ cursor.checkpoints, place ≤ cursor.pos

/-- A cursor on a token of a given stream, with its places in order. -/
structure Sound (tokens : List Token) (cursor : Cursor) : Prop where
  tokens_eq : cursor.tokens.toList = closed tokens
  valid : cursor.Valid
  ordered : cursor.Ordered

variable {tokens : List Token} {cursor last : Cursor}

/-- Reading starts on the first token of the closed stream, with no place remembered. -/
theorem sound_ofTokens (tokens : List Token) (file : String) : Sound tokens (ofTokens tokens file) where
  tokens_eq := rfl
  valid := valid_ofTokens tokens file
  ordered := ⟨.nil, by simp [ofTokens]⟩

/-- Going back goes to a place that is not behind the cursor, and leaves the older ones. -/
theorem restore?_eq_some (h : cursor.restore? = some last) :
    ∃ place places, cursor.checkpoints = place :: places ∧
      last = { cursor with pos := place, checkpoints := places } := by
  unfold restore? at h
  split at h
  · cases h
  · rename_i place places hplaces
    exact ⟨place, places, hplaces, (Option.some.inj h).symm⟩

/-- Forgetting takes away the newest place only, and the cursor does not move. -/
theorem discard?_eq_some (h : cursor.discard? = some last) :
    ∃ place places, cursor.checkpoints = place :: places ∧
      last = { cursor with checkpoints := places } := by
  unfold discard? at h
  split at h
  · cases h
  · rename_i place places hplaces
    exact ⟨place, places, hplaces, (Option.some.inj h).symm⟩

/-- Moves keep the places in order: only the newest place is ever gone back to, and no older one is behind
it. -/
theorem Move.ordered (hmove : Move cursor last) (h : cursor.Ordered) : last.Ordered := by
  cases hmove with
  | forward hreach =>
    refine ⟨hreach.checkpoints ▸ h.sorted, fun place hplace => ?_⟩
    rw [hreach.checkpoints] at hplace
    exact Nat.le_trans (h.le_pos place hplace) hreach.pos_le
  | mark =>
    refine ⟨List.pairwise_cons.2 ⟨h.le_pos, h.sorted⟩, fun place hplace => ?_⟩
    obtain rfl | hplace := List.mem_cons.1 hplace
    · exact Nat.le_refl _
    · exact h.le_pos place hplace
  | restore hrestore =>
    obtain ⟨place, places, hplaces, rfl⟩ := restore?_eq_some hrestore
    have hsorted := h.sorted
    rw [hplaces] at hsorted
    obtain ⟨hle, hsorted⟩ := List.pairwise_cons.1 hsorted
    exact ⟨hsorted, hle⟩
  | discard hdiscard =>
    obtain ⟨place, places, hplaces, rfl⟩ := discard?_eq_some hdiscard
    have hsorted := h.sorted
    rw [hplaces] at hsorted
    refine ⟨(List.pairwise_cons.1 hsorted).2, fun older holder => h.le_pos older ?_⟩
    rw [hplaces]
    exact List.mem_cons_of_mem place holder

/-- Going back goes to a place at or before the cursor. -/
theorem Ordered.restore_le (h : cursor.Ordered) (hrestore : cursor.restore? = some last) :
    last.pos ≤ cursor.pos := by
  obtain ⟨place, places, hplaces, rfl⟩ := restore?_eq_some hrestore
  exact h.le_pos place (hplaces ▸ List.mem_cons_self)

/-- Moves stay inside the stream and never change it, and they keep the places in order. -/
theorem Move.sound (hmove : Move cursor last) (h : Sound tokens cursor) : Sound tokens last := by
  have hordered := hmove.ordered h.ordered
  cases hmove with
  | forward hreach => exact ⟨hreach.tokens ▸ h.tokens_eq, h.valid.reaches hreach, hordered⟩
  | mark => exact ⟨h.tokens_eq, ⟨h.valid.inside, h.valid.closed⟩, hordered⟩
  | restore hrestore =>
    have hle := h.ordered.restore_le hrestore
    obtain ⟨place, places, hplaces, rfl⟩ := restore?_eq_some hrestore
    exact ⟨h.tokens_eq, ⟨Nat.lt_of_le_of_lt hle h.valid.inside, h.valid.closed⟩, hordered⟩
  | discard hdiscard =>
    obtain ⟨place, places, hplaces, rfl⟩ := discard?_eq_some hdiscard
    exact ⟨h.tokens_eq, ⟨h.valid.inside, h.valid.closed⟩, hordered⟩

/-- What has been reported stays reported: a move may add to it, also one that goes back never takes from
it. -/
theorem Move.diagnostics (hmove : Move cursor last) :
    cursor.diagnostics.toList <+: last.diagnostics.toList := by
  cases hmove with
  | forward hreach => exact hreach.diagnostics
  | mark => exact List.prefix_refl _
  | restore hrestore =>
    obtain ⟨place, places, -, rfl⟩ := restore?_eq_some hrestore
    exact List.prefix_refl _
  | discard hdiscard =>
    obtain ⟨place, places, -, rfl⟩ := discard?_eq_some hdiscard
    exact List.prefix_refl _

/-- What one move keeps is kept by any number of them: the stream, a token to stand on and the order of the
places. -/
theorem Moves.sound (hmoves : Moves cursor last) (h : Sound tokens cursor) : Sound tokens last := by
  induction hmoves with
  | refl => exact h
  | tail _ hmove ih => exact hmove.sound ih

/-- What was reported before any number of moves stands in front of what is reported after them. -/
theorem Moves.diagnostics (hmoves : Moves cursor last) :
    cursor.diagnostics.toList <+: last.diagnostics.toList := by
  induction hmoves with
  | refl => exact List.prefix_refl _
  | tail _ hmove ih => exact ih.trans hmove.diagnostics

/-- The tokens that a sound cursor looks at are there. -/
theorem Sound.getElem?_eq (h : Sound tokens cursor) :
    cursor.tokens[cursor.pos]? = some cursor.current ∧
      cursor.tokens[cursor.pos - 1]? = some cursor.previous := by
  have hinside := h.valid.inside
  have hbefore : cursor.pos - 1 < cursor.tokens.size := by omega
  simp [current, previous, tokenAt, Array.getD_eq_getD_getElem?, hinside, hbefore]

/-! ### Requests that cannot be met -/

/-- A request that cannot be met, with the cursor it is stuck at: a place is wanted there and none is
remembered. A lookahead is stuck where a request of its script is, or at its end. -/
inductive Stuck : Cursor → Request → Fault → Cursor → Prop
  | restore {cursor : Cursor} (h : cursor.checkpoints = []) :
      Stuck cursor .restore .restoreWithoutMark cursor
  | discard {cursor : Cursor} (h : cursor.checkpoints = []) :
      Stuck cursor .discard .discardWithoutMark cursor
  | inside {cursor middle last : Cursor} {front rest : List Request} {request : Request}
      {answers : List Answer} {fault : Fault}
      (hfront : Request.performAll cursor.mark front = (.ok answers, middle))
      (h : Stuck middle request fault last) :
      Stuck cursor (.lookahead (front ++ request :: rest)) fault last
  | closing {cursor last : Cursor} {script : List Request} {answers : List Answer}
      (hscript : Request.performAll cursor.mark script = (.ok answers, last))
      (h : last.checkpoints = []) :
      Stuck cursor (.lookahead script) .restoreWithoutMark last

/-- A request is stuck only where no place is remembered. -/
theorem Stuck.checkpoints {request : Request} {fault : Fault} (h : Stuck cursor request fault last) :
    last.checkpoints = [] := by
  induction h with
  | restore h | discard h | closing _ h => exact h
  | inside _ _ ih => exact ih

/-- Going back fails exactly where no place is remembered. -/
theorem restore?_eq_none : cursor.restore? = none ↔ cursor.checkpoints = [] := by
  unfold restore?
  split <;> simp_all

/-- Forgetting fails exactly where no place is remembered. -/
theorem discard?_eq_none : cursor.discard? = none ↔ cursor.checkpoints = [] := by
  unfold discard?
  split <;> simp_all

/-- A script fails with the first of its requests that does. -/
theorem Request.performAll_append {front rest : List Request} {request : Request}
    {answers : List Answer} {fault : Fault} {middle : Cursor}
    (hfront : Request.performAll cursor front = (.ok answers, middle))
    (h : request.perform middle = (.error fault, last)) :
    Request.performAll cursor (front ++ request :: rest) = (.error fault, last) := by
  induction front generalizing cursor answers with
  | nil =>
    obtain ⟨-, rfl⟩ := Prod.mk.inj hfront
    simp only [List.nil_append, Request.performAll, h]
  | cons first front ih =>
    simp only [List.cons_append, Request.performAll] at hfront ⊢
    split at hfront
    · cases hfront
    · rename_i next hnext
      split at hfront
      · cases hfront
      · rename_i hrest
        obtain ⟨-, rfl⟩ := Prod.mk.inj hfront
        rw [ih hrest]

/-- A stuck request fails, with the fault and at the cursor that it is stuck with. -/
theorem Stuck.perform {request : Request} {fault : Fault} (h : Stuck cursor request fault last) :
    request.perform cursor = (.error fault, last) := by
  induction h with
  | restore h => simp only [Request.perform, restore?_eq_none.2 h]
  | discard h => simp only [Request.perform, discard?_eq_none.2 h]
  | inside hfront _ ih => simp only [Request.perform, Request.performAll_append hfront ih]
  | closing hscript h => simp only [Request.perform, hscript, restore?_eq_none.2 h]

/-- To answer with the result of a production never fails. -/
theorem answer_ne_error {α : Type} {production : Production α} {wrap : α → Answer} {fault : Fault} :
    answer production wrap cursor ≠ (.error fault, last) :=
  fun h => nomatch congrArg Prod.fst h

mutual

/-- A request that fails is stuck. The other requests never fail, by the cases of what can be asked for. -/
theorem Request.stuck_perform {fault : Fault} {cursor last : Cursor} : ∀ request : Request,
    request.perform cursor = (.error fault, last) → Stuck cursor request fault last
  | .peek, h | .previous, h | .kind, h | .atEnd, h | .position, h | .positionOf _, h | .mark, h
  | .report _, h | .reportAt _ _, h => nomatch congrArg Prod.fst h
  | .advance, h | .accept _, h | .expect _, h | .leads _, h | .endOfStatement, h | .read _, h => by
    rw [Request.perform] at h
    exact absurd h answer_ne_error
  | .restore, h => by
    rw [Request.perform] at h
    split at h
    · cases h
    · rename_i hnone
      cases h
      exact .restore (restore?_eq_none.1 hnone)
  | .discard, h => by
    rw [Request.perform] at h
    split at h
    · cases h
    · rename_i hnone
      cases h
      exact .discard (discard?_eq_none.1 hnone)
  | .lookahead script, h => by
    rw [Request.perform] at h
    split at h
    · rename_i hscript
      cases h
      obtain ⟨front, request, rest, answers, middle, rfl, hfront, hstuck⟩ :=
        Request.stuck_performAll script hscript
      exact .inside hfront hstuck
    · rename_i hscript
      split at h
      · cases h
      · rename_i hnone
        cases h
        exact .closing hscript (restore?_eq_none.1 hnone)

/-- A script that fails has a stuck request after others that are met. -/
theorem Request.stuck_performAll {fault : Fault} {cursor last : Cursor} : ∀ script : List Request,
    Request.performAll cursor script = (.error fault, last) →
      ∃ front request rest answers middle, script = front ++ request :: rest ∧
        Request.performAll cursor front = (.ok answers, middle) ∧ Stuck middle request fault last
  | [], h => nomatch congrArg Prod.fst h
  | request :: script, h => by
    rw [Request.performAll] at h
    split at h
    · rename_i hfirst
      cases h
      exact ⟨[], request, script, [], cursor, rfl, rfl, Request.stuck_perform request hfirst⟩
    · rename_i first next hfirst
      split at h
      · rename_i hrest
        cases h
        obtain ⟨front, stuck, rest, answers, middle, rfl, hfront, hstuck⟩ :=
          Request.stuck_performAll script hrest
        refine ⟨request :: front, stuck, rest, first :: answers, middle, rfl, ?_, hstuck⟩
        simp only [Request.performAll, hfirst, hfront]
      · cases h

end

/-- The requests that fail are those that are stuck, so that the want of a place is the only reason. -/
theorem Request.fails_iff {request : Request} {fault : Fault} :
    request.perform cursor = (.error fault, last) ↔ Stuck cursor request fault last :=
  ⟨request.stuck_perform, Stuck.perform⟩

/-! ### Balanced scripts -/

mutual

/-- How many places there are after a request that finds `depth`, unless it wants one more. -/
def Request.depth? (depth : Nat) : Request → Option Nat
  | .mark => some (depth + 1)
  | .restore | .discard =>
    match depth with
    | 0 => none
    | below + 1 => some below
  | .lookahead script =>
    match Request.depthAll? (depth + 1) script with
    | some (below + 1) => some below
    | _ => none
  | _ => some depth

/-- How many places there are after a script that finds `depth`, unless it ever wants one more. -/
def Request.depthAll? (depth : Nat) : List Request → Option Nat
  | [] => some depth
  | request :: script => (Request.depth? depth request).bind fun depth => Request.depthAll? depth script

end

/-- A script that takes away the places it adds and no others, at any time. -/
def Balanced (script : List Request) : Prop :=
  Request.depthAll? 0 script = some 0

instance (script : List Request) : Decidable (Balanced script) :=
  inferInstanceAs (Decidable (Request.depthAll? 0 script = some 0))

/-- A cursor with `depth` places above those of a base. -/
def Above (base : List Nat) (depth : Nat) (cursor : Cursor) : Prop :=
  ∃ top : List Nat, top.length = depth ∧ cursor.checkpoints = top ++ base

variable {base : List Nat} {depth : Nat}

/-- Remembering adds a place above the base. -/
theorem Above.mark (h : cursor.Above base depth) : cursor.mark.Above base (depth + 1) := by
  obtain ⟨top, rfl, hplaces⟩ := h
  exact ⟨cursor.pos :: top, rfl, congrArg (cursor.pos :: ·) hplaces⟩

/-- Where there is a place above the base, going back uses it up and leaves the base alone. -/
theorem Above.restore (h : cursor.Above base (depth + 1)) :
    ∃ last, cursor.restore? = some last ∧ last.Above base depth := by
  obtain ⟨top, htop, hplaces⟩ := h
  obtain ⟨place, top, rfl⟩ := List.exists_cons_of_length_eq_add_one htop
  refine ⟨{ cursor with pos := place, checkpoints := top ++ base }, ?_, top, Nat.succ.inj htop, rfl⟩
  unfold restore?
  rw [hplaces]
  rfl

/-- Where there is a place above the base, forgetting uses it up and leaves the base alone. -/
theorem Above.discard (h : cursor.Above base (depth + 1)) :
    ∃ last, cursor.discard? = some last ∧ last.Above base depth := by
  obtain ⟨top, htop, hplaces⟩ := h
  obtain ⟨place, top, rfl⟩ := List.exists_cons_of_length_eq_add_one htop
  refine ⟨{ cursor with checkpoints := top ++ base }, ?_, top, Nat.succ.inj htop, rfl⟩
  unfold discard?
  rw [hplaces]
  rfl

/-- Reading forward leaves the places as they are, those of the base and those above it. -/
theorem Above.reaches (h : cursor.Above base depth) (hreach : cursor.Reaches last) :
    last.Above base depth := by
  obtain ⟨top, htop, hplaces⟩ := h
  exact ⟨top, htop, hreach.checkpoints.trans hplaces⟩

/-- A production is met and leaves the places as they are. -/
theorem Above.answer {α : Type} (production : Production α) [hp : Forward production]
    (wrap : α → Answer) (h : cursor.Above base depth) :
    ∃ given last, Cursor.answer production wrap cursor = (.ok given, last) ∧ last.Above base depth :=
  ⟨_, _, rfl, h.reaches (hp.reaches cursor)⟩

mutual

/-- A request that never wants a place of the base is met, and leaves the base. -/
theorem Request.above_perform {base : List Nat} {depth depth' : Nat} {cursor : Cursor} :
    ∀ request : Request, cursor.Above base depth → request.depth? depth = some depth' →
      ∃ given last, request.perform cursor = (.ok given, last) ∧ last.Above base depth'
  | .peek, h, rfl | .previous, h, rfl | .kind, h, rfl | .atEnd, h, rfl | .position, h, rfl
  | .positionOf _, h, rfl => ⟨_, _, rfl, h⟩
  | .advance, h, rfl => h.answer Production.advance .token
  | .accept wanted, h, rfl => h.answer (Production.accept wanted) .truth
  | .expect wanted, h, rfl => h.answer (Production.expect wanted) .token?
  | .leads lead, h, rfl => h.answer (Production.leads lead) .truth
  | .endOfStatement, h, rfl => h.answer Production.endOfStatement .truth
  | .read construct, h, rfl => h.answer construct.production (.read construct)
  | .report cause, h, rfl => ⟨_, _, rfl, h.reaches (reaches_reportAt cursor cause _)⟩
  | .reportAt cause place, h, rfl => ⟨_, _, rfl, h.reaches (reaches_reportAt cursor cause place)⟩
  | .mark, h, rfl => ⟨_, _, rfl, h.mark⟩
  | .restore, h, hdepth => by
    obtain _ | below := depth
    · cases hdepth
    · obtain ⟨last, hlast, habove⟩ := h.restore
      cases hdepth
      exact ⟨.done, last, by simp only [Request.perform, hlast], habove⟩
  | .discard, h, hdepth => by
    obtain _ | below := depth
    · cases hdepth
    · obtain ⟨last, hlast, habove⟩ := h.discard
      cases hdepth
      exact ⟨.done, last, by simp only [Request.perform, hlast], habove⟩
  | .lookahead script, h, hdepth => by
    rw [Request.depth?] at hdepth
    split at hdepth
    · rename_i below hinside
      cases hdepth
      -- inside the script one more place is above the base, and it is the one to go back to
      obtain ⟨answers, middle, hscript, hmiddle⟩ := Request.above_performAll script h.mark hinside
      obtain ⟨last, hlast, habove⟩ := hmiddle.restore
      refine ⟨.lookahead (Answer.verdict answers) answers, last, ?_, habove⟩
      simp only [Request.perform, hscript, hlast]
    · cases hdepth

/-- A script that never wants a place of the base is met, and leaves the base. -/
theorem Request.above_performAll {base : List Nat} {depth depth' : Nat} {cursor : Cursor} :
    ∀ script : List Request, cursor.Above base depth → Request.depthAll? depth script = some depth' →
      ∃ answers last, Request.performAll cursor script = (.ok answers, last) ∧ last.Above base depth'
  | [], h, rfl => ⟨[], cursor, rfl, h⟩
  | request :: script, h, hdepth => by
    rw [Request.depthAll?, Option.bind_eq_some_iff] at hdepth
    obtain ⟨between, hfirst, hrest⟩ := hdepth
    obtain ⟨first, middle, hperform, hmiddle⟩ := Request.above_perform request h hfirst
    obtain ⟨answers, last, hscript, hlast⟩ := Request.above_performAll script hmiddle hrest
    exact ⟨first :: answers, last, by simp only [Request.performAll, hperform, hscript], hlast⟩

end

/-- A balanced script is met, and leaves the places as they are. -/
theorem Balanced.performAll {script : List Request} (h : Balanced script) (cursor : Cursor) :
    ∃ answers last, Request.performAll cursor script = (.ok answers, last) ∧
      last.checkpoints = cursor.checkpoints := by
  have hstart : cursor.Above cursor.checkpoints 0 := ⟨[], rfl, rfl⟩
  obtain ⟨answers, last, hscript, top, htop, hplaces⟩ := Request.above_performAll script hstart h
  obtain rfl := List.eq_nil_of_length_eq_zero htop
  exact ⟨answers, last, hscript, hplaces⟩

/-- Looking ahead with a balanced script comes back to the place and the places it started with; the rest of
the cursor is as the script left it. -/
theorem Balanced.perform_lookahead {script : List Request} (h : Balanced script) (cursor : Cursor) :
    ∃ answers last, Request.performAll cursor.mark script = (.ok answers, last) ∧
      Request.perform cursor (.lookahead script) =
        (.ok (.lookahead (Answer.verdict answers) answers),
          { last with pos := cursor.pos, checkpoints := cursor.checkpoints }) := by
  obtain ⟨answers, last, hscript, hplaces⟩ := h.performAll cursor.mark
  have hback := restore?_of_checkpoints hplaces
  exact ⟨answers, last, hscript, by simp only [Request.perform, hscript, hback]⟩

-- the script inside takes away a place that it did not add, but one that the script around it did
example : Balanced [.mark, .lookahead [.discard, .discard, .mark], .mark, .restore] := by decide

/-- The requests that a client makes at a cursor, in the order in which its answers lead it to make them. -/
def Client.script : Client → Cursor → List Request
  | done _, _ => []
  | ask request next, cursor =>
    request :: match request.perform cursor with
      | (.error _, _) => []
      | (.ok given, after) => (next given).script after
  | look inside next, cursor =>
    .lookahead (inside.script cursor.mark) :: match inside.run cursor.mark with
      | (.error _, _) => []
      | (.ok verdict, after) => (after.restore?.map (next verdict).script).getD []

/-- Runs of a client and of a script that are both met, or that fail in the same way, at the same cursor. -/
inductive Alike : Except Fault Bool × Cursor → Except Fault (List Answer) × Cursor → Prop
  | met {verdict : Bool} {answers : List Answer} {cursor : Cursor} :
      Alike (.ok verdict, cursor) (.ok answers, cursor)
  | failed {fault : Fault} {cursor : Cursor} : Alike (.error fault, cursor) (.error fault, cursor)

/-- A request that is met before both runs leaves them alike. -/
theorem Alike.cons {request : Request} {script : List Request} {given : Answer} {middle : Cursor}
    {run : Except Fault Bool × Cursor} (h : request.perform cursor = (.ok given, middle))
    (more : Alike run (Request.performAll middle script)) :
    Alike run (Request.performAll cursor (request :: script)) := by
  simp only [Request.performAll, h]
  generalize Request.performAll middle script = rest at more
  cases more with
  | met => exact .met
  | failed => exact .failed

/-- A request that fails ends both runs in the same way, whatever would be asked after it. -/
theorem Alike.fail {request : Request} {fault : Fault} (script : List Request)
    (h : request.perform cursor = (.error fault, last)) :
    Alike (.error fault, last) (Request.performAll cursor (request :: script)) := by
  simp only [Request.performAll, h]
  exact .failed

/-- At a given cursor, a client does as a script does. -/
theorem Client.run_script (client : Client) (cursor : Cursor) :
    Alike (client.run cursor) (Request.performAll cursor (client.script cursor)) := by
  induction client generalizing cursor with
  | done verdict => exact .met
  | ask request next ih =>
    rw [run, script]
    rcases hfirst : request.perform cursor with ⟨fault | given, middle⟩
    · exact .fail [] hfirst
    · exact (ih given middle).cons hfirst
  | look inside next hinside hnext =>
    -- what is asked inside depends on the cursor, so the script is the one that is asked at this cursor
    have hlook := hinside cursor.mark
    rw [run, script]
    generalize inside.run cursor.mark = run at hlook ⊢
    generalize hscript : Request.performAll cursor.mark (inside.script cursor.mark) = met at hlook
    cases hlook with
    | failed => exact .fail [] (by simp only [Request.perform, hscript])
    | @met verdict answers middle =>
      cases hback : middle.restore? with
      | none =>
        simp only [hback]
        exact .fail _ (by simp only [Request.perform, hscript, hback])
      | some back =>
        have hmet : Request.perform cursor (.lookahead (inside.script cursor.mark)) =
            (.ok (.lookahead (Answer.verdict answers) answers), back) := by
          simp only [Request.perform, hscript, hback]
        simp only [hback, Option.map_some, Option.getD_some]
        exact (hnext verdict back).cons hmet

/-- A client fails only where no place is remembered, since its run is that of a script. -/
theorem Client.checkpoints_of_fails {client : Client} {fault : Fault}
    (h : client.run cursor = (.error fault, last)) : last.checkpoints = [] := by
  have halike := client.run_script cursor
  generalize hscript : Request.performAll cursor (client.script cursor) = met at halike
  rw [h] at halike
  cases halike with
  | failed =>
    obtain ⟨front, request, rest, answers, middle, -, -, hstuck⟩ := Request.stuck_performAll _ hscript
    exact hstuck.checkpoints

/-- Looking ahead with a balanced client comes back to the place and the places it started with, whatever its
verdict. -/
theorem Balanced.look {client : Client} {cursor : Cursor} (h : Balanced (client.script cursor.mark)) :
    ∃ verdict last, client.run cursor.mark = (.ok verdict, last) ∧
      ∀ check : Production Bool, check cursor.mark = (verdict, last) →
        Production.lookahead check cursor =
          (verdict, { last with pos := cursor.pos, checkpoints := cursor.checkpoints }) := by
  obtain ⟨answers, last, hscript, hplaces⟩ := h.performAll cursor.mark
  have halike := client.run_script cursor.mark
  generalize hrun : client.run cursor.mark = run at halike
  rw [hscript] at halike
  cases halike with
  | @met verdict =>
    refine ⟨verdict, last, rfl, fun check hcheck => ?_⟩
    simp [Production.lookahead, hcheck, restore?_of_checkpoints hplaces]

/-! ### Whatever is asked -/

/-- What holds of a cursor on a stream at any time. -/
structure Kept (tokens : List Token) (cursor : Cursor) : Prop extends Sound tokens cursor where
  /-- The tokens looked at are there. -/
  current_eq : cursor.tokens[cursor.pos]? = some cursor.current
  previous_eq : cursor.tokens[cursor.pos - 1]? = some cursor.previous
  /-- Going back never goes forward. -/
  restore_le : ∀ last, cursor.restore? = some last → last.pos ≤ cursor.pos
  /-- What has been reported stays reported. -/
  diagnostics : ∀ client : Client,
    cursor.diagnostics.toList <+: (client.run cursor).2.diagnostics.toList
  /-- A request fails only where a place is wanted and none is remembered. -/
  fails : ∀ (request : Request) (fault : Fault) (last : Cursor),
    request.perform cursor = (.error fault, last) ↔ Stuck cursor request fault last
  bare : ∀ (client : Client) (fault : Fault) (last : Cursor),
    client.run cursor = (.error fault, last) → last.checkpoints = []
  /-- Whatever reads can be carried out: its plans find every token that they look at and every place that they go
  back to. -/
  executes : ∀ construct : Construct, Production.Executes construct.production cursor
  executes_leads : ∀ lead : Lead, Production.Executes (Production.leads lead) cursor
  executes_endOfStatement : Production.Executes Production.endOfStatement cursor
  executes_advance : Production.Executes Production.advance cursor
  executes_accept : ∀ wanted : Kind, Production.Executes (Production.accept wanted) cursor
  executes_expect : ∀ wanted : Kind, Production.Executes (Production.expect wanted) cursor
  /-- Reading leaves the places as they are. -/
  read : ∀ construct : Construct, (construct.production cursor).2.checkpoints = cursor.checkpoints
  leads : ∀ lead : Lead, (Production.leads lead cursor).2.checkpoints = cursor.checkpoints
  endOfStatement : (Production.endOfStatement cursor).2.checkpoints = cursor.checkpoints
  /-- Looking ahead with a balanced script comes back. -/
  lookahead : ∀ script : List Request, Balanced script →
    ∃ answers last, Request.performAll cursor.mark script = (.ok answers, last) ∧
      Request.perform cursor (.lookahead script) =
        (.ok (.lookahead (Answer.verdict answers) answers),
          { last with pos := cursor.pos, checkpoints := cursor.checkpoints })
  /-- So does looking ahead with a client whose requests are balanced. -/
  look : ∀ client : Client, Balanced (client.script cursor.mark) →
    ∃ verdict last, client.run cursor.mark = (.ok verdict, last) ∧
      ∀ check : Production Bool, check cursor.mark = (verdict, last) →
        Production.lookahead check cursor =
          (verdict, { last with pos := cursor.pos, checkpoints := cursor.checkpoints })

/-- Being sound is all that it takes for everything that is kept, so that `Moves.sound` gives it after any
clients. -/
theorem Sound.kept (h : Sound tokens cursor) : Kept tokens cursor where
  toSound := h
  current_eq := h.getElem?_eq.1
  previous_eq := h.getElem?_eq.2
  restore_le _ := h.ordered.restore_le
  diagnostics client := (client.moves_run cursor).diagnostics
  fails _ _ _ := Request.fails_iff
  bare _ _ _ := Client.checkpoints_of_fails
  executes construct := construct.production.executes h.valid
  executes_leads lead := (Production.leads lead).executes h.valid
  executes_endOfStatement := Production.endOfStatement.executes h.valid
  executes_advance := Production.advance.executes h.valid
  executes_accept wanted := (Production.accept wanted).executes h.valid
  executes_expect wanted := (Production.expect wanted).executes h.valid
  read construct := (Forward.reaches (p := construct.production) cursor).checkpoints
  leads lead := (Forward.reaches (p := Production.leads lead) cursor).checkpoints
  endOfStatement := (Forward.reaches (p := Production.endOfStatement) cursor).checkpoints
  lookahead _ hbalanced := hbalanced.perform_lookahead cursor
  look _ hbalanced := hbalanced.look

/-- Whatever is asked of a cursor, by any clients and also after requests that could not be met, it stays on
a token of its stream with its places in order, never takes back a report, fails only for want of a place,
never looks outside the stream while it reads, and comes back from reading and from looking ahead with the
places it had. -/
theorem kept_after (tokens : List Token) (file : String) (clients : List Client) :
    Kept tokens ((ofTokens tokens file).after clients) :=
  ((moves_after _ clients).sound (sound_ofTokens tokens file)).kept

end BraceLang.Cursor
