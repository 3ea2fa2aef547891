import BraceLang.Proofs.Checkpoints
import BraceLang.Proofs.Unbounded

/-!
# The order of alternatives

An item and a simple statement are chosen among alternatives, each of which is told by a sign: a lead, or the kind of
its first token. The signs are tried in a fixed order, and the first that is there decides.

Looking for a sign compares its kinds with those of the tokens ahead and leaves the cursor as it is (`Sign.check_eq`).
No sign of an item begins another sign of an item, and the same holds of simple statements, so on no cursor are two
signs there at once. Then their order does not matter (`firstOf_perm`): with the alternatives in any order, items,
statements and whole programs are read as they are in the order of the grammar (`order_immaterial`).
-/

set_option autoImplicit false

namespace BraceLang

/-- The kinds of the tokens from the current one on. -/
def Cursor.kindsAhead (cursor : Cursor) : List Kind :=
  cursor.ahead.map Word.kind

/-- The kinds by which an alternative is told: those of a lead, or that of a single token. -/
inductive Sign where
  | lead (lead : Lead)
  /-- The kind of one token, other than an end token. -/
  | token (kind : Kind) (h : kind ≠ .endOfInput)

/-- The kinds of the tokens that have to be ahead. -/
def Sign.kinds : Sign → List Kind
  | lead construct => construct.kinds
  | token kind _ => [kind]

namespace Production

variable {α : Type} {cursor : Cursor}

/-! ### Signs -/

/-- Whether a sign is there. Looking for it leaves the cursor where it is. -/
def check : Sign → Production Bool
  | .lead lead => leads lead
  | .token wanted _ => do return (← kind) = wanted

/-- Looking for a sign compares it with what is ahead, and changes nothing. -/
theorem check_eq (sign : Sign) (cursor : Cursor) :
    check sign cursor = (sign.kinds.isPrefixOf cursor.kindsAhead, cursor) := by
  cases sign with
  | lead lead => exact leads_eq lead cursor
  | token wanted hwanted =>
    refine Prod.ext ?_ rfl
    show decide (cursor.kind = wanted) = [wanted].isPrefixOf (cursor.ahead.map Word.kind)
    rw [Cursor.kind_eq_firstKind]
    cases cursor.ahead with
    | nil => simp [hwanted.symm]
    | cons word words =>
      rw [Word.firstKind_cons, List.map_cons, List.isPrefixOf_cons_cons, List.isPrefixOf_nil_left, Bool.and_true]
      rw [Bool.eq_iff_iff, decide_eq_true_iff, beq_iff_eq, eq_comm]

/-- A sign is there exactly when the kinds ahead begin with its kinds. -/
theorem check_iff (sign : Sign) (cursor : Cursor) :
    (check sign cursor).1 = true ↔ sign.kinds <+: cursor.kindsAhead := by
  rw [check_eq, List.isPrefixOf_iff_prefix]

/-- Of two signs that are there, one begins the other. -/
theorem begins_of_check {sign other : Sign} (h : (check sign cursor).1 = true) (h' : (check other cursor).1 = true) :
    sign.kinds <+: other.kinds ∨ other.kinds <+: sign.kinds :=
  List.prefix_or_prefix_of_prefix ((check_iff sign cursor).1 h) ((check_iff other cursor).1 h')

/-! ### The first alternative whose sign is there -/

section

variable {Form : Type} {sign : Form → Sign} {read : Form → Production α} {otherwise : Production α}

/-- Reads the first of several forms whose sign is there. -/
def firstOf (sign : Form → Sign) (read : Form → Production α) (otherwise : Production α) :
    List Form → Production α
  | [] => otherwise
  | form :: forms => do
    if ← check (sign form) then read form else firstOf sign read otherwise forms

/-- The first form is read if its sign is there, and passed over from the same cursor if not. -/
theorem firstOf_cons_apply (form : Form) (forms : List Form) (cursor : Cursor) :
    firstOf sign read otherwise (form :: forms) cursor =
      if (check (sign form) cursor).1 = true then read form cursor
      else firstOf sign read otherwise forms cursor := by
  rw [firstOf, bind_apply, check_eq]
  split <;> rfl

/-- Forms none of whose signs begins another may be tried in any order. -/
theorem firstOf_perm (hsign : ∀ form other, (sign form).kinds <+: (sign other).kinds → form = other)
    {forms order : List Form} (h : order.Perm forms) :
    firstOf sign read otherwise order = firstOf sign read otherwise forms := by
  induction h with
  | nil => rfl
  | cons form h ih =>
    funext cursor
    rw [firstOf_cons_apply, firstOf_cons_apply, ih]
  | swap form other forms =>
    funext cursor
    simp only [firstOf_cons_apply]
    by_cases hform : (check (sign form) cursor).1 = true
    · by_cases hother : (check (sign other) cursor).1 = true
      · -- both signs are found only if one begins the other, and then the two forms are one
        obtain rfl : form = other :=
          (begins_of_check hform hother).elim (hsign form other) fun hbegins => (hsign other form hbegins).symm
        rfl
      · rw [if_pos hform, if_neg hother, if_pos hform]
    · rw [if_neg hform, if_neg hform]
  | trans h h' ih ih' => exact ih.trans ih'

end

/-! ### Simple statements in any order -/

/-- The forms of simple statements, each with a sign of its own. -/
inductive SimpleForm where
  | call
  | declaration
  | assignment
  | ret
deriving DecidableEq

namespace SimpleForm

/-- The forms in the order of the grammar, which is the order in which their signs are looked for. -/
def all : List SimpleForm :=
  [call, declaration, assignment, ret]

/-- The sign of a form of simple statements. A return is told by its word alone. -/
def sign : SimpleForm → Sign
  | call => .lead .call
  | declaration => .lead .declaration
  | assignment => .lead .assignment
  | ret => .token .returnWord (by decide)

/-- How a statement of the form is read. A semicolon behind it is taken if there is one. -/
def read : SimpleForm → Production Stmt
  | call => terminated Production.call
  | declaration => terminated (.declaration <$> Production.declaration)
  | assignment => terminated (.assignment <$> Production.assignment)
  | ret => terminated Production.ret

/-- The kinds of no sign begin those of another, so that at most one form of simple statements is ever
told. -/
theorem eq_of_begins (form other : SimpleForm) (h : form.sign.kinds <+: other.sign.kinds) : form = other := by
  revert h
  cases form <;> cases other <;> decide

end SimpleForm

/-- A simple statement, with its forms tried in the given order. -/
def simpleStatementBy (order : List SimpleForm) : Production Stmt :=
  firstOf SimpleForm.sign SimpleForm.read unknownStatement order

/-- A statement, with the forms of simple statements tried in the given order. -/
def statementOfBy (order : List SimpleForm) (nested : Production Stmt) : Production Stmt := do
  match ← kind with
  | .ifWord => ifElseOf nested
  | .whileWord => whileLoopOf nested
  | .forWord => forLoopOf nested
  | .openCurly => .compound <$> blockOf nested
  | .semicolon =>
    let _ ← advance
    return .empty
  | _ =>
    if ← leads .declaration then terminated (.declaration <$> declaration)
    else simpleStatementBy order

/-- A statement of at most `depth` levels, in each of which the forms are tried in the given order. -/
def statementWithinBy (order : List SimpleForm) : (depth : Nat) → Production Stmt
  | 0 => pure .empty
  | depth + 1 => statementOfBy order (statementWithinBy order depth)

/-- A statement, with the forms of simple statements tried in the given order in all the statements inside it. -/
def statementBy (order : List SimpleForm) : Production Stmt := fun cursor =>
  statementWithinBy order cursor.remaining cursor

/-- In the order of the grammar, the forms give the production of simple statements itself. -/
theorem simpleStatementBy_all : simpleStatementBy SimpleForm.all = simpleStatement := by
  funext cursor
  simp [simpleStatementBy, SimpleForm.all, firstOf, SimpleForm.sign, SimpleForm.read, check, simpleStatement]

section

variable {order : List SimpleForm} (horder : order.Perm SimpleForm.all)

include horder

/-- In any other order of the forms, simple statements are read the same. -/
theorem simpleStatementBy_eq : simpleStatementBy order = simpleStatement := by
  rw [← simpleStatementBy_all]
  exact firstOf_perm SimpleForm.eq_of_begins horder

/-- In any order of the forms of simple statements, statements are read the same, also inside of each
other. -/
theorem statementBy_eq : statementBy order = statement := by
  have hwithin (depth : Nat) : statementWithinBy order depth = statementWithin depth := by
    induction depth with
    | zero => rfl
    | succ depth ih => rw [statementWithinBy, ih, statementOfBy, simpleStatementBy_eq horder]; rfl
  funext cursor
  rw [statementBy, hwithin, statement]

end

/-! ### Items in any order -/

/-- The forms of items, each with a sign of its own. -/
inductive ItemForm where
  | function
  | declaration
  | entry
  | importFile
deriving DecidableEq

/-- A function whose statements `nested` reads, in the body that follows its parameters. -/
def functionOf (nested : Production Stmt) : Production Item := do
  let type ← dataType
  let name ← expectValue .identifier
  let params ← parameters
  let body ← blockOf nested
  return .function type name params body

/-- The block that a run starts with, whose statements `nested` reads. -/
def entryOf (nested : Production Stmt) : Production Item := do
  let _ ← expect .entryWord
  let body ← blockOf nested
  return .entry body

namespace ItemForm

/-- The forms of items in the order of the grammar, which is the order in which their signs are looked
for. -/
def all : List ItemForm :=
  [function, declaration, entry, importFile]

/-- The sign of a form of items. An import is told by its word alone. -/
def sign : ItemForm → Sign
  | function => .lead .function
  | declaration => .lead .declaration
  | entry => .lead .entry
  | importFile => .token .importWord (by decide)

/-- How a round at the top level reads an item of the form, with the statements inside it read by
`nested`. -/
def read (nested : Production Stmt) : ItemForm → Production (Round Item)
  | function => (fun read => .next (some read)) <$> functionOf nested
  | declaration => do
    let read ← Production.declaration
    let _ ← endOfStatement
    return .next (some (.declaration read))
  | entry => (fun read => .next (some read)) <$> entryOf nested
  | importFile => do
    let read ← Production.importFile
    let _ ← endOfStatement
    return .next (some read)

/-- The kinds of no sign begin those of another, so that at most one form of items is ever told. -/
theorem eq_of_begins (form other : ItemForm) (h : form.sign.kinds <+: other.sign.kinds) : form = other := by
  revert h
  cases form <;> cases other <;> decide

end ItemForm

/-- A token that starts no item. It is reported and left behind. -/
def unknownItem : Production (Round Item) := do
  let found ← peek
  report (.unexpectedTopLevel found.value)
  let _ ← advance
  return .next none

/-- An item whose statements `nested` reads, with its forms tried in the given order, or the end of the program. -/
def topLevelBy (order : List ItemForm) (nested : Production Stmt) : Production (Round Item) := do
  if ← accept .endOfInput then return .stop
  else firstOf ItemForm.sign (ItemForm.read nested) unknownItem order

/-- A program, with the forms of items and of simple statements tried in the given orders. -/
def programBy (items : List ItemForm) (statements : List SimpleForm) : Production Program :=
  rounds (topLevelBy items (statementBy statements))

/-- In the order of the grammar, the forms give a round at the top level itself. -/
theorem topLevelBy_all : topLevelBy ItemForm.all statement = topLevel := by
  funext cursor
  have hfunction : functionOf statement = function := rfl
  have hentry : entryOf statement = entry := rfl
  simp [topLevelBy, ItemForm.all, firstOf, ItemForm.sign, ItemForm.read, check, topLevel, unknownItem, hfunction,
    hentry]

/-- In any order of the forms of items and of simple statements, programs are read the same. -/
theorem programBy_eq {items : List ItemForm} {statements : List SimpleForm} (hitems : items.Perm ItemForm.all)
    (hstatements : statements.Perm SimpleForm.all) : programBy items statements = program := by
  have htop : topLevelBy items statement = topLevel := by
    rw [← topLevelBy_all, topLevelBy, topLevelBy, firstOf_perm ItemForm.eq_of_begins hitems]
  rw [programBy, statementBy_eq hstatements, htop, program]

/-! ### Statements that are simple -/

/-- Where no compound or empty statement starts, the statement is a simple one. -/
theorem statement_eq_simpleStatement (hc : cursor.Valid)
    (hk : cursor.kind ∉ [.ifWord, .whileWord, .forWord, .openCurly, .semicolon]) :
    statement cursor = simpleStatement cursor := by
  simp only [List.mem_cons, List.not_mem_nil, or_false, not_or] at hk
  obtain ⟨hif, hwhile, hfor, hopen, hsemicolon⟩ := hk
  rw [statement_eq hc]
  obtain ⟨h, -⟩ | ⟨h, -⟩ | ⟨h, -⟩ | ⟨h, -⟩ | ⟨h, -⟩ | ⟨hdeclaration, hrun⟩ | ⟨-, hrun⟩ :=
    statementOf_cases cursor statement
  · exact absurd h hif
  · exact absurd h hwhile
  · exact absurd h hfor
  · exact absurd h hopen
  · exact absurd h hsemicolon
  -- a simple statement is looked at for a declaration too, though for a call first
  · have hfirst := simpleStatementBy_eq (.swap SimpleForm.call .declaration [.assignment, .ret])
    rw [hrun, ← hfirst, simpleStatementBy, firstOf_cons_apply, if_pos]
    · rfl
    · exact hdeclaration
  · exact hrun

/-! ### What looking ahead tells -/

/-- What looking for leads does and tells on a cursor. -/
structure LeadsExact (cursor : Cursor) : Prop where
  /-- The cursor is left as it is, with its place, the places remembered and what is reported. -/
  unchanged : ∀ lead, (leads lead cursor).2 = cursor
  declaration : (leads .declaration cursor).1 = true ↔ [.typeKeyword, .confirm, .identifier] <+: cursor.kindsAhead
  function : (leads .function cursor).1 = true ↔ [.typeKeyword, .identifier] <+: cursor.kindsAhead
  assignment : (leads .assignment cursor).1 = true ↔ [.identifier, .assignment] <+: cursor.kindsAhead
  call : (leads .call cursor).1 = true ↔ [.identifier, .openParen] <+: cursor.kindsAhead
  entry : (leads .entry cursor).1 = true ↔ [.entryWord] <+: cursor.kindsAhead
  /-- Two leads are never there at once. -/
  unique : ∀ lead other, (leads lead cursor).1 = true → (leads other cursor).1 = true → lead = other
  /-- Where a statement or an import is told by its first token, no lead is there. -/
  absent : cursor.kind ∈ [.importWord, .returnWord, .ifWord, .whileWord, .forWord, .openCurly, .semicolon] →
    ∀ lead, (leads lead cursor).1 = false

/-- At every cursor a lead is there exactly if its kinds are ahead, and to look for it changes nothing. -/
theorem leadsExact (cursor : Cursor) : LeadsExact cursor where
  unchanged lead := leads_state lead cursor
  declaration := check_iff (.lead .declaration) cursor
  function := check_iff (.lead .function) cursor
  assignment := check_iff (.lead .assignment) cursor
  call := check_iff (.lead .call) cursor
  entry := check_iff (.lead .entry) cursor
  unique lead other h h' := by
    have hbegins : lead.kinds <+: other.kinds ∨ other.kinds <+: lead.kinds :=
      @begins_of_check cursor (.lead lead) (.lead other) h h'
    revert hbegins
    cases lead <;> cases other <;> decide
  absent hk lead := by
    rw [Bool.eq_false_iff]
    intro h
    have hahead := (check_iff (.lead lead) cursor).1 h
    rw [Cursor.kind_eq_firstKind] at hk
    unfold Cursor.kindsAhead at hahead
    cases hwords : cursor.ahead with
    | nil => simp [hwords] at hk
    | cons word words =>
      rw [hwords, Word.firstKind_cons] at hk
      rw [hwords, List.map_cons] at hahead
      -- a lead starts with one of three kinds, none of which is among the given ones
      have hfirst : word.kind ∈ [Kind.typeKeyword, .identifier, .entryWord] := by
        cases lead <;> rw [← (List.cons_prefix_cons.1 hahead).1] <;> decide
      revert hk hfirst
      cases word.kind <;> decide

/-- Looking for leads is exact on every cursor and changes nothing. The order in which the alternatives are tried is
immaterial: in any order of both, simple statements, statements and programs are read as they are, with the same tree
from the same cursor, which is left the same in all its parts. A statement that does not start with a token of a
compound or empty one is read as a simple one. This is of every cursor that stands on a token of a closed stream, and
whatever clients have asked of a cursor, it is such a cursor. -/
theorem order_immaterial :
    (∀ cursor : Cursor, LeadsExact cursor) ∧
    (∀ (items : List ItemForm) (statements : List SimpleForm), items.Perm ItemForm.all →
      statements.Perm SimpleForm.all →
      simpleStatementBy statements = simpleStatement ∧ statementBy statements = statement ∧
      programBy items statements = program ∧
      ∀ (tokens : List Token) (file : String),
        ((programBy items statements (.ofTokens tokens file)).1,
          (programBy items statements (.ofTokens tokens file)).2.diagnostics.toList) = parse tokens file) ∧
    (∀ cursor : Cursor, cursor.Valid →
      cursor.kind ∉ [.ifWord, .whileWord, .forWord, .openCurly, .semicolon] →
      statement cursor = simpleStatement cursor) ∧
    ∀ (tokens : List Token) (file : String) (clients : List Cursor.Client),
      ((Cursor.ofTokens tokens file).after clients).Valid := by
  refine ⟨leadsExact, fun items statements hitems hstatements => ?_, fun cursor => statement_eq_simpleStatement, ?_⟩
  · refine ⟨simpleStatementBy_eq hstatements, statementBy_eq hstatements, programBy_eq hitems hstatements, ?_⟩
    intro tokens file
    rw [programBy_eq hitems hstatements]
    rfl
  · intro tokens file clients
    exact ((Cursor.moves_after _ clients).sound (Cursor.sound_ofTokens tokens file)).valid

/-- The orders of the grammar backwards, for a block with one assignment, and the cursor in front of the assignment. -/
theorem order_immaterial_sample :
    let items : List ItemForm := [.importFile, .entry, .declaration, .function]
    let statements : List SimpleForm := [.ret, .assignment, .declaration, .call]
    let tokens : List Token :=
      [.synthetic .entryWord "entry", .synthetic .openCurly "\x7b", .synthetic .identifier "a",
       .synthetic .assignment "=", .synthetic .literal "1", .synthetic .closeCurly "\x7d"]
    let inside : Cursor := { Cursor.ofTokens tokens "f" with pos := 2 }
    items.Perm ItemForm.all ∧ statements.Perm SimpleForm.all ∧
      (programBy items statements (.ofTokens tokens "f")).1 =
        [.entry [.assignment ⟨"a", .operand (.literal "1")⟩]] ∧
      inside.Valid ∧ inside.kind ∉ [.ifWord, .whileWord, .forWord, .openCurly, .semicolon] ∧
      statement inside = simpleStatement inside ∧
      (statement inside).1 = .assignment ⟨"a", .operand (.literal "1")⟩ := by
  intro items statements tokens inside
  have hitems : items.Perm ItemForm.all := by decide
  have hstatements : statements.Perm SimpleForm.all := by decide
  have hvalid : inside.Valid := ⟨by decide, (Cursor.valid_ofTokens tokens "f").closed⟩
  have hkind : inside.kind ∉ [.ifWord, .whileWord, .forWord, .openCurly, .semicolon] := by decide
  obtain ⟨-, horder, hsimple, -⟩ := order_immaterial
  obtain ⟨-, -, hprogram, -⟩ := horder items statements hitems hstatements
  have hread : (program (.ofTokens tokens "f")).1 = [.entry [.assignment ⟨"a", .operand (.literal "1")⟩]] := by
    subst tokens
    rfl
  have hassignment : (statement inside).1 = .assignment ⟨"a", .operand (.literal "1")⟩ := by
    subst inside tokens
    rfl
  refine ⟨hitems, hstatements, ?_, hvalid, hkind, hsimple inside hvalid hkind, hassignment⟩
  rw [hprogram, hread]

end Production

end BraceLang
