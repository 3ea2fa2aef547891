import BraceLang.Proofs.Account

/-!
# Faults in the tree and in the diagnostics

Where something cannot be read, the tree gets a part that says so, a missing operand, an unknown operator,
comparison or type, or an unknown statement, and a diagnostic is reported. The two belong together: the
marked parts of the tree, in the order of the source, are the diagnostics of those sorts, in the order of
the reports and with the same texts (`markers_parse`).

`Logged` is the invariant. If the marked diagnostics so far are `markers`, then after an event they are
`markers` and then the marked ones of the parts that the event read (`Event.logged`). No event may drop,
repeat or reorder a part or a report for that.
-/

set_option autoImplicit false

namespace BraceLang

/-- A part of a tree that could not be read, with the text in its place. -/
inductive Marker where
  | operand (found : String)
  | statement (found : String)
  | operator (symbol : String)
  | comparison (symbol : String)
  | type (text : String)
deriving DecidableEq, Inhabited

/-! ### Marked parts of trees, in the order of the source -/

/-- An operand is marked if there was none, with the text of the token in its place. -/
def Operand.markers : Operand → List Marker
  | missing found => [.operand found]
  | identifier _ | literal _ => []

/-- An operator is marked if its symbol has no meaning. -/
def MathOp.markers : MathOp → List Marker
  | unknown symbol => [.operator symbol]
  | add | sub | mul | div => []

/-- A comparison is marked if its symbol has no meaning. -/
def CompareOp.markers : CompareOp → List Marker
  | unknown symbol => [.comparison symbol]
  | equals => []

/-- A type is marked if it is unknown, and so is one that was missing. -/
def DataType.markers : DataType → List Marker
  | unknown text => [.type text]
  | int | char | bool | byte => []

/-- The marked parts of an expression, from left to right. -/
def Expr.markers : Expr → List Marker
  | operand value => value.markers
  | binary op left right => left.markers ++ op.markers ++ right.markers

/-- The marked parts of a condition, from left to right. -/
def Condition.markers : Condition → List Marker
  | operand value => value.markers
  | compare op left right => left.markers ++ op.markers ++ right.markers

/-- The marked parts of an assignment are those of its value. -/
def Assignment.markers (assigned : Assignment) : List Marker :=
  assigned.value.markers

/-- The marked parts of a declaration: its type, then those of the first value if there is one. -/
def Declaration.markers (declared : Declaration) : List Marker :=
  declared.type.markers ++ declared.init?.elim [] Expr.markers

mutual

/-- The marked parts of a statement, those of the statements inside it included. An unknown statement is
marked itself. -/
def Stmt.markers : Stmt → List Marker
  | declaration declared => declared.markers
  | assignment assigned => assigned.markers
  | ifElse test body other? => test.markers ++ Stmt.listMarkers body ++ Stmt.optionMarkers other?
  | whileLoop test body => test.markers ++ Stmt.listMarkers body
  | forLoop init? test? step? body =>
    Stmt.optionMarkers init? ++ test?.elim [] Condition.markers ++ step?.elim [] Assignment.markers
      ++ Stmt.listMarkers body
  | call _ args => args.flatMap Expr.markers
  | ret value? => value?.elim [] Expr.markers
  | compound body => Stmt.listMarkers body
  | empty => []
  | unknown found => [.statement found]

/-- The marked parts of the statements of a block, one statement after the other. -/
def Stmt.listMarkers : List Stmt → List Marker
  | [] => []
  | stmt :: body => stmt.markers ++ Stmt.listMarkers body

/-- The marked parts of a statement that may be missing. -/
def Stmt.optionMarkers : Option Stmt → List Marker
  | none => []
  | some stmt => stmt.markers

end

/-- The marked parts of a top-level item. An import has none. -/
def Item.markers : Item → List Marker
  | importFile _ => []
  | declaration declared => declared.markers
  | function type _ params body =>
    type.markers ++ params.flatMap Declaration.markers ++ Stmt.listMarkers body
  | entry body => Stmt.listMarkers body

/-- The marked parts of a program, in the order of the source. -/
def Program.markers (items : Program) : List Marker :=
  items.flatMap Item.markers

/-! ### Marked parts -/

/-- The marker of a part, if it is a marked one. -/
def Part.markers : Part → List Marker
  | name _ | path _ => []
  | type read => read.markers
  | operand read => read.markers
  | operator read => read.markers
  | comparison read => read.markers
  | statement found => [.statement found]

/-- A token that is demanded for its value leaves no marker, whether it is there or missed. -/
theorem Part.markers_demanded (kind : Kind) (text : String) :
    (Part.demanded kind text).flatMap Part.markers = [] := by
  cases kind <;> rfl

/-- If each element has the markers of its parts, so has a list of them. This is used for every list in a
tree. -/
theorem Part.markers_flatMap {α : Type} {markers : α → List Marker} {parts : α → List Part}
    (h : ∀ element, markers element = (parts element).flatMap Part.markers) (elements : List α) :
    elements.flatMap markers = (elements.flatMap parts).flatMap Part.markers := by
  rw [List.flatMap_assoc, funext h]

/-- The marked parts of an expression are found among its parts, in the same order. -/
theorem Expr.markers_eq (value : Expr) : value.markers = value.parts.flatMap Part.markers := by
  induction value with
  | operand value => simp [markers, parts, Part.markers]
  | binary op left right ih => simp [markers, parts, Part.markers, ih]

/-- The marked parts of a condition are found among its parts, in the same order. -/
theorem Condition.markers_eq (test : Condition) : test.markers = test.parts.flatMap Part.markers := by
  cases test <;> simp [markers, parts, Part.markers]

/-- The marked parts of an assignment are found among its parts: the name in front has no marker. -/
theorem Assignment.markers_eq (assigned : Assignment) :
    assigned.markers = assigned.parts.flatMap Part.markers := by
  simp [markers, parts, Part.markers, Expr.markers_eq]

/-- The marked parts of a declaration are found among its parts, in the same order. -/
theorem Declaration.markers_eq (declared : Declaration) :
    declared.markers = declared.parts.flatMap Part.markers := by
  cases h : declared.init? <;> simp [markers, parts, Part.markers, h, Expr.markers_eq]

mutual

/-- The marked parts of a statement are found among its parts, in the same order. The induction is on the
statement. -/
theorem Stmt.markers_eq : ∀ stmt : Stmt, stmt.markers = stmt.parts.flatMap Part.markers
  | declaration declared => declared.markers_eq
  | assignment assigned => assigned.markers_eq
  | ifElse test body other? => by
    simp [markers, parts, test.markers_eq, Stmt.listMarkers_eq body, Stmt.optionMarkers_eq other?]
  | whileLoop test body => by
    simp [markers, parts, test.markers_eq, Stmt.listMarkers_eq body]
  | forLoop init? test? step? body => by
    cases test? <;> cases step? <;>
      simp [markers, parts, Stmt.optionMarkers_eq init?, Stmt.listMarkers_eq body,
        Condition.markers_eq, Assignment.markers_eq]
  | call callee args => by
    simp [markers, parts, Part.markers, Part.markers_flatMap Expr.markers_eq]
  | ret value? => by
    cases value? <;> simp [markers, parts, Expr.markers_eq]
  | compound body => Stmt.listMarkers_eq body
  | empty => rfl
  | unknown found => rfl

/-- The marked parts of a block are found among the parts of its statements, in the same order. -/
theorem Stmt.listMarkers_eq : ∀ body : List Stmt,
    Stmt.listMarkers body = (Stmt.listParts body).flatMap Part.markers
  | [] => rfl
  | stmt :: body => by
    simp [listMarkers, listParts, stmt.markers_eq, Stmt.listMarkers_eq body]

/-- A statement that is missing has neither parts nor markers, and any other has the markers of its
parts. -/
theorem Stmt.optionMarkers_eq : ∀ stmt? : Option Stmt,
    Stmt.optionMarkers stmt? = (Stmt.optionParts stmt?).flatMap Part.markers
  | none => rfl
  | some stmt => stmt.markers_eq

end

/-- The marked parts of an item are found among its parts, in the same order. -/
theorem Item.markers_eq (item : Item) : item.markers = item.parts.flatMap Part.markers := by
  cases item with
  | importFile path => rfl
  | declaration declared => exact declared.markers_eq
  | function type name params body =>
    simp [markers, parts, Part.markers, Part.markers_flatMap Declaration.markers_eq, Stmt.listMarkers_eq]
  | entry body => exact Stmt.listMarkers_eq body

/-- The markers of a program are those of its parts, so that what events say of parts holds of them. -/
theorem Program.markers_eq (items : Program) :
    Program.markers items = (Program.parts items).flatMap Part.markers :=
  Part.markers_flatMap Item.markers_eq items

/-! ### Marked diagnostics -/

/-- The marked part that a complaint is about. A token in the place of a statement or an operand, an
operator, comparison or type without a meaning, and a token in the place of a type. -/
def Cause.marker? : Cause → Option Marker
  | misplaced token reason =>
    if reason = "expected a statement" then some (.statement token) else some (.operand token)
  | unknownOperator symbol => some (.operator symbol)
  | unknownComparison symbol => some (.comparison symbol)
  | unknownType text => some (.type text)
  | unexpected .typeKeyword token => some (.type token)
  | unexpected _ _ | unrecognised _ | unexpectedTopLevel _ | unterminated _ => none

/-- The marked parts that diagnostics are about. -/
def Diagnostic.markers (diagnostics : List Diagnostic) : List Marker :=
  diagnostics.filterMap fun diagnostic => diagnostic.cause.marker?

/-- The marked diagnostics so far. -/
def Cursor.Logged (markers : List Marker) (cursor : Cursor) : Prop :=
  Diagnostic.markers cursor.diagnostics.toList = markers

namespace Cursor

variable {cursor : Cursor} {markers : List Marker}

/-- A step reports nothing, so that what is logged stays the same. -/
theorem Logged.step (h : cursor.Logged markers) : cursor.step.Logged markers := by
  rwa [Logged, diagnostics_step]

/-- A report adds its marker to what is logged, behind all the others, or nothing if it has none. -/
theorem Logged.reportAt (h : cursor.Logged markers) (cause : Cause) (position : Position) :
    (cursor.reportAt cause position).Logged (markers ++ cause.marker?.toList) := by
  rw [Logged, diagnostics_reportAt, Diagnostic.markers, List.filterMap_append]
  have hone : [(⟨cause, position⟩ : Diagnostic)].filterMap (fun diagnostic => diagnostic.cause.marker?) =
      cause.marker?.toList := by
    cases hmarker : cause.marker? <;> simp [hmarker]
  rw [hone, ← h]
  rfl

/-- A complaint that is about no marked part leaves what is logged as it is. -/
theorem Logged.report_unmarked (h : cursor.Logged markers) {cause : Cause}
    (hnone : cause.marker? = none) : (cursor.report cause).Logged markers := by
  have := h.reportAt cause (cursor.positionOf cursor.current)
  rwa [hnone, Option.toList_none, List.append_nil] at this

end Cursor

/-! ### Events -/

section

variable {cursor after : Cursor} {read : List Part} {markers : List Marker}

/-- The text of a missing type is taken from behind the cursor, where the current token is only because it
is not the last. -/
theorem logged_dataType (hc : cursor.Valid) (hk : cursor.kind ≠ .endOfInput) (h : cursor.Logged markers) :
    (Production.dataType cursor).2.Logged (markers ++ (Production.dataType cursor).1.markers) := by
  obtain ⟨-, hrun⟩ | ⟨text, -, -, hrun⟩ | ⟨-, hknown, hrun⟩ := Production.dataType_cases cursor
  · have hprevious : (cursor.report (.unexpected .typeKeyword cursor.current.value)).step.previous =
        cursor.current :=
      (hc.reaches (Cursor.reaches_reportAt cursor _ _)).previous_step hk
    simp only [hrun, hprevious]
    exact (h.reportAt (.unexpected .typeKeyword cursor.current.value) _).step
  · simp only [hrun]
    exact h.step.reportAt _ _
  · simp only [hrun]
    cases htype : DataType.ofKeyword cursor.current.value with
    | unknown text =>
      rw [htype] at hknown
      cases hknown
    | int | char | bool | byte => simpa [DataType.markers] using h.step

/-- An operand logs its marker: a missing one is reported with the same text that it is given. -/
theorem logged_operand (h : cursor.Logged markers) :
    (Production.operand cursor).2.Logged (markers ++ (Production.operand cursor).1.markers) := by
  obtain ⟨-, hrun⟩ | ⟨-, hrun⟩ | ⟨-, -, hrun⟩ := Production.operand_cases cursor
  · simpa [hrun, Operand.markers] using h.step
  · simpa [hrun, Operand.markers] using h.step
  · simp only [hrun]
    exact h.reportAt (.misplaced cursor.current.value "expected identifier or literal") _

/-- An operator logs its marker: it is reported exactly if its symbol has no meaning. -/
theorem logged_mathOperator (h : cursor.Logged markers) :
    (Production.mathOperator cursor).2.Logged (markers ++ (Production.mathOperator cursor).1.markers) := by
  obtain ⟨symbol, -, hrun⟩ | ⟨hknown, hrun⟩ := Production.mathOperator_cases cursor
  · simp only [hrun]
    exact h.reportAt (.unknownOperator symbol) _
  · simp only [hrun]
    cases hop : MathOp.ofSymbol cursor.previous.value with
    | unknown symbol => exact absurd hop (hknown symbol)
    | add | sub | mul | div => simpa [MathOp.markers] using h

/-- A comparison logs its marker: it is reported exactly if its symbol has no meaning. -/
theorem logged_comparison (h : cursor.Logged markers) :
    (Production.comparison cursor).2.Logged (markers ++ (Production.comparison cursor).1.markers) := by
  obtain ⟨symbol, -, hrun⟩ | ⟨-, hrun⟩ := Production.comparison_cases cursor
  · simp only [hrun]
    exact h.reportAt (.unknownComparison symbol) _
  · simpa [hrun, CompareOp.markers] using h

/-- An event logs the markers of what it reads, no more and no fewer. -/
theorem Event.logged (event : Event cursor read after) (hc : cursor.Valid) (h : cursor.Logged markers) :
    after.Logged (markers ++ read.flatMap Part.markers) := by
  cases event with
  | take => simpa [Part.markers_demanded] using h.step
  -- a missing token is a marked part only where a type is wanted
  | @miss wanted hwanted =>
    have hnone : (Cause.unexpected wanted cursor.current.value).marker? = none := by
      cases wanted <;> first | rfl | exact absurd rfl hwanted
    simpa [Part.markers_demanded] using (h.report_unmarked hnone).step
  | type hk => simpa [Part.markers] using logged_dataType hc hk h
  | operand => simpa [Part.markers] using logged_operand h
  | operator => simpa [Part.markers] using logged_mathOperator h
  | comparison => simpa [Part.markers] using logged_comparison h
  | statement => exact (h.reportAt (.misplaced cursor.current.value "expected a statement") _).step
  | stray => simpa using (h.report_unmarked rfl).step
  | unterminated => simpa using h.report_unmarked rfl
  | unclosed => simpa using h.report_unmarked rfl

/-- A whole account logs the markers of its parts, in their order. The induction is on the account. -/
theorem Account.logged {start : Cursor} {parts : List Part} (account : Account start parts cursor)
    (hc : start.Valid) (h : start.Logged markers) :
    cursor.Logged (markers ++ parts.flatMap Part.markers) := by
  induction account with
  | start => simpa using h
  | next account event ih => simpa using event.logged (hc.reaches account.reaches) ih

end

namespace Production

open Cursor (Logged)

/-- Reading a program logs its marked parts behind those that were logged before. -/
theorem logged_program {n : Nat} {markers : List Marker} :
    Triple n (Logged markers) program fun items => Logged (markers ++ Program.markers items) := by
  constructor
  intro cursor hc _ h
  rw [Program.markers_eq]
  exact (account_program hc).logged hc h

end Production

/-- The marked parts of what is read, in the order of the source, are the diagnostics of those sorts, in
the order of the reports. -/
theorem markers_parse (tokens : List Token) (file : String) :
    Program.markers (parse tokens file).1 = Diagnostic.markers (parse tokens file).2 := by
  have hstart : (Cursor.ofTokens tokens file).Logged [] := rfl
  have hend := Production.logged_program.holds _ (Cursor.valid_ofTokens tokens file) (Nat.le_refl _) hstart
  exact hend.symm

end BraceLang
