import BraceLang.Proofs.Triple

/-!
# Accounts of a reading

Whatever the input, reading it is a sequence of a few sorts of `Event`s: a token is taken, or missed and
passed over; a type, an operand, an operator or a comparison is read; a token that starts no statement or no
item is passed over; a bracket is found open. Each event gives parts of the tree, if any, and moves the
cursor or reports something or both.

An `Account` is a sequence of events, with the parts that they gave and where they led to. There is one for
every run of a production, and the parts in it are those of what was read, in the order of the source
(`account_program`). So what is true of every event, however its construct is embedded, is true of every
program, malformed ones included, and needs no second look at the productions.

Two events depend on where they happen. A type in the place of another token is taken from the token behind
the cursor, so types have to be read where a token can be left behind. And an operator or a comparison is
read behind its token.
-/

set_option autoImplicit false

namespace BraceLang

/-- A smallest part of a tree. -/
inductive Part where
  /-- The name of a variable or of a function. -/
  | name (text : String)
  /-- What is imported. -/
  | path (text : String)
  /-- The type of a variable or of a function. -/
  | type (read : DataType)
  /-- A name or a literal, where a value is asked for. -/
  | operand (read : Operand)
  /-- The operator between two operands. -/
  | operator (read : MathOp)
  /-- The comparison between the two sides of a condition. -/
  | comparison (read : CompareOp)
  /-- What stands in the place of a statement. -/
  | statement (found : String)
deriving DecidableEq, Inhabited

/-- The part that a token of the given kind and value is where such a token is demanded. -/
def Part.demanded : Kind → String → List Part
  | .identifier, text => [.name text]
  | .literal, text => [.path text]
  | _, _ => []

/-! ### Parts of trees, in the order of the source -/

/-- The parts of an expression: its operands, and between two of them the operator. -/
def Expr.parts : Expr → List Part
  | operand value => [.operand value]
  | binary op left right => [.operand left, .operator op] ++ right.parts

/-- The parts of a condition: one operand, or two of them with the comparison between. -/
def Condition.parts : Condition → List Part
  | operand value => [.operand value]
  | compare op left right => [.operand left, .comparison op, .operand right]

/-- The parts of an assignment: the name that is assigned to, then those of the value. -/
def Assignment.parts (assigned : Assignment) : List Part :=
  [.name assigned.target] ++ assigned.value.parts

/-- The parts of a declaration: its type, its name, then those of the first value if there is one. -/
def Declaration.parts (declared : Declaration) : List Part :=
  [.type declared.type, .name declared.name] ++ declared.init?.elim [] Expr.parts

mutual

/-- The parts of a statement, those of the statements inside it included, in the order of the source. -/
def Stmt.parts : Stmt → List Part
  | declaration declared => declared.parts
  | assignment assigned => assigned.parts
  | ifElse test body other? => test.parts ++ Stmt.listParts body ++ Stmt.optionParts other?
  | whileLoop test body => test.parts ++ Stmt.listParts body
  | forLoop init? test? step? body =>
    Stmt.optionParts init? ++ test?.elim [] Condition.parts ++ step?.elim [] Assignment.parts
      ++ Stmt.listParts body
  | call callee args => [.name callee] ++ args.flatMap Expr.parts
  | ret value? => value?.elim [] Expr.parts
  | compound body => Stmt.listParts body
  | empty => []
  | unknown found => [.statement found]

/-- The parts of the statements of a block, one statement after the other. -/
def Stmt.listParts : List Stmt → List Part
  | [] => []
  | stmt :: body => stmt.parts ++ Stmt.listParts body

/-- The parts of a statement that may be missing. -/
def Stmt.optionParts : Option Stmt → List Part
  | none => []
  | some stmt => stmt.parts

end

/-- The parts of a top-level item. The body of a function comes after its parameters. -/
def Item.parts : Item → List Part
  | importFile path => [.path path]
  | declaration declared => declared.parts
  | function type name params body =>
    [.type type, .name name] ++ params.flatMap Declaration.parts ++ Stmt.listParts body
  | entry body => Stmt.listParts body

/-- The parts of a program, in the order of the source. -/
def Program.parts (items : Program) : List Part :=
  items.flatMap Item.parts

/-- A statement that is missing has no parts, so that the account is not changed by it. -/
theorem Stmt.optionParts_none : Stmt.optionParts none = [] := rfl

/-- An empty statement has no parts. Its semicolon is taken for nothing. -/
theorem Stmt.parts_empty : Stmt.empty.parts = [] := rfl

/-- A choice has the parts of its condition, of its body and of what is done otherwise, in this order. -/
theorem Stmt.parts_ifElse (test : Condition) (body : Block) (other? : Option Stmt) :
    (Stmt.ifElse test body other?).parts =
      test.parts ++ Stmt.listParts body ++ Stmt.optionParts other? := rfl

/-- A while loop has the parts of its condition and of its body, in this order. -/
theorem Stmt.parts_whileLoop (test : Condition) (body : Block) :
    (Stmt.whileLoop test body).parts = test.parts ++ Stmt.listParts body := rfl

/-- The three parts of a counting loop, in the order of the source. -/
def Stmt.headerParts (header : Option Stmt × Option Condition × Option Assignment) : List Part :=
  Stmt.optionParts header.1 ++ header.2.1.elim [] Condition.parts
    ++ header.2.2.elim [] Assignment.parts

/-- A counting loop has the parts of its header, which is read as a triple, and those of its body. -/
theorem Stmt.parts_forLoop (header : Option Stmt × Option Condition × Option Assignment) (body : Block) :
    (Stmt.forLoop header.1 header.2.1 header.2.2 body).parts =
      Stmt.headerParts header ++ Stmt.listParts body := rfl

/-- A call has the name of the function as its first part, and then the parts of its arguments. -/
theorem Stmt.parts_call (callee : String) (args : List Expr) :
    (Stmt.call callee args).parts = [.name callee] ++ args.flatMap Expr.parts := rfl

/-- The parts of a list of statements as a `flatMap`, which is the form that accounts of loops have. -/
theorem Stmt.listParts_eq (body : List Stmt) : Stmt.listParts body = body.flatMap Stmt.parts := by
  induction body with
  | nil => simp [listParts]
  | cons stmt body ih => simp [listParts, ih]

/-- The parts of an operator and the operand after it. -/
def Expr.linkParts (link : MathOp × Operand) : List Part :=
  [.operator link.1, .operand link.2]

/-- The parts of a chain are its operands and operators, from left to right. -/
theorem Expr.parts_chain (first : Operand) (links : List (MathOp × Operand)) :
    (Expr.chain first links).parts = [.operand first] ++ links.flatMap linkParts := by
  induction links generalizing first with
  | nil => simp [parts]
  | cons link links ih => simp [parts, linkParts, ih]

/-! ### Events -/

/-- A report comes after those before it. -/
theorem Cursor.diagnostics_reportAt (cursor : Cursor) (cause : Cause) (position : Position) :
    (cursor.reportAt cause position).diagnostics.toList =
      cursor.diagnostics.toList ++ [⟨cause, position⟩] := by
  simp [Cursor.reportAt]

/-- What can happen at once while a construct is read at a cursor: the parts that are read and the cursor
afterwards. -/
inductive Event (cursor : Cursor) : List Part → Cursor → Prop
  /-- The current token is taken. -/
  | take : Event cursor (Part.demanded cursor.kind cursor.current.value) cursor.step
  /-- Another token is demanded, and its value is empty. -/
  | miss {wanted : Kind} (hwanted : wanted ≠ .typeKeyword) (hk : cursor.kind ≠ wanted) :
      Event cursor (Part.demanded wanted "") (cursor.report (.unexpected wanted cursor.current.value)).step
  /-- A type is read, found or missed, where a token can be left behind. -/
  | type (hk : cursor.kind ≠ .endOfInput) :
      Event cursor [.type (Production.dataType cursor).1] (Production.dataType cursor).2
  /-- An operand is read, found or missed. -/
  | operand : Event cursor [.operand (Production.operand cursor).1] (Production.operand cursor).2
  /-- The operator of the token behind the cursor is read. -/
  | operator (hk : cursor.previous.kind = .mathOp) :
      Event cursor [.operator (Production.mathOperator cursor).1] (Production.mathOperator cursor).2
  /-- The comparison of the token behind the cursor is read. -/
  | comparison (hk : cursor.previous.kind = .compareOp) :
      Event cursor [.comparison (Production.comparison cursor).1] (Production.comparison cursor).2
  /-- The current token starts no statement. -/
  | statement : Event cursor [.statement cursor.current.value]
      (cursor.report (.misplaced cursor.current.value "expected a statement")).step
  /-- The current token starts no item. -/
  | stray : Event cursor [] (cursor.report (.unexpectedTopLevel cursor.current.value)).step
  /-- The input ends inside brackets. -/
  | unterminated {closer : Kind} (hk : cursor.kind = .endOfInput) :
      Event cursor [] (cursor.report (.unterminated closer))
  /-- A block starts before parameters end. -/
  | unclosed (hk : cursor.kind = .openCurly) :
      Event cursor [] (cursor.report (.unexpected .closeParen cursor.current.value))

/-- What has happened since reading started: the parts that have been read and the cursor now. -/
inductive Account (start : Cursor) : List Part → Cursor → Prop
  | start : Account start [] start
  | next {parts read : List Part} {cursor after : Cursor} (h : Account start parts cursor)
      (event : Event cursor read after) : Account start (parts ++ read) after

/-- Events only go forward. -/
theorem Event.reaches {cursor after : Cursor} {read : List Part} (event : Event cursor read after) :
    cursor.Reaches after := by
  have hskip (cause : Cause) : cursor.Reaches (cursor.report cause).step :=
    (Cursor.reaches_reportAt cursor cause _).trans (Cursor.reaches_step _)
  cases event with
  | take => exact Cursor.reaches_step cursor
  | miss | statement | stray => exact hskip _
  | type | operand | operator | comparison => exact Production.Forward.reaches cursor
  | unterminated | unclosed => exact Cursor.reaches_reportAt cursor _ _

namespace Account

variable {start cursor after : Cursor} {parts read : List Part}

/-- An account only goes forward, since each of its events does. The induction is on the account. -/
theorem reaches (h : Account start parts cursor) : start.Reaches cursor := by
  induction h with
  | start => exact .refl start
  | next _ event ih => exact ih.trans event.reaches

/-- An event that reads nothing moves the cursor or reports something, and leaves the parts as they are. -/
theorem quiet (h : Account start parts cursor) (event : Event cursor [] after) :
    Account start parts after := by
  simpa using h.next event

/-- Taking a token that is no part of a tree by itself extends an account without adding a part to it. -/
theorem take (h : Account start parts cursor) {wanted : Kind}
    (hwanted : ∀ text, Part.demanded wanted text = []) (hk : cursor.kind = wanted) :
    Account start parts cursor.step := by
  have event : Event cursor (Part.demanded cursor.kind cursor.current.value) cursor.step := .take
  rw [hk, hwanted] at event
  exact h.quiet event

end Account

namespace Production

variable {n : Nat} {start : Cursor} {parts : List Part}

/-! ### Tokens -/

/-- No token of this kind is part of a tree by itself. -/
def Plain (kind : Kind) : Prop :=
  kind ∉ [Kind.identifier, .literal, .typeKeyword]

instance (kind : Kind) : Decidable (Plain kind) :=
  inferInstanceAs (Decidable (kind ∉ _))

/-- A plain token gives no part, whatever its text is: only names and paths are demanded for their value. -/
theorem Plain.demanded {kind : Kind} (h : Plain kind) (text : String) : Part.demanded kind text = [] := by
  cases kind <;> first | rfl | exact absurd h (by decide)

/-- A plain token is no type, so that it may be missed as well as taken. -/
theorem Plain.ne_typeKeyword {kind : Kind} (h : Plain kind) : kind ≠ .typeKeyword := by
  rintro rfl
  exact absurd h (by decide)

/-- An account goes on over a plain token that is taken if it stands there, and it gains no part. -/
theorem account_accept {wanted : Kind} (hwanted : Plain wanted) :
    Triple n (Account start parts) (accept wanted) fun _ => Account start parts :=
  triple_accept (fun _ _ hk h => h.take hwanted.demanded hk) fun _ _ h => h

/-- Behind a token that has been taken, that token is the previous one. -/
theorem account_acceptBefore {wanted : Kind} (hwanted : Plain wanted) (hend : wanted ≠ .endOfInput) :
    Triple n (Account start parts) (accept wanted)
      fun found cursor => (found = true → cursor.previous.kind = wanted) ∧ Account start parts cursor := by
  refine triple_accept (fun cursor hc hk h => ⟨fun _ => ?_, h.take hwanted.demanded hk⟩)
    fun _ _ h => ⟨by simp, h⟩
  rw [hc.previous_step (hk ▸ hend)]
  exact hk

/-- An account goes on over a token that is demanded for its value, and the value is the part that it gains.
Where the token is missed, the value is empty. -/
theorem account_expectValue {wanted : Kind} (hwanted : wanted ≠ .typeKeyword) :
    Triple n (Account start parts) (expectValue wanted)
      fun text => Account start (parts ++ Part.demanded wanted text) := by
  constructor
  rintro cursor - - h
  obtain ⟨rfl, hrun⟩ | ⟨hk, hrun⟩ := expectValue_cases cursor wanted
  · simp only [hrun]
    exact h.next .take
  · simp only [hrun]
    exact h.next (.miss hwanted hk)

/-- An account goes on over a plain token that is demanded, whether it is found there or missed. -/
theorem account_expect {wanted : Kind} (hwanted : Plain wanted) :
    Triple n (Account start parts) (expect wanted) fun _ => Account start parts := by
  refine triple_expect (fun _ _ hk h => h.take hwanted.demanded hk) fun cursor _ hk h => ?_
  have event := Event.miss hwanted.ne_typeKeyword hk
  rw [hwanted.demanded] at event
  exact h.quiet event

/-! ### Types, expressions and conditions -/

/-- An account gains a type where one is read. That is not at the end of the input, since no token could be
left behind there. -/
theorem account_dataType :
    Triple n (fun cursor => cursor.kind ≠ .endOfInput ∧ Account start parts cursor) dataType
      fun type => Account start (parts ++ [.type type]) :=
  ⟨fun _ _ _ h => h.2.next (.type h.1)⟩

/-- An account gains an operand where one is read, also where the token is no operand and is reported. -/
theorem account_operand :
    Triple n (Account start parts) operand fun value => Account start (parts ++ [.operand value]) :=
  ⟨fun _ _ _ h => h.next .operand⟩

/-- An account gains an operator behind the token of one, which the operator is read from. -/
theorem account_mathOperator :
    Triple n (fun cursor => cursor.previous.kind = .mathOp ∧ Account start parts cursor) mathOperator
      fun op => Account start (parts ++ [.operator op]) :=
  ⟨fun _ _ _ h => h.2.next (.operator h.1)⟩

/-- An account gains a comparison behind the token of one, which the comparison is read from. -/
theorem account_comparison :
    Triple n (fun cursor => cursor.previous.kind = .compareOp ∧ Account start parts cursor) comparison
      fun op => Account start (parts ++ [.comparison op]) :=
  ⟨fun _ _ _ h => h.2.next (.comparison h.1)⟩

/-- The account of a loop whose elements have parts. -/
def Gathered {α : Type} (start : Cursor) (parts : List Part) (view : α → List Part) (done : List α) :
    Cursor → Prop :=
  Account start (parts ++ done.flatMap view)

section

variable {α : Type} {view : α → List Part}

/-- What one more round has read is the last of what the loop has gathered, and its parts are the last
ones. -/
theorem Gathered.snoc {done : List α} {element : α} {cursor : Cursor}
    (h : Account start (parts ++ done.flatMap view ++ view element) cursor) :
    Gathered start parts view (done ++ [element]) cursor := by
  simpa [Gathered] using h

/-- An account goes on over a loop if it goes on over each round, whatever has been gathered before it. In
the end it has the parts of all the elements. -/
theorem account_rounds {round : Production (Round α)} [Forward round] (hp : Progressive round)
    (h : ∀ done, Triple n (Gathered start parts view done) round
      (Round.After (Gathered start parts view) (Gathered start parts view) done)) :
    Triple n (Account start parts) (rounds round)
      fun elements => Account start (parts ++ elements.flatMap view) := by
  have hstart : Gathered start parts view [] = Account start parts := by
    simp [Gathered]
  rw [← hstart]
  exact Triple.rounds hp h

end

/-- A link adds an operator and an operand to what an expression has gathered. If there is no operator, the
expression is at its end. -/
theorem account_link (done : List (MathOp × Operand)) :
    Triple n (Gathered start parts Expr.linkParts done) link
      (Round.After (Gathered start parts Expr.linkParts) (Gathered start parts Expr.linkParts) done) := by
  apply Triple.bind (account_acceptBefore (by decide) (by decide))
  intro found
  split
  · rename_i hfound
    refine Triple.bind (account_mathOperator.mono (fun _ h => ⟨h.1 hfound, h.2⟩) fun _ _ h => h) ?_
    intro op
    apply Triple.bind account_operand
    intro right
    apply Triple.pure
    intro cursor h
    exact Gathered.snoc (by simpa [Expr.linkParts] using h)
  · exact .pure fun _ h => h.2

/-- An account goes on over an expression and gains its operands and operators from left to right. -/
theorem account_expr :
    Triple n (Account start parts) expr fun value => Account start (parts ++ value.parts) := by
  apply Triple.bind account_operand
  intro first
  apply Triple.bind (account_rounds progressive_link account_link)
  intro links
  apply Triple.pure
  intro cursor h
  rwa [Expr.parts_chain, ← List.append_assoc]

/-- Behind the first operand of a condition, the account gains a comparison and a second operand, or
nothing. -/
theorem account_conditionFrom (left : Operand) :
    Triple n (Account start (parts ++ [.operand left])) (conditionFrom left)
      fun read => Account start (parts ++ read.parts) := by
  apply Triple.bind (account_acceptBefore (by decide) (by decide))
  intro found
  split
  · rename_i hfound
    refine Triple.bind (account_comparison.mono (fun _ h => ⟨h.1 hfound, h.2⟩) fun _ _ h => h) ?_
    intro op
    apply Triple.bind account_operand
    intro right
    apply Triple.pure
    intro cursor h
    simpa [Condition.parts] using h
  · exact .pure fun _ h => h.2

/-- A closing parenthesis that was opened is demanded, and it gives no part. -/
theorem account_closeParenIf (opened : Bool) :
    Triple n (Account start parts) (closeParenIf opened) fun _ => Account start parts := by
  refine .ite ?_ (.pure fun _ h => h)
  apply Triple.bind (account_expect (by decide))
  intro _
  exact .pure fun _ h => h

/-- An account goes on over a condition. The parentheses around it, found or missed, give no part. -/
theorem account_condition :
    Triple n (Account start parts) condition fun read => Account start (parts ++ read.parts) := by
  apply Triple.bind (account_accept (by decide))
  intro opened
  apply Triple.bind account_operand
  intro left
  apply Triple.bind (account_conditionFrom left)
  intro read
  apply Triple.bind (account_closeParenIf opened)
  intro _
  exact .pure fun _ h => h

/-- At the end of the input, a bracket that is still open is reported, and the account gains no part. -/
theorem account_unterminated (closer : Kind) :
    Triple n (fun cursor => cursor.kind = .endOfInput ∧ Account start parts cursor)
      (report (.unterminated closer)) fun _ => Account start parts :=
  ⟨fun _ _ _ h => h.2.quiet (.unterminated h.1)⟩

/-- To ask whether the input ends changes nothing, and if it does the cursor stands on an end token. -/
theorem account_atEnd :
    Triple n (Account start parts) atEnd
      fun ended cursor => (ended = true → cursor.kind = .endOfInput) ∧ Account start parts cursor :=
  ⟨fun _ _ _ h => ⟨of_decide_eq_true, h⟩⟩

/-- An argument adds its parts to those of the arguments before it. A round may also close the list or find
the input at its end. -/
theorem account_argument (done : List Expr) :
    Triple n (Gathered start parts Expr.parts done) argument
      (Round.After (Gathered start parts Expr.parts) (Gathered start parts Expr.parts) done) := by
  apply Triple.bind (account_accept (by decide))
  intro found
  refine .ite (.pure fun _ h => h) ?_
  apply Triple.bind account_atEnd
  intro ended
  split
  · rename_i hended
    refine Triple.bind ((account_unterminated _).mono (fun _ h => ⟨h.1 hended, h.2⟩) fun _ _ h => h) ?_
    intro _
    exact .pure fun _ h => h
  · apply Triple.bind (Triple.guarded account_expr)
    intro value
    apply Triple.bind (account_accept (by decide))
    intro more
    apply Triple.ite
    · exact .pure fun _ h => Gathered.snoc h
    · apply Triple.bind (account_expect (by decide))
      intro _
      exact .pure fun _ h => Gathered.snoc h

/-- An account goes on over the arguments of a call and gains the parts of all of them, in their order. -/
theorem account_arguments :
    Triple n (Account start parts) arguments
      fun args => Account start (parts ++ args.flatMap Expr.parts) :=
  Triple.bind (account_expect (by decide)) fun _ => account_rounds progressive_argument account_argument

/-! ### Simple statements -/

/-- An account goes on over an assignment and gains the name, then the operands and operators of the
value. -/
theorem account_assignment :
    Triple n (Account start parts) assignment fun read => Account start (parts ++ read.parts) := by
  apply Triple.bind (account_expectValue (by decide))
  intro target
  apply Triple.bind (account_expect (by decide))
  intro _
  apply Triple.bind account_expr
  intro value
  apply Triple.pure
  intro cursor h
  rwa [Assignment.parts, ← List.append_assoc]

/-- The type comes first, so a declaration needs a token that can be left behind as well. -/
theorem account_declaration :
    Triple n (fun cursor => cursor.kind ≠ .endOfInput ∧ Account start parts cursor) declaration
      fun read => Account start (parts ++ read.parts) := by
  apply Triple.bind account_dataType
  intro type
  apply Triple.bind (account_expect (by decide))
  intro _
  apply Triple.bind (triple_leads _)
  intro assigned
  apply Triple.ite
  · apply Triple.bind account_assignment
    intro first
    apply Triple.pure
    intro cursor h
    simpa [Declaration.parts, Assignment.parts] using h
  · apply Triple.bind (account_expectValue (by decide))
    intro name
    apply Triple.pure
    intro cursor h
    simpa [Declaration.parts, Part.demanded] using h

/-- An account goes on over a call and gains the name of the function, then the parts of the arguments. -/
theorem account_call :
    Triple n (Account start parts) call fun stmt => Account start (parts ++ stmt.parts) := by
  apply Triple.bind (account_expectValue (by decide))
  intro callee
  apply Triple.bind account_arguments
  intro args
  apply Triple.pure
  intro cursor h
  rwa [Stmt.parts_call, ← List.append_assoc]

/-- An account goes on over the value of a return, and it gains nothing where the value is left out. -/
theorem account_returnValue :
    Triple n (Account start parts) returnValue
      fun value? => Account start (parts ++ value?.elim [] Expr.parts) := by
  apply Triple.bind triple_kind
  intro found
  refine .ite (.pure fun cursor h => ?_) (.map account_expr)
  simpa using h

/-- An account goes on over a return statement and gains the parts of its value, if it has one. -/
theorem account_ret :
    Triple n (Account start parts) ret fun stmt => Account start (parts ++ stmt.parts) := by
  rw [ret_eq]
  apply Triple.bind (account_expect (by decide))
  intro _
  apply Triple.bind account_returnValue
  intro value?
  exact .pure fun _ h => h

/-- Where no statement starts, the token is reported and left behind. Its text is the one part that the
account gains. -/
theorem account_unknownStatement :
    Triple n (Account start parts) unknownStatement fun stmt => Account start (parts ++ stmt.parts) := by
  constructor
  rintro cursor - - h
  simp only [unknownStatement_apply]
  exact h.next .statement

/-- A semicolon behind a statement gives no part, so that the account is that of the statement before it. -/
theorem account_terminated {pre : Cursor → Prop} {body : Production Stmt} [Forward body]
    (h : Triple n pre body fun stmt => Account start (parts ++ stmt.parts)) :
    Triple n pre (terminated body) fun stmt => Account start (parts ++ stmt.parts) :=
  h.bind fun _ => Triple.bind (account_accept (by decide)) fun _ => .pure fun _ h => h

/-- An account goes on over a declaration as a statement, for a cursor that sees its type. -/
theorem account_declarationStatement :
    Triple n (fun cursor => cursor.kind = .typeKeyword ∧ Account start parts cursor)
      (terminated (.declaration <$> declaration)) fun stmt => Account start (parts ++ stmt.parts) := by
  refine account_terminated (.map ?_)
  exact Triple.of_kind (by decide) account_declaration

/-- An account goes on over an assignment as a statement, with or without a semicolon behind it. -/
theorem account_assignmentStatement :
    Triple n (Account start parts) (terminated (.assignment <$> assignment))
      fun stmt => Account start (parts ++ stmt.parts) := by
  refine account_terminated (.map ?_)
  exact account_assignment

/-- An account goes on over a statement that holds no others, whichever of the alternatives is taken. -/
theorem account_simpleStatement :
    Triple n (Account start parts) simpleStatement fun stmt => Account start (parts ++ stmt.parts) := by
  refine triple_simpleStatement ?_ account_declarationStatement ?_ ?_ account_unknownStatement
  · exact Triple.guarded (account_terminated account_call)
  · exact Triple.guarded account_assignmentStatement
  · exact Triple.guarded (account_terminated account_ret)

/-! ### Statements that hold others -/

/-- An account goes on over the first part of the header of a counting loop, and it gains nothing where that
is left out. -/
theorem account_forInit :
    Triple n (Account start parts) forInit
      fun init? => Account start (parts ++ Stmt.optionParts init?) := by
  refine triple_forInit ?_ ?_ fun cursor h => ?_
  · exact Triple.of_kind (by decide) account_declaration
  · exact Triple.guarded account_assignment
  · rwa [Stmt.optionParts_none, List.append_nil]

/-- An account goes on over the condition of a counting loop, and it gains nothing where a semicolon stands
instead. -/
theorem account_forCondition :
    Triple n (Account start parts) forCondition
      fun condition? => Account start (parts ++ condition?.elim [] Condition.parts) := by
  apply Triple.bind triple_kind
  intro found
  refine .ite (.pure fun cursor h => ?_) ?_
  · simpa using h
  · apply Triple.bind account_condition
    intro test
    exact .pure fun _ h => h

/-- An account goes on over the last part of the header of a counting loop, if there is an assignment. -/
theorem account_forStep :
    Triple n (Account start parts) forStep
      fun step? => Account start (parts ++ step?.elim [] Assignment.parts) := by
  apply Triple.bind (triple_leads _)
  intro found
  refine .ite ?_ (.pure fun cursor h => ?_)
  · apply Triple.bind account_assignment
    intro step
    exact .pure fun _ h => h
  · simpa using h

/-- An account goes on over the header of a counting loop. The two semicolons between its parts give no
part. -/
theorem account_forHeader :
    Triple n (Account start parts) forHeader
      fun header => Account start (parts ++ Stmt.headerParts header) := by
  apply Triple.bind account_forInit
  intro init?
  apply Triple.bind (account_expect (by decide))
  intro _
  apply Triple.bind account_forCondition
  intro condition?
  apply Triple.bind (account_expect (by decide))
  intro _
  apply Triple.bind account_forStep
  intro step?
  apply Triple.pure
  intro cursor h
  simpa [Stmt.headerParts] using h

section

variable {nested : Production Stmt} [Forward nested] (hstrict : Strict nested)
  (hnested : ∀ parts, Triple n (Account start parts) nested
    fun stmt => Account start (parts ++ stmt.parts))

include hstrict hnested

/-- An account goes on over the statements up to a closing brace, if it does so over each of them. -/
theorem account_inside :
    Triple n (Account start parts) (rounds (blockRound nested))
      fun body => Account start (parts ++ Stmt.listParts body) := by
  have hround (done : List Stmt) :
      Triple n (Gathered start parts Stmt.parts done) (blockRound nested)
        (Round.After (Gathered start parts Stmt.parts) (Gathered start parts Stmt.parts) done) := by
    refine triple_blockRound (fun cursor hk h => h.take (fun _ => rfl) hk)
      (fun cursor hk h => h.quiet (.unterminated hk)) ?_
    exact (hnested _).guarded.mono (fun _ h => h) fun stmt cursor h => Gathered.snoc h
  simpa only [Stmt.listParts_eq] using account_rounds (progressive_blockRound hstrict) hround

/-- An account goes on over a block and gains the parts of its statements. The braces give no part. -/
theorem account_blockOf :
    Triple n (Account start parts) (blockOf nested)
      fun body => Account start (parts ++ Stmt.listParts body) :=
  Triple.bind (account_expect (by decide)) fun _ => account_inside hstrict hnested

/-- An account goes on over what is done otherwise: another choice, a block, or nothing at all. -/
theorem account_otherwiseOf :
    Triple n (Account start parts) (otherwiseOf nested)
      fun other? => Account start (parts ++ Stmt.optionParts other?) := by
  refine triple_otherwiseOf (fun cursor h => ?_) (fun cursor _ hk h => h.take (fun _ => rfl) hk) ?_ ?_
  · rwa [Stmt.optionParts_none, List.append_nil]
  · exact (hnested parts).guarded
  · exact account_blockOf hstrict hnested

/-- An account goes on over a choice. The word in front is left behind, so that the statements inside have
less ahead of them. -/
theorem account_ifElseOf :
    Triple (n + 1) (fun cursor => cursor.kind = .ifWord ∧ Account start parts cursor) (ifElseOf nested)
      fun stmt => Account start (parts ++ stmt.parts) := by
  rw [ifElseOf_eq]
  refine Triple.bind_strict (strict_expect _) (fun cursor h => by simp [h.1])
    (Triple.guarded (account_expect (by decide))) fun _ => ?_
  apply Triple.bind account_condition
  intro test
  apply Triple.bind (account_blockOf hstrict hnested)
  intro body
  apply Triple.bind (account_otherwiseOf hstrict hnested)
  intro other?
  apply Triple.pure
  intro cursor h
  rw [Stmt.parts_ifElse]
  simpa using h

/-- An account goes on over a while loop, whose word in front leaves less ahead of the statements inside. -/
theorem account_whileLoopOf :
    Triple (n + 1) (fun cursor => cursor.kind = .whileWord ∧ Account start parts cursor)
      (whileLoopOf nested) fun stmt => Account start (parts ++ stmt.parts) := by
  refine Triple.bind_strict (strict_expect _) (fun cursor h => by simp [h.1])
    (Triple.guarded (account_expect (by decide))) fun _ => ?_
  apply Triple.bind account_condition
  intro test
  apply Triple.bind (account_blockOf hstrict hnested)
  intro body
  refine .pure fun cursor h => ?_
  rwa [Stmt.parts_whileLoop, ← List.append_assoc]

/-- An account goes on over a counting loop, with its header in parentheses or without them. -/
theorem account_forLoopOf :
    Triple (n + 1) (fun cursor => cursor.kind = .forWord ∧ Account start parts cursor) (forLoopOf nested)
      fun stmt => Account start (parts ++ stmt.parts) := by
  rw [forLoopOf_eq]
  refine Triple.bind_strict (strict_expect _) (fun cursor h => by simp [h.1])
    (Triple.guarded (account_expect (by decide))) fun _ => ?_
  apply Triple.bind (account_accept (by decide))
  intro opened
  apply Triple.bind account_forHeader
  intro header
  apply Triple.bind (account_closeParenIf opened)
  intro _
  apply Triple.bind (account_blockOf hstrict hnested)
  intro body
  refine .pure fun cursor h => ?_
  rwa [Stmt.parts_forLoop, ← List.append_assoc]

/-- An account goes on over a statement, if it goes on over the statements inside it for cursors with less
ahead. -/
theorem account_statementOf :
    Triple (n + 1) (Account start parts) (statementOf nested)
      fun stmt => Account start (parts ++ stmt.parts) := by
  refine triple_statementOf (account_ifElseOf hstrict hnested) (account_whileLoopOf hstrict hnested)
    (account_forLoopOf hstrict hnested) ?_ (fun cursor _ hk h => ?_) account_declarationStatement
    account_simpleStatement
  · refine Triple.bind_strict (strict_expect _) (fun cursor h => by simp [h.1])
      (Triple.guarded (account_expect (by decide))) fun _ => ?_
    exact account_inside hstrict hnested
  · rw [Stmt.parts_empty, List.append_nil]
    exact h.take (fun _ => rfl) hk

end

/-- An account goes on over every statement, however deep it is nested. The induction is on what is left of
the stream. -/
theorem account_statement (n : Nat) (parts : List Part) :
    Triple n (Account start parts) statement fun stmt => Account start (parts ++ stmt.parts) :=
  triple_statement (fun _ hnested _ => account_statementOf strict_statement hnested) n parts

/-! ### Items and programs -/

/-- An account goes on over a block of statements at any depth, as the body of a function or of the entry
point. -/
theorem account_block :
    Triple n (Account start parts) block fun body => Account start (parts ++ Stmt.listParts body) :=
  account_blockOf strict_statement (account_statement n)

/-- An account goes on over a parameter. None is read at the end of the input, where no token could be left
behind for a type. -/
theorem account_parameter (done : List Declaration) :
    Triple n (Gathered start parts Declaration.parts done) parameter
      (Round.After (Gathered start parts Declaration.parts)
        (Gathered start parts Declaration.parts) done) := by
  constructor
  intro cursor hc hn h
  obtain ⟨hk, hrun⟩ | ⟨hk, hrun⟩ | ⟨hk, hrun⟩ | ⟨hmore, hrun⟩ := parameter_cases cursor
  · simp only [hrun]
    exact h.take (fun _ => rfl) hk
  · simp only [hrun]
    exact h.quiet (.unterminated hk)
  · simp only [hrun]
    exact h.quiet (.unclosed hk)
  · have hread : Triple n
        (fun cursor => cursor.kind ≠ .endOfInput ∧ Gathered start parts Declaration.parts done cursor)
        (declaration >>= fun read => accept .comma >>= fun _ => pure read)
        fun read => Gathered start parts Declaration.parts (done ++ [read]) :=
      Triple.bind account_declaration fun read => Triple.bind (account_accept (by decide)) fun _ =>
        .pure fun cursor h => Gathered.snoc h
    have hend : cursor.kind ≠ .endOfInput := by
      intro hend
      simp [hend] at hmore
    have := hread.holds cursor hc hn ⟨hend, h⟩
    simp only [bind_apply, pure_apply] at this
    simp only [hrun]
    exact this

/-- An account goes on over the parameters of a function and gains the type and the name of each of them. -/
theorem account_parameters :
    Triple n (Account start parts) parameters
      fun params => Account start (parts ++ params.flatMap Declaration.parts) :=
  Triple.bind (account_expect (by decide)) fun _ =>
    account_rounds progressive_parameter account_parameter

/-- An account goes on over a function: its type, its name, its parameters and its body, in this order. -/
theorem account_function :
    Triple n (fun cursor => cursor.kind ≠ .endOfInput ∧ Account start parts cursor) function
      fun item => Account start (parts ++ item.parts) := by
  apply Triple.bind account_dataType
  intro type
  apply Triple.bind (account_expectValue (by decide))
  intro name
  apply Triple.bind account_parameters
  intro params
  apply Triple.bind account_block
  intro body
  apply Triple.pure
  intro cursor h
  simpa [Item.parts, Part.demanded] using h

/-- An account goes on over an import and gains what is imported. -/
theorem account_importFile :
    Triple n (Account start parts) importFile fun item => Account start (parts ++ item.parts) := by
  apply Triple.bind (account_expect (by decide))
  intro _
  apply Triple.bind (account_expectValue (by decide))
  intro path
  exact .pure fun _ h => h

/-- An account goes on over the entry point. Its word gives no part, so that the parts are those of its
body. -/
theorem account_entry :
    Triple n (Account start parts) entry fun item => Account start (parts ++ item.parts) :=
  Triple.bind (account_expect (by decide)) fun _ =>
    Triple.bind account_block fun _ => .pure fun _ h => h

/-- One round at the top level adds the parts of an item to those before it, or reports a token that starts
none. -/
theorem account_topLevel (done : List Item) :
    Triple n (Gathered start parts Item.parts done) topLevel
      (Round.After (Gathered start parts Item.parts) (Gathered start parts Item.parts) done) := by
  refine triple_topLevel (fun cursor hk h => h.take (fun _ => rfl) hk) ?_ ?_ ?_ ?_ fun cursor _ h => ?_
  · refine (Triple.of_kind (by decide) account_function).mono (fun _ h => h) fun item cursor h => ?_
    exact Gathered.snoc h
  · apply Triple.bind (Triple.of_kind (by decide) account_declaration)
    intro declared
    apply Triple.bind (account_accept (by decide))
    intro _
    exact .pure fun cursor h => Gathered.snoc h
  · refine Triple.mono (Triple.guarded account_entry) (fun _ h => h) fun item cursor h => ?_
    exact Gathered.snoc h
  · apply Triple.bind (Triple.guarded account_importFile)
    intro item
    apply Triple.bind (account_accept (by decide))
    intro _
    exact .pure fun cursor h => Gathered.snoc h
  · exact h.quiet .stray

/-- There is an account of every reading of a program, and the parts in it are those of the program. -/
theorem account_program {cursor : Cursor} (hc : cursor.Valid) :
    Account cursor (Program.parts (program cursor).1) (program cursor).2 := by
  have hprogram : Triple cursor.remaining (Account cursor []) program
      fun items => Account cursor ([] ++ items.flatMap Item.parts) :=
    account_rounds progressive_topLevel account_topLevel
  exact hprogram.holds cursor hc (Nat.le_refl _) .start

/-- Whether a cursor has come from an end token. -/
def Ended (cursor : Cursor) : Prop :=
  ∃ ending : Cursor, ending.Valid ∧ ending.kind = .endOfInput ∧ ending.Reaches cursor

/-- Reading a program does not stop before an end token: wherever it is afterwards, it has come from one. -/
theorem ended_program {cursor : Cursor} (hc : cursor.Valid) : Ended (program cursor).2 := by
  have hround (done : List Item) : Triple cursor.remaining (fun _ => True) topLevel
      (Round.After (fun _ _ => True) (fun _ => Ended) done) := by
    constructor
    intro cursor hc _ _
    obtain ⟨hk, hrun⟩ | ⟨-, -, hrun⟩ | ⟨-, -, hrun⟩ | ⟨-, -, hrun⟩ | ⟨-, hrun⟩ | ⟨-, hrun⟩ :=
      topLevel_cases cursor
    · simp only [hrun]
      exact ⟨cursor, hc, hk, Cursor.reaches_step cursor⟩
    all_goals
      simp only [hrun]
      trivial
  exact (Triple.rounds progressive_topLevel hround).holds cursor hc (Nat.le_refl _) trivial

end Production

end BraceLang
