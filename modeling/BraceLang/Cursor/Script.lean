import BraceLang.Grammar.Item

/-!
# Scripts

A script is a list of requests to a cursor, of every sort there is: looking, moving, remembering and going
back, reporting, and reading a construct. Running one gives an answer for each request. The one way to fail
is to go back to, or forget, a place when none is remembered.
-/

set_option autoImplicit false

namespace BraceLang.Cursor

/-- The constructs that can be read, each of which may be asked for at any place of a stream. -/
inductive Construct where
  | dataType
  | operand
  | expr
  | condition
  | arguments
  | parameters
  | declaration
  | assignment
  | block
  | statement
  | simpleStatement
  | ifElse
  | whileLoop
  | forLoop
  | ret
  | call
  | importFile
  | function
  | entry
  | program
deriving DecidableEq, Inhabited

namespace Construct

/-- What reading a construct gives. Each sort of statement gives a statement and each sort of item an
item. -/
abbrev Result : Construct → Type
  | dataType => DataType
  | operand => Operand
  | expr => Expr
  | condition => Condition
  | arguments => List Expr
  | parameters => List Declaration
  | declaration => Declaration
  | assignment => Assignment
  | block => Block
  | statement | simpleStatement | ifElse | whileLoop | forLoop | ret | call => Stmt
  | importFile | function | entry => Item
  | program => Program

/-- How a construct is read, whether or not the tokens ahead are those it starts with. -/
def production : (construct : Construct) → Production construct.Result
  | dataType => Production.dataType
  | operand => Production.operand
  | expr => Production.expr
  | condition => Production.condition
  | arguments => Production.arguments
  | parameters => Production.parameters
  | declaration => Production.declaration
  | assignment => Production.assignment
  | block => Production.block
  | statement => Production.statement
  | simpleStatement => Production.simpleStatement
  | ifElse => Production.ifElse
  | whileLoop => Production.whileLoop
  | forLoop => Production.forLoop
  | ret => Production.ret
  | call => Production.call
  | importFile => Production.importFile
  | function => Production.function
  | entry => Production.entry
  | program => Production.program

end Construct

/-- A request to a cursor: everything that a client of it may ask for. -/
inductive Request where
  | peek
  | previous
  | kind
  | atEnd
  | advance
  | accept (kind : Kind)
  | expect (kind : Kind)
  | mark
  | restore
  | discard
  /-- Runs a script and goes back. -/
  | lookahead (script : List Request)
  | report (cause : Cause)
  | reportAt (cause : Cause) (position : Position)
  | position
  | positionOf (token : Token)
  | leads (lead : Lead)
  | endOfStatement
  | read (construct : Construct)
deriving Inhabited

/-- The answer to a request. Requests that only change the cursor are answered with `done`. -/
inductive Answer where
  | done
  | token (token : Token)
  | token? (token? : Option Token)
  | kind (kind : Kind)
  | truth (value : Bool)
  | position (position : Position)
  /-- What a script that looked ahead found, and the answers inside. -/
  | lookahead (verdict : Bool) (inside : List Answer)
  | read (construct : Construct) (result : construct.Result)

/-- Whether an answer is a plain yes. What a script found that looked ahead is not. -/
def Answer.isYes : Answer → Bool
  | truth value => value
  | _ => false

/-- Whether the last of several answers is a plain yes, which is what a script that looks ahead finds. -/
def Answer.verdict (answers : List Answer) : Bool :=
  (answers.getLast?.map isYes).getD false

/-- Why a request cannot be met: there is no place left to go back to, or none to forget. -/
inductive Fault where
  | restoreWithoutMark
  | discardWithoutMark
deriving DecidableEq, Inhabited

/-- What is said about a fault, in the words that name the request and what is missing. -/
def Fault.message : Fault → String
  | restoreWithoutMark => "restore without a matching mark"
  | discardWithoutMark => "discard without a matching mark"

/-- The answer of a production that cannot fail, and the cursor that it leaves. -/
def answer {α : Type} (production : Production α) (wrap : α → Answer) (cursor : Cursor) :
    Except Fault Answer × Cursor :=
  let (result, after) := production cursor
  (.ok (wrap result), after)

mutual

/-- Meets a request. A request that cannot be met leaves the cursor as it was, and one that fails inside a
script leaves it where the script got to. -/
def Request.perform (cursor : Cursor) : Request → Except Fault Answer × Cursor
  | .peek => (.ok (.token cursor.current), cursor)
  | .previous => (.ok (.token cursor.previous), cursor)
  | .kind => (.ok (.kind cursor.kind), cursor)
  | .atEnd => (.ok (.truth cursor.atEnd), cursor)
  | .advance => answer Production.advance .token cursor
  | .accept wanted => answer (Production.accept wanted) .truth cursor
  | .expect wanted => answer (Production.expect wanted) .token? cursor
  | .mark => (.ok .done, cursor.mark)
  | .restore =>
    match cursor.restore? with
    | some after => (.ok .done, after)
    | none => (.error .restoreWithoutMark, cursor)
  | .discard =>
    match cursor.discard? with
    | some after => (.ok .done, after)
    | none => (.error .discardWithoutMark, cursor)
  | .lookahead script =>
    match Request.performAll cursor.mark script with
    | (.error fault, after) => (.error fault, after)
    | (.ok inside, after) =>
      match after.restore? with
      | some back => (.ok (.lookahead (Answer.verdict inside) inside), back)
      | none => (.error .restoreWithoutMark, after)
  | .report cause => (.ok .done, cursor.report cause)
  | .reportAt cause place => (.ok .done, cursor.reportAt cause place)
  | .position => (.ok (.position (cursor.positionOf cursor.current)), cursor)
  | .positionOf token => (.ok (.position (cursor.positionOf token)), cursor)
  | .leads lead => answer (Production.leads lead) .truth cursor
  | .endOfStatement => answer Production.endOfStatement .truth cursor
  | .read construct => answer construct.production (.read construct) cursor

/-- Meets requests in turn, up to the first that cannot be met. -/
def Request.performAll (cursor : Cursor) : List Request → Except Fault (List Answer) × Cursor
  | [] => (.ok [], cursor)
  | request :: script =>
    match Request.perform cursor request with
    | (.error fault, after) => (.error fault, after)
    | (.ok first, after) =>
      match Request.performAll after script with
      | (.error fault, last) => (.error fault, last)
      | (.ok rest, last) => (.ok (first :: rest), last)

end

end BraceLang.Cursor
