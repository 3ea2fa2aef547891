import BraceLang.Grammar.Expr
import BraceLang.Program

/-!
# Reading statements

Some constructs start with the same kind of token. Each of them is told by its lead, the kinds of its first
tokens, which are looked at without taking them. The productions of compound statements take the production
of the statements inside them as an argument. `statement` ties the knot: a statement inside another starts
at a later token, so there are no more levels than tokens.
-/

set_option autoImplicit false

namespace BraceLang

/-- The constructs that are told by more than their place, because others start with the same kind of
token. -/
inductive Lead where
  | declaration
  | function
  | assignment
  | call
  | entry
deriving DecidableEq, Inhabited

/-- The kinds of the tokens that a construct starts with, as many as it takes to tell it from the others. -/
def Lead.kinds : Lead → List Kind
  | declaration => [.typeKeyword, .confirm, .identifier]
  | function => [.typeKeyword, .identifier]
  | assignment => [.identifier, .assignment]
  | call => [.identifier, .openParen]
  | entry => [.entryWord]

namespace Production

/-- Whether the tokens ahead are those a construct starts with. Looking takes none of them. -/
def leads (lead : Lead) : Production Bool :=
  lookahead (acceptAll lead.kinds)

/-- A semicolon, which may be left out. The answer says whether there was one, and nothing is reported if
not. -/
def endOfStatement : Production Bool :=
  accept .semicolon

/-- A variable and its new value. What is missing of the two is reported, and reading goes on. -/
def assignment : Production Assignment := do
  let target ← expectValue .identifier
  let _ ← expect .assignment
  let value ← expr
  return ⟨target, value⟩

/-- A type, a colon and a variable, with or without a first value. With a value, the rest is read as an
assignment is. -/
def declaration : Production Declaration := do
  let type ← dataType
  let _ ← expect .confirm
  if ← leads .assignment then
    let first ← assignment
    return ⟨type, first.target, some first.value⟩
  else
    let name ← expectValue .identifier
    return ⟨type, name, none⟩

/-- A call: the name of what is called, and its arguments in parentheses. -/
def call : Production Stmt := do
  let callee ← expectValue .identifier
  let args ← arguments
  return .call callee args

/-- A return, with a value unless the statement, the block around it or the input ends at once. -/
def ret : Production Stmt := do
  let _ ← expect .returnWord
  match ← kind with
  | .semicolon | .closeCurly | .endOfInput => return .ret none
  | _ =>
    let value ← expr
    return .ret (some value)

/-- A token that starts no statement. It is reported and left behind. -/
def unknownStatement : Production Stmt := do
  let found ← peek
  report (.misplaced found.value "expected a statement")
  let _ ← advance
  return .unknown found.value

/-- The statement read by `body`, and the semicolon after it, if there is one. -/
def terminated (body : Production Stmt) : Production Stmt := do
  let read ← body
  let _ ← endOfStatement
  return read

/-- A call, a declaration, an assignment or a return: a statement that holds no others. Any other token
starts none. -/
def simpleStatement : Production Stmt := do
  if ← leads .call then terminated call
  else if ← leads .declaration then terminated (.declaration <$> declaration)
  else if ← leads .assignment then terminated (.assignment <$> assignment)
  else if (← kind) = .returnWord then terminated ret
  else unknownStatement

/-! ### Statements that hold others -/

/-- A statement of a block, or the end of the block. -/
def blockRound (nested : Production Stmt) : Production (Round Stmt) := do
  if ← accept .closeCurly then return .stop
  else if ← atEnd then
    report (.unterminated .closeCurly)
    return .stop
  else
    let read ← nested
    return .next (some read)

/-- A block, whose statements `nested` reads, up to the closing bracket or to the end of the input. -/
def blockOf (nested : Production Stmt) : Production Block := do
  let _ ← expect .openCurly
  rounds (blockRound nested)

/-- A condition and its block, and the other branch if there is one. Before a further condition the other
branch is the statement that the condition starts. -/
def ifElseOf (nested : Production Stmt) : Production Stmt := do
  let _ ← expect .ifWord
  let test ← condition
  let body ← blockOf nested
  if ← accept .elseWord then
    if (← kind) = .ifWord then
      let branch ← nested
      return .ifElse test body (some branch)
    else
      let branch ← blockOf nested
      return .ifElse test body (some (.compound branch))
  else return .ifElse test body none

/-- A loop with a condition: the condition, which may stand in parentheses, and the block that is
repeated. -/
def whileLoopOf (nested : Production Stmt) : Production Stmt := do
  let _ ← expect .whileWord
  let test ← condition
  let body ← blockOf nested
  return .whileLoop test body

/-- What a counting loop starts with: a declaration, an assignment, or nothing where neither lead is
found. -/
def forInit : Production (Option Stmt) := do
  if ← leads .declaration then
    let first ← declaration
    return some (.declaration first)
  else if ← leads .assignment then
    let first ← assignment
    return some (.assignment first)
  else return none

/-- The condition of a counting loop. Only a semicolon in its place shows that it is left out. -/
def forCondition : Production (Option Condition) := do
  if (← kind) = .semicolon then return none
  else
    let test ← condition
    return some test

/-- What a counting loop does after each round: an assignment, or nothing where its lead is not found. -/
def forStep : Production (Option Assignment) := do
  if ← leads .assignment then
    let step ← assignment
    return some step
  else return none

/-- A counting loop, with or without parentheses around its three parts. -/
def forLoopOf (nested : Production Stmt) : Production Stmt := do
  let _ ← expect .forWord
  let opened ← accept .openParen
  let init? ← forInit
  let _ ← expect .semicolon
  let condition? ← forCondition
  let _ ← expect .semicolon
  let step? ← forStep
  closeParenIf opened
  let body ← blockOf nested
  return .forLoop init? condition? step? body

/-- A statement. The kind of the current token decides, then the leads. -/
def statementOf (nested : Production Stmt) : Production Stmt := do
  match ← kind with
  | .ifWord => ifElseOf nested
  | .whileWord => whileLoopOf nested
  | .forWord => forLoopOf nested
  | .openCurly => .compound <$> blockOf nested
  | .semicolon =>
    let _ ← advance
    return .empty
  | _ =>
    if ← leads .declaration then terminated (.declaration <$> declaration)
    else simpleStatement

/-- A statement of at most `depth` levels. Where the levels run out it is an empty one, and nothing is
taken. -/
def statementWithin : (depth : Nat) → Production Stmt
  | 0 => pure .empty
  | depth + 1 => statementOf (statementWithin depth)

/-- A statement, with as many levels as there are tokens, which is more than can be needed. -/
def statement : Production Stmt := fun cursor =>
  statementWithin cursor.remaining cursor

/-- A block of statements, which may themselves hold blocks of any depth. -/
def block : Production Block :=
  blockOf statement

/-- A statement under a condition, for one that wants this construct and no other. -/
def ifElse : Production Stmt :=
  ifElseOf statement

/-- A loop with a condition, for one that wants this construct and no other. -/
def whileLoop : Production Stmt :=
  whileLoopOf statement

/-- A counting loop, for one that wants this construct and no other. -/
def forLoop : Production Stmt :=
  forLoopOf statement

end Production

end BraceLang
