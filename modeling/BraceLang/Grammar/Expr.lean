import BraceLang.Cursor.Production
import BraceLang.Program.Expr

/-!
# Reading types, expressions and conditions

An expression is a chain of operands and operators, which is read from left to right and built from the
right. A condition is an operand or a comparison of two, and may stand in parentheses.
-/

set_option autoImplicit false

namespace BraceLang.Production

/-- A type keyword. Without one, the token in its place is left behind and becomes an unknown type. -/
def dataType : Production DataType := do
  match ← expect .typeKeyword with
  | none =>
    let skipped ← previous
    return .unknown skipped.value
  | some token =>
    match DataType.ofKeyword token.value with
    | .unknown text =>
      reportOn token (.unknownType text)
      return .unknown text
    | type => return type

/-- An identifier or a literal. Any other token is reported and stays current. -/
def operand : Production Operand := do
  let found ← peek
  if ← accept .identifier then return .identifier found.value
  else if ← accept .literal then return .literal found.value
  else
    report (.misplaced found.value "expected identifier or literal")
    return .missing found.value

/-- The operator that has just been taken. One without a meaning is reported where it stands and kept by its
symbol. -/
def mathOperator : Production MathOp := do
  let token ← previous
  match MathOp.ofSymbol token.value with
  | .unknown symbol =>
    reportOn token (.unknownOperator symbol)
    return .unknown symbol
  | op => return op

/-- The comparison that has just been taken. One without a meaning is reported where it stands and kept by
its symbol. -/
def comparison : Production CompareOp := do
  let token ← previous
  match CompareOp.ofSymbol token.value with
  | .unknown symbol =>
    reportOn token (.unknownComparison symbol)
    return .unknown symbol
  | op => return op

/-- An operator and the operand after it, which is one step of a chain. Without an operator the chain
ends. -/
def link : Production (Round (MathOp × Operand)) := do
  if ← accept .mathOp then
    let op ← mathOperator
    let right ← operand
    return .next (some (op, right))
  else return .stop

/-- An expression: an operand and as many operators with operands after it as there are. -/
def expr : Production Expr := do
  let first ← operand
  let links ← rounds link
  return .chain first links

/-- The parenthesis that closes an opened one. Where none was opened, none is taken. -/
def closeParenIf (opened : Bool) : Production Unit := do
  if opened then
    let _ ← expect .closeParen
    return ()
  else return ()

/-- The condition whose left operand has just been read: a comparison with a second operand, or that operand
alone. -/
def conditionFrom (left : Operand) : Production Condition := do
  if ← accept .compareOp then
    let op ← comparison
    let right ← operand
    return .compare op left right
  else return .operand left

/-- A condition, with or without one pair of parentheses. Inside there are operands, not expressions. -/
def condition : Production Condition := do
  let opened ← accept .openParen
  let left ← operand
  let read ← conditionFrom left
  closeParenIf opened
  return read

/-- An argument and the comma or the closing parenthesis after it. Behind a comma the list may end too. -/
def argument : Production (Round Expr) := do
  if ← accept .closeParen then return .stop
  else if ← atEnd then
    report (.unterminated .closeParen)
    return .stop
  else
    let value ← expr
    if ← accept .comma then return .next (some value)
    else
      let _ ← expect .closeParen
      return .last value

/-- Arguments in parentheses, up to the closing one or to where it is missing. -/
def arguments : Production (List Expr) := do
  let _ ← expect .openParen
  rounds argument

end BraceLang.Production
