import BraceLang.Proofs.Ahead

/-!
# What productions do, case by case

A production that branches is described here once, by its cases: for each, what the cursor has to see and
what the production then gives. Later proofs go through these cases and do not look into the productions
again. Productions that run straight through need no such lemma: their runs are those of their parts.
-/

set_option autoImplicit false

namespace BraceLang.Production

variable (cursor : Cursor)

/-! ### Tokens -/

/-- A token that may stand here is taken if it does. If not, nothing happens and nothing is reported. -/
theorem accept_cases (wanted : Kind) :
    (cursor.kind = wanted ∧ accept wanted cursor = (true, cursor.step)) ∨
    (cursor.kind ≠ wanted ∧ accept wanted cursor = (false, cursor)) := by
  by_cases h : cursor.kind = wanted
  · exact .inl ⟨h, accept_of_eq h⟩
  · exact .inr ⟨h, accept_of_ne h⟩

/-- A token that is demanded is taken if it stands here. If not, it is reported as missing, and the token in
its place is left behind. -/
theorem expect_cases (wanted : Kind) :
    (cursor.kind = wanted ∧ expect wanted cursor = (some cursor.current, cursor.step)) ∨
    (cursor.kind ≠ wanted ∧ expect wanted cursor =
      (none, (cursor.report (.unexpected wanted cursor.current.value)).step)) := by
  by_cases h : cursor.kind = wanted
  · exact .inl ⟨h, expect_of_eq h⟩
  · exact .inr ⟨h, expect_of_ne h⟩

/-- To demand a token for its value gives its text, or the empty text where another token stands in its
place. -/
theorem expectValue_cases (wanted : Kind) :
    (cursor.kind = wanted ∧ expectValue wanted cursor = (cursor.current.value, cursor.step)) ∨
    (cursor.kind ≠ wanted ∧ expectValue wanted cursor =
      ("", (cursor.report (.unexpected wanted cursor.current.value)).step)) := by
  obtain ⟨hk, hrun⟩ | ⟨hk, hrun⟩ := expect_cases cursor wanted
  · exact .inl ⟨hk, by simp [expectValue, hrun]⟩
  · exact .inr ⟨hk, by simp [expectValue, hrun]⟩

/-! ### Types, expressions and conditions -/

/-- A type is missing, or spelled by a text that is no type, or one that is known. A missing one is taken
from the token left behind, and only the second is reported as unknown. -/
theorem dataType_cases :
    (cursor.kind ≠ .typeKeyword ∧ dataType cursor =
      (.unknown (cursor.report (.unexpected .typeKeyword cursor.current.value)).step.previous.value,
        (cursor.report (.unexpected .typeKeyword cursor.current.value)).step)) ∨
    (∃ text, cursor.kind = .typeKeyword ∧
      DataType.ofKeyword cursor.current.value = .unknown text ∧
      dataType cursor = (.unknown text, cursor.step.reportAt (.unknownType text)
        (cursor.step.positionOf cursor.current))) ∨
    (cursor.kind = .typeKeyword ∧ (DataType.ofKeyword cursor.current.value).isUnknown = false ∧
      dataType cursor = (DataType.ofKeyword cursor.current.value, cursor.step)) := by
  obtain ⟨hk, hrun⟩ | ⟨hk, hrun⟩ := expect_cases cursor .typeKeyword
  · cases htype : DataType.ofKeyword cursor.current.value with
    | unknown text => exact .inr (.inl ⟨text, hk, rfl, by simp [dataType, hrun, htype]⟩)
    | int | char | bool | byte => exact .inr (.inr ⟨hk, rfl, by simp [dataType, hrun, htype]⟩)
  · exact .inl ⟨hk, by simp [dataType, hrun]⟩

/-- An operand is a name or a literal. Anything else is reported and left in place, with its text for the
operand. -/
theorem operand_cases :
    (cursor.kind = .identifier ∧
      operand cursor = (.identifier cursor.current.value, cursor.step)) ∨
    (cursor.kind = .literal ∧ operand cursor = (.literal cursor.current.value, cursor.step)) ∨
    (cursor.kind ≠ .identifier ∧ cursor.kind ≠ .literal ∧ operand cursor =
      (.missing cursor.current.value,
        cursor.report (.misplaced cursor.current.value "expected identifier or literal"))) := by
  by_cases hid : cursor.kind = .identifier
  · exact .inl ⟨hid, by simp [operand, accept_of_eq hid]⟩
  by_cases hlit : cursor.kind = .literal
  · exact .inr (.inl ⟨hlit, by simp [operand, accept_of_ne hid, accept_of_eq hlit]⟩)
  · exact .inr (.inr ⟨hid, hlit, by simp [operand, accept_of_ne hid, accept_of_ne hlit]⟩)

/-- The operator of the token behind the cursor is known, or it is reported with the text that it has. -/
theorem mathOperator_cases :
    (∃ symbol, MathOp.ofSymbol cursor.previous.value = .unknown symbol ∧ mathOperator cursor =
      (.unknown symbol, cursor.reportAt (.unknownOperator symbol)
        (cursor.positionOf cursor.previous))) ∨
    ((∀ symbol, MathOp.ofSymbol cursor.previous.value ≠ .unknown symbol) ∧
      mathOperator cursor = (MathOp.ofSymbol cursor.previous.value, cursor)) := by
  cases hop : MathOp.ofSymbol cursor.previous.value with
  | unknown symbol => exact .inl ⟨symbol, rfl, by simp [mathOperator, hop]⟩
  | add | sub | mul | div => exact .inr ⟨by simp, by simp [mathOperator, hop]⟩

/-- The comparison of the token behind the cursor is the one that is known, or it is reported with its
text. -/
theorem comparison_cases :
    (∃ symbol, CompareOp.ofSymbol cursor.previous.value = .unknown symbol ∧ comparison cursor =
      (.unknown symbol, cursor.reportAt (.unknownComparison symbol)
        (cursor.positionOf cursor.previous))) ∨
    (CompareOp.ofSymbol cursor.previous.value = .equals ∧
      comparison cursor = (.equals, cursor)) := by
  cases hop : CompareOp.ofSymbol cursor.previous.value with
  | unknown symbol => exact .inl ⟨symbol, rfl, by simp [comparison, hop]⟩
  | equals => exact .inr ⟨rfl, by simp [comparison, hop]⟩

/-- An expression goes on behind an operand exactly if an operator stands there, and then another operand is
read behind it. -/
theorem link_cases :
    (cursor.kind ≠ .mathOp ∧ link cursor = (.stop, cursor)) ∨
    (cursor.kind = .mathOp ∧ link cursor =
      (.next (some ((mathOperator cursor.step).1, (operand (mathOperator cursor.step).2).1)),
        (operand (mathOperator cursor.step).2).2)) := by
  by_cases h : cursor.kind = .mathOp
  · exact .inr ⟨h, by simp [link, accept_of_eq h]⟩
  · exact .inl ⟨h, by simp [link, accept_of_ne h]⟩

/-- A condition with its first operand read goes on exactly if a comparison stands there. -/
theorem conditionFrom_cases (left : Operand) :
    (cursor.kind ≠ .compareOp ∧ conditionFrom left cursor = (.operand left, cursor)) ∨
    (cursor.kind = .compareOp ∧ conditionFrom left cursor =
      (.compare (comparison cursor.step).1 left (operand (comparison cursor.step).2).1,
        (operand (comparison cursor.step).2).2)) := by
  by_cases h : cursor.kind = .compareOp
  · exact .inr ⟨h, by simp [conditionFrom, accept_of_eq h]⟩
  · exact .inl ⟨h, by simp [conditionFrom, accept_of_ne h]⟩

/-- A round of arguments finds the list closed, or the input at its end, or reads an expression. Behind
that, a comma lets the list go on, and in place of anything else the list has to be closed. -/
theorem argument_cases :
    (cursor.kind = .closeParen ∧ argument cursor = (.stop, cursor.step)) ∨
    (cursor.kind = .endOfInput ∧
      argument cursor = (.stop, cursor.report (.unterminated .closeParen))) ∨
    (cursor.kind ≠ .closeParen ∧ cursor.kind ≠ .endOfInput ∧ (expr cursor).2.kind = .comma ∧
      argument cursor = (.next (some (expr cursor).1), (expr cursor).2.step)) ∨
    (cursor.kind ≠ .closeParen ∧ cursor.kind ≠ .endOfInput ∧ (expr cursor).2.kind ≠ .comma ∧
      argument cursor = (.last (expr cursor).1, (expect .closeParen (expr cursor).2).2)) := by
  by_cases hclose : cursor.kind = .closeParen
  · exact .inl ⟨hclose, by simp [argument, accept_of_eq hclose]⟩
  by_cases hend : cursor.kind = .endOfInput
  · exact .inr (.inl ⟨hend, by simp [argument, accept_of_ne hclose, hend]⟩)
  by_cases hcomma : (expr cursor).2.kind = .comma
  · refine .inr (.inr (.inl ⟨hclose, hend, hcomma, ?_⟩))
    simp [argument, accept_of_ne hclose, hend, accept_of_eq hcomma]
  · refine .inr (.inr (.inr ⟨hclose, hend, hcomma, ?_⟩))
    simp [argument, accept_of_ne hclose, hend, accept_of_ne hcomma]

/-! ### Statements -/

/-- The value of a return, if there is one, for a cursor behind the word. -/
def returnValue : Production (Option Expr) := do
  if (← kind) ∈ [Kind.semicolon, .closeCurly, .endOfInput] then return none
  else some <$> expr

/-- A return is read as its word and its value, so that what is proved of each gives what holds of the
statement. -/
theorem ret_eq :
    ret = do
      let _ ← expect .returnWord
      let value? ← returnValue
      return .ret value? := by
  funext cursor
  cases h : (expect .returnWord cursor).2.kind <;> simp [ret, returnValue, h]

/-- A return has no value in front of a semicolon, a closing brace or the end of the input. In front of
anything else an expression is read. -/
theorem returnValue_cases :
    (cursor.kind ∈ [Kind.semicolon, .closeCurly, .endOfInput] ∧
      returnValue cursor = (none, cursor)) ∨
    (cursor.kind ∉ [Kind.semicolon, .closeCurly, .endOfInput] ∧
      returnValue cursor = (some (expr cursor).1, (expr cursor).2)) := by
  by_cases h : cursor.kind ∈ [Kind.semicolon, .closeCurly, .endOfInput]
  · refine .inl ⟨h, ?_⟩
    rw [returnValue, bind_apply, kind_apply, if_pos h]
    rfl
  · refine .inr ⟨h, ?_⟩
    rw [returnValue, bind_apply, kind_apply, if_neg h]
    rfl

/-- A token that starts no statement is reported and left behind, and its text stands for the statement. -/
theorem unknownStatement_apply :
    unknownStatement cursor =
      (.unknown cursor.current.value,
        (cursor.report (.misplaced cursor.current.value "expected a statement")).step) := by
  simp [unknownStatement]

/-- A statement that holds no others is told by the tokens that it starts with: a call, a declaration, an
assignment, a return, or none of these, in this order. -/
theorem simpleStatement_cases :
    ((leads .call cursor).1 = true ∧ simpleStatement cursor = terminated call cursor) ∨
    ((leads .declaration cursor).1 = true ∧
      simpleStatement cursor = terminated (.declaration <$> declaration) cursor) ∨
    ((leads .assignment cursor).1 = true ∧
      simpleStatement cursor = terminated (.assignment <$> assignment) cursor) ∨
    (cursor.kind = .returnWord ∧ simpleStatement cursor = terminated ret cursor) ∨
    ((leads .call cursor).1 = false ∧ (leads .declaration cursor).1 = false ∧
      (leads .assignment cursor).1 = false ∧ cursor.kind ≠ .returnWord ∧
      simpleStatement cursor = unknownStatement cursor) := by
  cases hcall : (leads .call cursor).1 with
  | true => exact .inl ⟨rfl, by simp [simpleStatement, hcall]⟩
  | false =>
    cases hdecl : (leads .declaration cursor).1 with
    | true => exact .inr (.inl ⟨rfl, by simp [simpleStatement, hcall, hdecl]⟩)
    | false =>
      cases hassign : (leads .assignment cursor).1 with
      | true => exact .inr (.inr (.inl ⟨rfl, by simp [simpleStatement, hcall, hdecl, hassign]⟩))
      | false =>
        by_cases hret : cursor.kind = .returnWord
        · refine .inr (.inr (.inr (.inl ⟨hret, ?_⟩)))
          simp [simpleStatement, hcall, hdecl, hassign, hret]
        · refine .inr (.inr (.inr (.inr ⟨rfl, rfl, rfl, hret, ?_⟩)))
          simp [simpleStatement, hcall, hdecl, hassign, hret]

/-- A round of a block finds the closing brace, or the input at its end, or reads a statement. -/
theorem blockRound_cases (nested : Production Stmt) :
    (cursor.kind = .closeCurly ∧ blockRound nested cursor = (.stop, cursor.step)) ∨
    (cursor.kind = .endOfInput ∧
      blockRound nested cursor = (.stop, cursor.report (.unterminated .closeCurly))) ∨
    (cursor.kind ≠ .closeCurly ∧ cursor.kind ≠ .endOfInput ∧
      blockRound nested cursor = (.next (some (nested cursor).1), (nested cursor).2)) := by
  by_cases hclose : cursor.kind = .closeCurly
  · exact .inl ⟨hclose, by simp [blockRound, accept_of_eq hclose]⟩
  by_cases hend : cursor.kind = .endOfInput
  · exact .inr (.inl ⟨hend, by simp [blockRound, accept_of_ne hclose, hend]⟩)
  · exact .inr (.inr ⟨hclose, hend, by simp [blockRound, accept_of_ne hclose, hend]⟩)

/-- The other branch of a condition, if there is one, for a cursor behind the first. -/
def otherwiseOf (nested : Production Stmt) : Production (Option Stmt) := do
  if ← accept .elseWord then
    if (← kind) = .ifWord then some <$> nested
    else (fun body => some (.compound body)) <$> blockOf nested
  else return none

/-- Behind the body of a choice there is nothing more without the word for it. With that word, another
choice or a block follows. -/
theorem otherwiseOf_cases (nested : Production Stmt) :
    (cursor.kind ≠ .elseWord ∧ otherwiseOf nested cursor = (none, cursor)) ∨
    (cursor.kind = .elseWord ∧ cursor.step.kind = .ifWord ∧
      otherwiseOf nested cursor = (some (nested cursor.step).1, (nested cursor.step).2)) ∨
    (cursor.kind = .elseWord ∧ cursor.step.kind ≠ .ifWord ∧
      otherwiseOf nested cursor =
        (some (.compound (blockOf nested cursor.step).1), (blockOf nested cursor.step).2)) := by
  by_cases helse : cursor.kind = .elseWord
  · by_cases hif : cursor.step.kind = .ifWord
    · exact .inr (.inl ⟨helse, hif, by simp [otherwiseOf, accept_of_eq helse, hif]⟩)
    · exact .inr (.inr ⟨helse, hif, by simp [otherwiseOf, accept_of_eq helse, hif]⟩)
  · exact .inl ⟨helse, by simp [otherwiseOf, accept_of_ne helse]⟩

/-- A choice is read as its test, its block and what is done otherwise, one after the other. -/
theorem ifElseOf_eq (nested : Production Stmt) :
    ifElseOf nested = do
      let _ ← expect .ifWord
      let test ← condition
      let body ← blockOf nested
      let otherwise? ← otherwiseOf nested
      return .ifElse test body otherwise? := by
  funext cursor
  obtain ⟨helse, hrun⟩ | ⟨helse, hif, hrun⟩ | ⟨helse, hif, hrun⟩ :=
    otherwiseOf_cases (blockOf nested (condition (expect .ifWord cursor).2).2).2 nested
  · simp [ifElseOf, hrun, accept_of_ne helse]
  · simp [ifElseOf, hrun, accept_of_eq helse, hif]
  · simp [ifElseOf, hrun, accept_of_eq helse, hif]

/-- The header of a counting loop starts with a declaration, an assignment or nothing, as the tokens ahead
say. -/
theorem forInit_cases :
    ((leads .declaration cursor).1 = true ∧ forInit cursor =
      (some (.declaration (declaration cursor).1), (declaration cursor).2)) ∨
    ((leads .assignment cursor).1 = true ∧ forInit cursor =
      (some (.assignment (assignment cursor).1), (assignment cursor).2)) ∨
    ((leads .declaration cursor).1 = false ∧ (leads .assignment cursor).1 = false ∧
      forInit cursor = (none, cursor)) := by
  cases hdecl : (leads .declaration cursor).1 with
  | true => exact .inl ⟨rfl, by simp [forInit, hdecl]⟩
  | false =>
    cases hassign : (leads .assignment cursor).1 with
    | true => exact .inr (.inl ⟨rfl, by simp [forInit, hdecl, hassign]⟩)
    | false => exact .inr (.inr ⟨rfl, rfl, by simp [forInit, hdecl, hassign]⟩)

/-- The condition of a counting loop is left out exactly if the semicolon behind it stands there already. -/
theorem forCondition_cases :
    (cursor.kind = .semicolon ∧ forCondition cursor = (none, cursor)) ∨
    (cursor.kind ≠ .semicolon ∧
      forCondition cursor = (some (condition cursor).1, (condition cursor).2)) := by
  by_cases h : cursor.kind = .semicolon
  · exact .inl ⟨h, by simp [forCondition, h]⟩
  · exact .inr ⟨h, by simp [forCondition, h]⟩

/-- The header of a counting loop ends with an assignment exactly if the tokens ahead start one. -/
theorem forStep_cases :
    ((leads .assignment cursor).1 = true ∧
      forStep cursor = (some (assignment cursor).1, (assignment cursor).2)) ∨
    ((leads .assignment cursor).1 = false ∧ forStep cursor = (none, cursor)) := by
  cases h : (leads .assignment cursor).1 with
  | true => exact .inl ⟨rfl, by simp [forStep, h]⟩
  | false => exact .inr ⟨rfl, by simp [forStep, h]⟩

/-- The three parts of a counting loop. -/
def forHeader : Production (Option Stmt × Option Condition × Option Assignment) := do
  let init? ← forInit
  let _ ← expect .semicolon
  let condition? ← forCondition
  let _ ← expect .semicolon
  let step? ← forStep
  return (init?, condition?, step?)

/-- A counting loop is read as its header, with or without parentheses, and its block. -/
theorem forLoopOf_eq (nested : Production Stmt) :
    forLoopOf nested = do
      let _ ← expect .forWord
      let opened ← accept .openParen
      let header ← forHeader
      closeParenIf opened
      let body ← blockOf nested
      return .forLoop header.1 header.2.1 header.2.2 body := by
  funext cursor
  simp [forLoopOf, forHeader]

/-- A statement is told by its first token where that is a word of its own, a brace or a semicolon. Then a
declaration is looked for, and after that the statements that hold no others. -/
theorem statementOf_cases (nested : Production Stmt) :
    (cursor.kind = .ifWord ∧ statementOf nested cursor = ifElseOf nested cursor) ∨
    (cursor.kind = .whileWord ∧ statementOf nested cursor = whileLoopOf nested cursor) ∨
    (cursor.kind = .forWord ∧ statementOf nested cursor = forLoopOf nested cursor) ∨
    (cursor.kind = .openCurly ∧ statementOf nested cursor =
      (.compound (blockOf nested cursor).1, (blockOf nested cursor).2)) ∨
    (cursor.kind = .semicolon ∧ statementOf nested cursor = (.empty, cursor.step)) ∨
    ((leads .declaration cursor).1 = true ∧
      statementOf nested cursor = terminated (.declaration <$> declaration) cursor) ∨
    (cursor.kind ∉ [.ifWord, .whileWord, .forWord, .openCurly, .semicolon] ∧
      statementOf nested cursor = simpleStatement cursor) := by
  cases h : cursor.kind with
  | ifWord => exact .inl ⟨rfl, by simp [statementOf, h]⟩
  | whileWord => exact .inr (.inl ⟨rfl, by simp [statementOf, h]⟩)
  | forWord => exact .inr (.inr (.inl ⟨rfl, by simp [statementOf, h]⟩))
  | openCurly => exact .inr (.inr (.inr (.inl ⟨rfl, by simp [statementOf, h]⟩)))
  | semicolon => exact .inr (.inr (.inr (.inr (.inl ⟨rfl, by simp [statementOf, h]⟩))))
  | _ =>
    refine .inr (.inr (.inr (.inr (.inr ?_))))
    cases hdecl : (leads .declaration cursor).1 with
    | true => exact .inl ⟨rfl, by simp [statementOf, h, hdecl]⟩
    | false => exact .inr ⟨by decide, by simp [statementOf, h, hdecl]⟩

/-! ### Items -/

/-- A round of parameters finds the list closed, the input at its end, the brace of the body in place of a
parenthesis, or a parameter with or without a comma behind it. -/
theorem parameter_cases :
    (cursor.kind = .closeParen ∧ parameter cursor = (.stop, cursor.step)) ∨
    (cursor.kind = .endOfInput ∧
      parameter cursor = (.stop, cursor.report (.unterminated .closeParen))) ∨
    (cursor.kind = .openCurly ∧ parameter cursor =
      (.stop, cursor.report (.unexpected .closeParen cursor.current.value))) ∨
    (cursor.kind ∉ [.closeParen, .endOfInput, .openCurly] ∧ parameter cursor =
      (.next (some (declaration cursor).1), (accept .comma (declaration cursor).2).2)) := by
  by_cases hclose : cursor.kind = .closeParen
  · exact .inl ⟨hclose, by simp [parameter, accept_of_eq hclose]⟩
  by_cases hend : cursor.kind = .endOfInput
  · exact .inr (.inl ⟨hend, by simp [parameter, accept_of_ne hclose, hend]⟩)
  by_cases hopen : cursor.kind = .openCurly
  · exact .inr (.inr (.inl ⟨hopen, by simp [parameter, accept_of_ne hclose, hopen]⟩))
  · refine .inr (.inr (.inr ⟨by simp [hclose, hend, hopen], ?_⟩))
    simp [parameter, accept_of_ne hclose, hend, hopen]

/-- A round at the top level finds the input at its end, or reads the item that the tokens ahead start. A
token that starts none is reported and left behind. -/
theorem topLevel_cases :
    (cursor.kind = .endOfInput ∧ topLevel cursor = (.stop, cursor.step)) ∨
    (cursor.kind ≠ .endOfInput ∧ (leads .function cursor).1 = true ∧
      topLevel cursor = (.next (some (function cursor).1), (function cursor).2)) ∨
    (cursor.kind ≠ .endOfInput ∧ (leads .declaration cursor).1 = true ∧ topLevel cursor =
      (.next (some (.declaration (declaration cursor).1)),
        (accept .semicolon (declaration cursor).2).2)) ∨
    (cursor.kind ≠ .endOfInput ∧ (leads .entry cursor).1 = true ∧
      topLevel cursor = (.next (some (entry cursor).1), (entry cursor).2)) ∨
    (cursor.kind = .importWord ∧ topLevel cursor =
      (.next (some (importFile cursor).1), (accept .semicolon (importFile cursor).2).2)) ∨
    (cursor.kind ≠ .endOfInput ∧ topLevel cursor =
      (.next none, (cursor.report (.unexpectedTopLevel cursor.current.value)).step)) := by
  by_cases hend : cursor.kind = .endOfInput
  · exact .inl ⟨hend, by simp [topLevel, accept_of_eq hend]⟩
  have hmore : accept .endOfInput cursor = (false, cursor) := accept_of_ne hend
  cases hfun : (leads .function cursor).1 with
  | true => exact .inr (.inl ⟨hend, rfl, by simp [topLevel, hmore, hfun]⟩)
  | false =>
    cases hdecl : (leads .declaration cursor).1 with
    | true =>
      refine .inr (.inr (.inl ⟨hend, rfl, ?_⟩))
      simp [topLevel, hmore, hfun, hdecl, endOfStatement]
    | false =>
      cases hentry : (leads .entry cursor).1 with
      | true =>
        refine .inr (.inr (.inr (.inl ⟨hend, rfl, ?_⟩)))
        simp [topLevel, hmore, hfun, hdecl, hentry]
      | false =>
        by_cases himport : cursor.kind = .importWord
        · refine .inr (.inr (.inr (.inr (.inl ⟨himport, ?_⟩))))
          simp [topLevel, hmore, hfun, hdecl, hentry, himport, endOfStatement]
        · refine .inr (.inr (.inr (.inr (.inr ⟨hend, ?_⟩))))
          simp [topLevel, hmore, hfun, hdecl, hentry, himport]

end BraceLang.Production
