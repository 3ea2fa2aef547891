import BraceLang.Proofs.Acceptance
import BraceLang.Proofs.Spelling

/-!
# Programs that are written and read again

`Program.print` writes a program in one canonical way: single spaces between the words, literals and paths
of imports in double quotes, a semicolon after every statement that may have one, commas between parameters
and between arguments, and parentheses around the three parts of a counting loop.

Not every program is one of the language: a part may be missing or unknown, a name may be none, and the
other branch of a condition or the start of a counting loop may be a statement that does not belong there.
`Program.wellFormed` excludes these. A well-formed program is read again from what is printed
(`parse_print`), because its words are readable and derive it.
-/

set_option autoImplicit false

namespace BraceLang

open Word (fixed Readable Optional Perhaps)

/-! ### The words of a program -/

/-- The symbol of an operator. One without a meaning keeps the text that it was read from. -/
def MathOp.symbol : MathOp → String
  | add => "+"
  | sub => "-"
  | mul => "*"
  | div => "/"
  | unknown symbol => symbol

/-- The symbol of a comparison. One without a meaning keeps the text that it was read from. -/
def CompareOp.symbol : CompareOp → String
  | equals => "=="
  | unknown symbol => symbol

/-- The word of an operand. A missing one has a word as well, which no well-formed program uses. -/
def Operand.word : Operand → Word
  | identifier name => ⟨.identifier, name⟩
  | literal text => ⟨.literal, text⟩
  | missing found => ⟨.identifier, found⟩

/-- The words of an expression, operands and operators from left to right. -/
def Expr.words : Expr → List Word
  | operand value => [value.word]
  | binary op left right => left.word :: ⟨.mathOp, op.symbol⟩ :: right.words

/-- The words of a condition, which is written without parentheses. -/
def Condition.words : Condition → List Word
  | operand value => [value.word]
  | compare op left right => [left.word, ⟨.compareOp, op.symbol⟩, right.word]

/-- The words of arguments up to the closing parenthesis, with a comma between any two. -/
def Expr.argumentWords : List Expr → List Word
  | [] => [fixed .closeParen]
  | [arg] => arg.words ++ [fixed .closeParen]
  | arg :: next :: args => arg.words ++ fixed .comma :: argumentWords (next :: args)

/-- The words of an assignment: the name, an equals sign and those of the value. -/
def Assignment.words (assigned : Assignment) : List Word :=
  ⟨.identifier, assigned.target⟩ :: fixed .assignment :: assigned.value.words

/-- The words of a declaration, where a first value is written as an assignment to its name. -/
def Declaration.words (declared : Declaration) : List Word :=
  ⟨.typeKeyword, declared.type.name⟩ :: fixed .confirm ::
    match declared.init? with
    | none => [⟨.identifier, declared.name⟩]
    | some value => Assignment.words ⟨declared.name, value⟩

/-- The words of parameters up to the closing parenthesis, with a comma between any two. -/
def Declaration.parameterWords : List Declaration → List Word
  | [] => [fixed .closeParen]
  | [param] => param.words ++ [fixed .closeParen]
  | param :: next :: params => param.words ++ fixed .comma :: parameterWords (next :: params)

mutual

/-- The words of a statement, with a semicolon behind every one that may have it. -/
def Stmt.words : Stmt → List Word
  | declaration declared => declared.words ++ [fixed .semicolon]
  | assignment assigned => assigned.words ++ [fixed .semicolon]
  | ifElse test body other? =>
    fixed .ifWord :: test.words ++ fixed .openCurly :: Stmt.insideWords body
      ++ Stmt.otherwiseWords other?
  | whileLoop test body => fixed .whileWord :: test.words ++ fixed .openCurly :: Stmt.insideWords body
  | forLoop init? test? step? body =>
    fixed .forWord :: fixed .openParen :: Stmt.initWords init? ++ (test?.elim [] Condition.words)
      ++ fixed .semicolon :: (step?.elim [] Assignment.words)
      ++ fixed .closeParen :: fixed .openCurly :: Stmt.insideWords body
  | call callee args =>
    ⟨.identifier, callee⟩ :: fixed .openParen :: Expr.argumentWords args ++ [fixed .semicolon]
  | ret value? => fixed .returnWord :: (value?.elim [] Expr.words) ++ [fixed .semicolon]
  | compound body => fixed .openCurly :: Stmt.insideWords body
  | empty => [fixed .semicolon]
  | unknown found => [⟨.identifier, found⟩]

/-- The words of statements up to the bracket that closes their block. -/
def Stmt.insideWords : List Stmt → List Word
  | [] => [fixed .closeCurly]
  | stmt :: body => stmt.words ++ Stmt.insideWords body

/-- The words of the other branch of a condition, or none where there is no such branch. -/
def Stmt.otherwiseWords : Option Stmt → List Word
  | none => []
  | some stmt => fixed .elseWord :: stmt.words

/-- The words of what a counting loop starts with, up to the semicolon. -/
def Stmt.initWords : Option Stmt → List Word
  | none => [fixed .semicolon]
  | some stmt => stmt.words

end

/-- The words of a block, both brackets included. -/
def Block.words (body : Block) : List Word :=
  fixed .openCurly :: Stmt.insideWords body

/-- The words of an item, with a semicolon behind an import or a declaration. -/
def Item.words : Item → List Word
  | importFile path => [fixed .importWord, ⟨.literal, path⟩, fixed .semicolon]
  | declaration declared => declared.words ++ [fixed .semicolon]
  | function type name params body =>
    ⟨.typeKeyword, type.name⟩ :: ⟨.identifier, name⟩ :: fixed .openParen ::
      Declaration.parameterWords params ++ Block.words body
  | entry body => fixed .entryWord :: Block.words body

/-- The words of a program, one item after the other. -/
def Program.words (items : Program) : List Word :=
  items.flatMap Item.words

/-- A program, written in the canonical way: its words with a space between any two. -/
def Program.print (items : Program) : String :=
  String.ofList (Word.text (Program.words items))

/-! ### Programs of the language -/

/-- Whether a text is a name: a word that is not reserved. -/
def Lexeme.isName (text : String) : Bool :=
  isWord text.toList && (Kind.ofWord? text).isNone

open Lexeme (isName)

/-- Whether an operand is one of the language: a name that is not reserved, or a literal with any text. -/
def Operand.wellFormed : Operand → Bool
  | identifier name => isName name
  | literal _ => true
  | missing _ => false

/-- Whether an operator has a meaning. -/
def MathOp.wellFormed : MathOp → Bool
  | unknown _ => false
  | _ => true

/-- Whether a comparison has a meaning. -/
def CompareOp.wellFormed : CompareOp → Bool
  | unknown _ => false
  | equals => true

/-- Whether the operators and the operands of an expression are of the language. -/
def Expr.wellFormed : Expr → Bool
  | operand value => value.wellFormed
  | binary op left right => op.wellFormed && left.wellFormed && right.wellFormed

/-- Whether the comparison and the operands of a condition are of the language. -/
def Condition.wellFormed : Condition → Bool
  | operand value => value.wellFormed
  | compare op left right => op.wellFormed && left.wellFormed && right.wellFormed

/-- Whether an assignment is to a name and its value is of the language. -/
def Assignment.wellFormed (assigned : Assignment) : Bool :=
  isName assigned.target && assigned.value.wellFormed

/-- Whether a declaration has a known type, a name, and a first value of the language if it has one. -/
def Declaration.wellFormed (declared : Declaration) : Bool :=
  !declared.type.isUnknown && isName declared.name && declared.init?.all Expr.wellFormed

/-- Whether a statement may be the other branch of a condition. -/
def Stmt.isBranch : Stmt → Bool
  | compound _ | ifElse _ _ _ => true
  | _ => false

/-- Whether a counting loop may start with a statement: it declares or assigns. -/
def Stmt.isInit : Stmt → Bool
  | declaration _ | assignment _ => true
  | _ => false

mutual

/-- Whether a statement is one of the language, with all the statements inside it. -/
def Stmt.wellFormed : Stmt → Bool
  | declaration declared => declared.wellFormed
  | assignment assigned => assigned.wellFormed
  | ifElse test body other? =>
    test.wellFormed && Stmt.allWellFormed body && other?.all Stmt.isBranch
      && Stmt.optionWellFormed other?
  | whileLoop test body => test.wellFormed && Stmt.allWellFormed body
  | forLoop init? test? step? body =>
    init?.all Stmt.isInit && Stmt.optionWellFormed init? && test?.all Condition.wellFormed
      && step?.all Assignment.wellFormed && Stmt.allWellFormed body
  | call callee args => isName callee && args.all Expr.wellFormed
  | ret value? => value?.all Expr.wellFormed
  | compound body => Stmt.allWellFormed body
  | empty => true
  | unknown _ => false

/-- Whether all statements of a block are of the language. -/
def Stmt.allWellFormed : List Stmt → Bool
  | [] => true
  | stmt :: body => stmt.wellFormed && Stmt.allWellFormed body

/-- Whether a statement is of the language or missing. -/
def Stmt.optionWellFormed : Option Stmt → Bool
  | none => true
  | some stmt => stmt.wellFormed

end

/-- Whether an item is one of the language. An import is, whatever its path is. -/
def Item.wellFormed : Item → Bool
  | importFile _ => true
  | declaration declared => declared.wellFormed
  | function type name params body =>
    !type.isUnknown && isName name && params.all Declaration.wellFormed && Stmt.allWellFormed body
  | entry body => Stmt.allWellFormed body

/-- Whether a program is one of the language, which can be decided by looking at each of its parts. -/
def Program.wellFormed (items : Program) : Bool :=
  items.all Item.wellFormed

/-! ### Well-formed programs are derived from their words -/

/-- A known type is spelled by its name, which is the keyword that it is found by. -/
theorem DataType.spelled_of_known {type : DataType} (h : type.isUnknown = false) :
    type.Spelled ⟨.typeKeyword, type.name⟩ := by
  refine ⟨rfl, ?_⟩
  cases type with
  | unknown text => cases h
  | int | char | bool | byte => decide

/-- An operand of the language is spelled by its word. -/
theorem Operand.spelled_of_wellFormed {value : Operand} (h : value.wellFormed = true) :
    value.Spelled value.word := by
  cases value with
  | identifier name => exact .identifier rfl
  | literal text => exact .literal rfl
  | missing found => cases h

/-- An operator with a meaning is spelled by its symbol. -/
theorem MathOp.spelled_of_wellFormed {op : MathOp} (h : op.wellFormed = true) :
    op.Spelled ⟨.mathOp, op.symbol⟩ := by
  refine ⟨rfl, ?_⟩
  cases op with
  | unknown symbol => cases h
  | add | sub | mul | div => decide

/-- An expression of the language is derived from its words. The induction follows the right sides. -/
theorem Expr.derives_words {value : Expr} (h : value.wellFormed = true) :
    value.Derives value.words := by
  induction value with
  | operand value => exact .operand (Operand.spelled_of_wellFormed h)
  | binary op left right ih =>
    simp only [wellFormed, Bool.and_eq_true] at h
    obtain ⟨⟨hop, hleft⟩, hright⟩ := h
    exact .binary (Operand.spelled_of_wellFormed hleft) (MathOp.spelled_of_wellFormed hop) (ih hright)

/-- A condition of the language is derived from its words, as one without parentheses. -/
theorem Condition.derives_words {test : Condition} (h : test.wellFormed = true) :
    test.Derives test.words := by
  cases test with
  | operand value => exact .bare (.operand (Operand.spelled_of_wellFormed h))
  | compare op left right =>
    simp only [wellFormed, Bool.and_eq_true] at h
    obtain ⟨⟨hop, hleft⟩, hright⟩ := h
    cases op with
    | unknown symbol => cases hop
    | equals =>
      exact .bare (.compare (Operand.spelled_of_wellFormed hleft) rfl rfl
        (Operand.spelled_of_wellFormed hright))

/-- Arguments of the language are derived from their words up to the closing parenthesis. -/
theorem Expr.inside_argumentWords {args : List Expr} (h : args.all Expr.wellFormed = true) :
    Arguments.Inside (argumentWords args) args := by
  fun_induction argumentWords args with
  | case1 => exact .close rfl
  | case2 arg =>
    simp only [List.all_cons, List.all_nil, Bool.and_true] at h
    exact .last (derives_words h) rfl
  | case3 arg next args ih =>
    rw [List.all_cons, Bool.and_eq_true] at h
    exact .more (derives_words h.1) rfl (ih h.2)

/-- An assignment of the language is derived from its words. -/
theorem Assignment.derives_words {assigned : Assignment} (h : assigned.wellFormed = true) :
    assigned.Derives assigned.words := by
  simp only [wellFormed, Bool.and_eq_true] at h
  exact .mk rfl rfl (Expr.derives_words h.2)

/-- A declaration of the language is derived from its words, with a first value or without. -/
theorem Declaration.derives_words {declared : Declaration} (h : declared.wellFormed = true) :
    declared.Derives declared.words := by
  obtain ⟨type, name, init?⟩ := declared
  simp only [wellFormed, Bool.and_eq_true, Bool.not_eq_true'] at h
  obtain ⟨⟨htype, hname⟩, hinit⟩ := h
  cases init? with
  | none => exact .plain (DataType.spelled_of_known htype) rfl rfl
  | some value =>
    have hfirst : (⟨name, value⟩ : Assignment).wellFormed = true := by
      simpa [Assignment.wellFormed, hname] using hinit
    exact .valued (DataType.spelled_of_known htype) rfl (Assignment.derives_words hfirst)

/-- Parameters of the language are derived from their words, with the commas that are written between
them. -/
theorem Declaration.inside_parameterWords {params : List Declaration}
    (h : params.all Declaration.wellFormed = true) :
    Parameters.Inside (parameterWords params) params := by
  fun_induction parameterWords params with
  | case1 => exact .close rfl
  | case2 param =>
    simp only [List.all_cons, List.all_nil, Bool.and_true] at h
    have := Parameters.Inside.more (derives_words h) .absent (.close (w := fixed .closeParen) rfl)
    simpa using this
  | case3 param next params ih =>
    rw [List.all_cons, Bool.and_eq_true] at h
    have := Parameters.Inside.more (derives_words h.1) (.present (w := fixed .comma) rfl) (ih h.2)
    simpa using this

/-- A part that may be missing is derived from its words, or from none if it is missing. -/
theorem Word.Perhaps.of_elim {α : Type} {derives : List Word → α → Prop} {wellFormed : α → Bool}
    {words : α → List Word} (hwords : ∀ part, wellFormed part = true → derives (words part) part)
    {part? : Option α} (h : part?.all wellFormed = true) :
    Perhaps derives (part?.elim [] words) part? := by
  cases part? with
  | none => exact .none
  | some part => exact .some (hwords part h)

/-- The words of what a counting loop starts with are the start and a semicolon, also where there is no
start. -/
theorem Stmt.exists_initWords {init? : Option Stmt} (hinit : init?.all Stmt.isInit = true)
    (h : Stmt.optionWellFormed init? = true) :
    ∃ us, Stmt.initWords init? = us ++ [fixed .semicolon] ∧ Perhaps ForInit.Derives us init? := by
  cases init? with
  | none => exact ⟨[], by simp [initWords], .none⟩
  | some first =>
    cases first with
    | declaration declared =>
      simp only [optionWellFormed, wellFormed] at h
      exact ⟨_, by rw [initWords, words], .some (.declaration (Declaration.derives_words h))⟩
    | assignment assigned =>
      simp only [optionWellFormed, wellFormed] at h
      exact ⟨_, by rw [initWords, words], .some (.assignment (Assignment.derives_words h))⟩
    | _ => cases hinit

/-- The header of a counting loop is derived from what is written between the parentheses. -/
theorem Stmt.forHeader_words {init? : Option Stmt} {test? : Option Condition}
    {step? : Option Assignment} (hinit : init?.all Stmt.isInit = true)
    (hfirst : Stmt.optionWellFormed init? = true) (htest : test?.all Condition.wellFormed = true)
    (hstep : step?.all Assignment.wellFormed = true) :
    ForHeader.Derives
      (Stmt.initWords init? ++ test?.elim [] Condition.words
        ++ fixed .semicolon :: step?.elim [] Assignment.words) init? test? step? := by
  obtain ⟨us, hus, hderives⟩ := Stmt.exists_initWords hinit hfirst
  have := ForHeader.Derives.mk hderives (s := fixed .semicolon) rfl
    (Perhaps.of_elim (fun _ => Condition.derives_words) htest) (t := fixed .semicolon) rfl
    (Perhaps.of_elim (fun _ => Assignment.derives_words) hstep)
  simpa [hus] using this

/-- A block that is derived as a statement is derived as a block. -/
theorem Stmt.Derives.of_compound {omission : Omission} {us : List Word} {body : Block} {next : Kind}
    (h : Stmt.Derives omission us (.compound body) next) : Block.Derives omission us body := by
  cases h with
  | compound h => exact h

mutual

/-- A well-formed statement is derived from its words, whatever follows, because a semicolon ends it. -/
theorem Stmt.derives_words : ∀ stmt : Stmt, stmt.wellFormed = true → ∀ next : Kind,
    stmt.Derives .settled stmt.words next
  | .declaration declared, h, next => by
    simp only [wellFormed] at h
    rw [words]
    exact .declaration (Declaration.derives_words h) (.semicolon rfl)
  | .assignment assigned, h, next => by
    simp only [wellFormed] at h
    rw [words]
    exact .assignment (Assignment.derives_words h) (.semicolon rfl)
  | .ifElse test body other?, h, next => by
    simp only [wellFormed, Bool.and_eq_true] at h
    obtain ⟨⟨⟨htest, hbody⟩, hbranch⟩, hother⟩ := h
    have hblock := Block.Derives.mk (w := fixed .openCurly) rfl (Stmt.inside_insideWords body hbody)
    have hcondition := Condition.derives_words htest
    have hderives := Stmt.option_derives_words other? hother
    rw [words]
    cases other? with
    | none => simpa [otherwiseWords] using .ifThen (w := fixed .ifWord) rfl hcondition hblock
    | some stmt =>
      -- a block and a further condition are the only other branches, and each is written in its own way
      rw [otherwiseWords]
      cases stmt with
      | compound other =>
        exact .ifElse rfl hcondition hblock rfl (hderives _ rfl next).of_compound
      | ifElse test' body' other'? =>
        exact .ifElseIf rfl hcondition hblock rfl (hderives _ rfl next)
      | _ => cases hbranch
  | .whileLoop test body, h, next => by
    simp only [wellFormed, Bool.and_eq_true] at h
    rw [words]
    exact .whileLoop rfl (Condition.derives_words h.1) (.mk rfl (Stmt.inside_insideWords body h.2))
  | .forLoop init? test? step? body, h, next => by
    simp only [wellFormed, Bool.and_eq_true] at h
    obtain ⟨⟨⟨⟨hinit, hfirst⟩, htest⟩, hstep⟩, hbody⟩ := h
    -- the header is written in parentheses, whichever of its parts are there
    have hheader := Stmt.forHeader_words hinit hfirst htest hstep
    have hblock := Block.Derives.mk (w := fixed .openCurly) rfl (Stmt.inside_insideWords body hbody)
    rw [words]
    exact .forLoopParenthesised rfl rfl hheader rfl hblock
  | .call callee args, h, next => by
    simp only [wellFormed, Bool.and_eq_true] at h
    rw [words]
    exact .call rfl (.mk rfl (Expr.inside_argumentWords h.2)) (.semicolon rfl)
  | .ret value?, h, next => by
    simp only [wellFormed] at h
    rw [words]
    cases value? with
    | none => exact .ret rfl (.semicolon rfl) (by simp)
    | some value => exact .retValue rfl (Expr.derives_words h) (.semicolon rfl)
  | .compound body, h, next => by
    simp only [wellFormed] at h
    rw [words]
    exact .compound (.mk rfl (Stmt.inside_insideWords body h))
  | .empty, _, next => by
    rw [words]
    exact .empty rfl
  | .unknown found, h, next => by simp [wellFormed] at h

/-- Statements of the language are derived from their words up to the bracket that closes their block. -/
theorem Stmt.inside_insideWords : ∀ body : List Stmt, Stmt.allWellFormed body = true →
    Block.Inside .settled (Stmt.insideWords body) body
  | [], _ => by
    rw [insideWords]
    exact .close rfl
  | stmt :: body, h => by
    simp only [allWellFormed, Bool.and_eq_true] at h
    rw [insideWords]
    exact .more (Stmt.derives_words stmt h.1 _) (Stmt.inside_insideWords body h.2)

/-- A statement of the language that is there is derived from its words, whatever follows them. -/
theorem Stmt.option_derives_words : ∀ stmt? : Option Stmt, Stmt.optionWellFormed stmt? = true →
    ∀ stmt, stmt? = some stmt → ∀ next : Kind, stmt.Derives .settled stmt.words next
  | none, _, stmt, hstmt, _ => by cases hstmt
  | some stmt, h, _, rfl, next => by
    simp only [optionWellFormed] at h
    exact Stmt.derives_words stmt h next

end

/-- An item of the language is derived from its words. -/
theorem Item.derives_words {item : Item} (h : item.wellFormed = true) :
    item.Derives .settled item.words := by
  cases item with
  | importFile path => exact .importFile rfl rfl (.present rfl)
  | declaration declared => exact .declaration (Declaration.derives_words h) (.present rfl)
  | function type name params body =>
    simp only [wellFormed, Bool.and_eq_true, Bool.not_eq_true'] at h
    obtain ⟨⟨⟨htype, -⟩, hparams⟩, hbody⟩ := h
    exact .function (DataType.spelled_of_known htype) rfl
      (.mk rfl (Declaration.inside_parameterWords hparams))
      (.mk rfl (Stmt.inside_insideWords body hbody))
  | entry body => exact .entry rfl (.mk rfl (Stmt.inside_insideWords body h))

/-- A program of the language is derived from its words, in the grammar that leaves out nothing that the
next word would supply. -/
theorem Program.derives_words {items : Program} (h : Program.wellFormed items = true) :
    Program.Derives .settled (Program.words items) items := by
  induction items with
  | nil => exact .nil
  | cons item items ih =>
    simp only [wellFormed, List.all_cons, Bool.and_eq_true] at h
    exact .cons (Item.derives_words h.1) (ih h.2)

/-! ### The words of well-formed programs are readable -/

/-- A name that is not reserved is read as an identifier with its own text. -/
theorem Word.readable_name {name : String} (h : isName name = true) :
    Readable ⟨.identifier, name⟩ := by
  simp only [isName, Bool.and_eq_true, Option.isNone_iff_eq_none] at h
  exact readable_of_isWord h.1 (by rw [h.2]; rfl) (by decide)

/-- The name of a known type is read as the keyword of the type. -/
theorem DataType.readable_name {type : DataType} (h : type.isUnknown = false) :
    Readable ⟨.typeKeyword, type.name⟩ := by
  cases type with
  | unknown text => cases h
  | int | char | bool | byte =>
    exact Word.readable_of_isWord (by decide) (by decide) (by decide)

/-- The word of an operand is readable: a name as it is, and a literal with any text in quotes. -/
theorem Operand.readable_word {value : Operand} (h : value.wellFormed = true) :
    Readable value.word := by
  cases value with
  | identifier name => exact Word.readable_name h
  | literal text => exact Word.readable_literal text
  | missing found => cases h

/-- The symbol of an operator with a meaning is read as that of an operator. -/
theorem MathOp.readable_symbol {op : MathOp} (h : op.wellFormed = true) :
    Readable ⟨.mathOp, op.symbol⟩ := by
  apply Word.readable_arithmetic
  cases op with
  | unknown symbol => cases h
  | add | sub | mul | div => simp [symbol]

/-- The symbol of a comparison with a meaning is read as that of a comparison. -/
theorem CompareOp.readable_symbol {op : CompareOp} (h : op.wellFormed = true) :
    Readable ⟨.compareOp, op.symbol⟩ := by
  apply Word.readable_comparison
  cases op with
  | unknown symbol => cases h
  | equals => simp [symbol]

/-- All words of a list are readable, so that they can be written with spaces between them. -/
def Word.AllReadable (words : List Word) : Prop :=
  ∀ word ∈ words, Readable word

open Word (AllReadable)

/-- Where there are no words, all of them are readable. -/
@[simp]
theorem Word.allReadable_nil : AllReadable [] := by
  simp [AllReadable]

/-- All words of a list are readable if the first one and all the others are. -/
@[simp]
theorem Word.allReadable_cons {word : Word} {words : List Word} :
    AllReadable (word :: words) ↔ Readable word ∧ AllReadable words := by
  simp [AllReadable]

/-- The words of two lists in a row are readable exactly if those of both are. -/
@[simp]
theorem Word.allReadable_append {us vs : List Word} :
    AllReadable (us ++ vs) ↔ AllReadable us ∧ AllReadable vs :=
  List.forall_mem_append

attribute [local simp] Kind.hasValue

/-- The words of an expression of the language are readable. -/
theorem Expr.readable_words {value : Expr} (h : value.wellFormed = true) :
    AllReadable value.words := by
  induction value with
  | operand value => simp [words, Operand.readable_word h]
  | binary op left right ih =>
    simp only [wellFormed, Bool.and_eq_true] at h
    obtain ⟨⟨hop, hleft⟩, hright⟩ := h
    simp [words, Operand.readable_word hleft, MathOp.readable_symbol hop, ih hright]

/-- The words of a condition of the language are readable. -/
theorem Condition.readable_words {test : Condition} (h : test.wellFormed = true) :
    AllReadable test.words := by
  cases test with
  | operand value => simp [words, Operand.readable_word h]
  | compare op left right =>
    simp only [wellFormed, Bool.and_eq_true] at h
    obtain ⟨⟨hop, hleft⟩, hright⟩ := h
    simp [words, Operand.readable_word hleft, CompareOp.readable_symbol hop,
      Operand.readable_word hright]

/-- The words of arguments of the language are readable, the commas and the parenthesis included. -/
theorem Expr.readable_argumentWords {args : List Expr} (h : args.all Expr.wellFormed = true) :
    AllReadable (argumentWords args) := by
  fun_induction argumentWords args with
  | case1 => simp
  | case2 arg =>
    simp only [List.all_cons, List.all_nil, Bool.and_true] at h
    simp [readable_words h]
  | case3 arg next args ih =>
    rw [List.all_cons, Bool.and_eq_true] at h
    simp [readable_words h.1, ih h.2]

/-- The words of an assignment of the language are readable. -/
theorem Assignment.readable_words {assigned : Assignment} (h : assigned.wellFormed = true) :
    AllReadable assigned.words := by
  simp only [wellFormed, Bool.and_eq_true] at h
  simp [words, Word.readable_name h.1, Expr.readable_words h.2]

/-- The words of a declaration of the language are readable, with a first value or without. -/
theorem Declaration.readable_words {declared : Declaration} (h : declared.wellFormed = true) :
    AllReadable declared.words := by
  obtain ⟨type, name, init?⟩ := declared
  simp only [wellFormed, Bool.and_eq_true, Bool.not_eq_true'] at h
  obtain ⟨⟨htype, hname⟩, hinit⟩ := h
  cases init? with
  | none => simp [words, DataType.readable_name htype, Word.readable_name hname]
  | some value =>
    have hfirst : (⟨name, value⟩ : Assignment).wellFormed = true := by
      simpa [Assignment.wellFormed, hname] using hinit
    simp [words, DataType.readable_name htype, Assignment.readable_words hfirst]

/-- The words of parameters of the language are readable, the commas and the parenthesis included. -/
theorem Declaration.readable_parameterWords {params : List Declaration}
    (h : params.all Declaration.wellFormed = true) : AllReadable (parameterWords params) := by
  fun_induction parameterWords params with
  | case1 => simp
  | case2 param =>
    simp only [List.all_cons, List.all_nil, Bool.and_true] at h
    simp [readable_words h]
  | case3 param next params ih =>
    rw [List.all_cons, Bool.and_eq_true] at h
    simp [readable_words h.1, ih h.2]

/-- The words of a part that may be missing are readable if those of every such part are. -/
theorem Word.allReadable_elim {α : Type} {wellFormed : α → Bool} {words : α → List Word}
    (hwords : ∀ part, wellFormed part = true → AllReadable (words part)) {part? : Option α}
    (h : part?.all wellFormed = true) : AllReadable (part?.elim [] words) := by
  cases part? with
  | none => exact allReadable_nil
  | some part => exact hwords part h

mutual

/-- The words of a statement of the language are readable. The induction is on the statement. -/
theorem Stmt.readable_words : ∀ stmt : Stmt, stmt.wellFormed = true → AllReadable stmt.words
  | .declaration declared, h => by
    simp only [wellFormed] at h
    simp [words, Declaration.readable_words h]
  | .assignment assigned, h => by
    simp only [wellFormed] at h
    simp [words, Assignment.readable_words h]
  | .ifElse test body other?, h => by
    simp only [wellFormed, Bool.and_eq_true] at h
    obtain ⟨⟨⟨htest, hbody⟩, -⟩, hother⟩ := h
    simp [words, Condition.readable_words htest, Stmt.readable_insideWords body hbody,
      (Stmt.readable_optionWords other? hother).1]
  | .whileLoop test body, h => by
    simp only [wellFormed, Bool.and_eq_true] at h
    simp [words, Condition.readable_words h.1, Stmt.readable_insideWords body h.2]
  | .forLoop init? test? step? body, h => by
    simp only [wellFormed, Bool.and_eq_true] at h
    obtain ⟨⟨⟨⟨-, hinit⟩, htest⟩, hstep⟩, hbody⟩ := h
    have htest := Word.allReadable_elim (fun _ => Condition.readable_words) htest
    have hstep := Word.allReadable_elim (fun _ => Assignment.readable_words) hstep
    simp [words, (Stmt.readable_optionWords init? hinit).2, htest, hstep,
      Stmt.readable_insideWords body hbody]
  | .call callee args, h => by
    simp only [wellFormed, Bool.and_eq_true] at h
    simp [words, Word.readable_name h.1, Expr.readable_argumentWords h.2]
  | .ret value?, h => by
    simp only [wellFormed] at h
    simp [words, Word.allReadable_elim (fun _ => Expr.readable_words) h]
  | .compound body, h => by
    simp only [wellFormed] at h
    simp [words, Stmt.readable_insideWords body h]
  | .empty, _ => by simp [words]
  | .unknown found, h => by simp [wellFormed] at h

/-- The words of the statements of a block are readable, the closing bracket included. -/
theorem Stmt.readable_insideWords : ∀ body : List Stmt, Stmt.allWellFormed body = true →
    AllReadable (Stmt.insideWords body)
  | [], _ => by simp [insideWords]
  | stmt :: body, h => by
    simp only [allWellFormed, Bool.and_eq_true] at h
    simp [insideWords, Stmt.readable_words stmt h.1, Stmt.readable_insideWords body h.2]

/-- The words of a statement that may be missing are readable, both as another branch and as the start of a
loop. -/
theorem Stmt.readable_optionWords : ∀ stmt? : Option Stmt, Stmt.optionWellFormed stmt? = true →
    AllReadable (Stmt.otherwiseWords stmt?) ∧ AllReadable (Stmt.initWords stmt?)
  | none, _ => by simp [otherwiseWords, initWords]
  | some stmt, h => by
    simp only [optionWellFormed] at h
    simp [otherwiseWords, initWords, Stmt.readable_words stmt h]

end

/-- The words of an item of the language are readable. -/
theorem Item.readable_words {item : Item} (h : item.wellFormed = true) : AllReadable item.words := by
  cases item with
  | importFile path => simp [words, Word.readable_literal]
  | declaration declared => simp [words, Declaration.readable_words h]
  | function type name params body =>
    simp only [wellFormed, Bool.and_eq_true, Bool.not_eq_true'] at h
    obtain ⟨⟨⟨htype, hname⟩, hparams⟩, hbody⟩ := h
    simp [words, Block.words, DataType.readable_name htype, Word.readable_name hname,
      Declaration.readable_parameterWords hparams, Stmt.readable_insideWords body hbody]
  | entry body => simp [words, Block.words, Stmt.readable_insideWords body h]

/-- The words of a program of the language are readable, so that what is printed is cut into them again. -/
theorem Program.readable_words {items : Program} (h : Program.wellFormed items = true) :
    AllReadable (Program.words items) := by
  induction items with
  | nil => simp [words]
  | cons item items ih =>
    simp only [wellFormed, List.all_cons, Bool.and_eq_true] at h
    have hitems : AllReadable (items.flatMap Item.words) := ih h.2
    simp [words, Item.readable_words h.1, hitems]

/-! ### Reading what is printed -/

/-- A stream of solid words and an end token has just these words. -/
theorem Token.words_of_map {tokens : List Token} {us : List Word} (hus : Word.Solid us)
    (h : tokens.map Token.word = us ++ [⟨.endOfInput, "EOF"⟩]) : Token.words tokens = us := by
  have hpredicate : (fun token : Token => decide (token.kind ≠ .endOfInput)) =
      (fun word : Word => decide (word.kind ≠ .endOfInput)) ∘ Token.word := rfl
  rw [Token.words, hpredicate, ← List.takeWhile_map, h,
    List.takeWhile_append_of_pos (by simpa [Word.Solid] using hus)]
  simp

/-- A well-formed program is read again from what is printed, without a diagnostic. -/
theorem parse_print {items : Program} (h : Program.wellFormed items = true) (file name : String) :
    ∃ tokens, tokenize (Program.print items) file = .ok tokens ∧
      parse tokens name = (items, []) := by
  have hderives := Program.derives_words h
  obtain ⟨tokens, hok, hwords⟩ := Word.tokenize_text (Program.readable_words h) file
  refine ⟨tokens, hok, Program.Derives.parse_eq name ?_⟩
  rwa [Token.words_of_map hderives.solid hwords]

/-- A program with an import, a function and an entry, with quotes, backslashes and a newline in its
literals. -/
theorem parse_print_sample :
    let items : Program :=
      [.importFile "a \"b\"",
       .function .int "f" [⟨.int, "x", none⟩, ⟨.bool, "y", some (.operand (.literal "true"))⟩]
         [.ret (some (.binary .add (.identifier "x") (.operand (.literal "\\\n"))))],
       .entry
         [.forLoop (some (.assignment ⟨"i", .operand (.literal "0")⟩)) none none
            [.call "f" [.operand (.identifier "i"), .operand (.literal "")], .empty],
          .ifElse (.compare .equals (.identifier "i") (.literal "1")) [.ret none]
            (some (.ifElse (.operand (.identifier "i")) [] (some (.compound []))))]]
    Program.wellFormed items = true ∧
      ∃ tokens, tokenize (Program.print items) "shell" = .ok tokens ∧
        parse tokens "shell" = (items, []) :=
  ⟨by decide, parse_print (by decide) "shell" "shell"⟩

end BraceLang
