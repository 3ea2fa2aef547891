import BraceLang.Proofs.Ahead

/-!
# The grammar

What words make up a program, and which program, independently of how it is read. A part of a program is
derived from a list of words, and the parts of the grammar are:

* `program: item*`, where an item is a function `type Identifier params block`, a declaration `decl ';'?`,
  a block `Entry block` or an import `Import Literal ';'?`;
* `params: '(' (decl ','?)* ')'`, `decl: type ':' Identifier ('=' expr)?`;
* `expr: operand | operand op expr`, `cond: operand ('==' operand)?`, bare or in parentheses,
  `args: '(' ')' | '(' expr (',' expr)* ','? ')'`;
* `block: '{' stmt* '}'`, where a statement is `';'`, a block, a declaration, an assignment, a call or a
  return, each with `';'?`, a condition, or a loop.

Lists are derived from the left, together with the bracket that closes them. What may be left out of a
statement is a parameter of the grammar: under `Omission.free` everything optional may be left out anywhere,
and under `Omission.settled` a part that the next word would continue may not.
-/

set_option autoImplicit false

namespace BraceLang

/-- Before which kinds of words parts of a statement may be left out. -/
structure Omission where
  /-- The semicolon after a statement. -/
  semicolon : Kind → Prop
  /-- The value of a return that has no semicolon either. -/
  value : Kind → Prop

/-- The grammar in which everything optional may be left out anywhere, whatever word follows. -/
def Omission.free : Omission :=
  ⟨fun _ => True, fun _ => True⟩

/-- A semicolon is left out only where none follows, and value and semicolon of a return only where its
block ends. -/
def Omission.settled : Omission :=
  ⟨fun next => next ≠ .semicolon, fun next => next = .closeCurly ∨ next = .endOfInput⟩

/-- What ends a statement before a word of kind `next`. -/
inductive Omission.Ends (omission : Omission) : List Word → Kind → Prop
  | semicolon {w : Word} {next : Kind} (hw : w.kind = .semicolon) : omission.Ends [w] next
  | nothing {next : Kind} (h : omission.semicolon next) : omission.Ends [] next

/-- A word of the given kind, or nothing in its place. -/
inductive Word.Optional (kind : Kind) : List Word → Prop
  | absent : Optional kind []
  | present {w : Word} (hw : w.kind = kind) : Optional kind [w]

/-- A part of a program that `derives` describes, or nothing in its place. -/
inductive Word.Perhaps {α : Type} (derives : List Word → α → Prop) : List Word → Option α → Prop
  | none : Perhaps derives [] none
  | some {us : List Word} {part : α} (h : derives us part) : Perhaps derives us (some part)

open Word (Optional Perhaps)

/-! ### Types, expressions and conditions -/

/-- A word spells a type if it is a type keyword and the table of keywords has the type at its text. -/
structure DataType.Spelled (word : Word) (type : DataType) : Prop where
  kind : word.kind = .typeKeyword
  keyword : (word.value, type) ∈ DataType.keywords

/-- A word spells an operator with a meaning if the table of symbols has the operator at its text. -/
structure MathOp.Spelled (word : Word) (op : MathOp) : Prop where
  kind : word.kind = .mathOp
  symbol : (word.value, op) ∈ MathOp.symbols

/-- A word spells an operand if it is a name or a literal, and its text is the text of the operand. -/
inductive Operand.Spelled : Word → Operand → Prop
  | identifier {w : Word} (hw : w.kind = .identifier) : Spelled w (.identifier w.value)
  | literal {w : Word} (hw : w.kind = .literal) : Spelled w (.literal w.value)

/-- The keywords are the words that a known type is found by, so that the table and the search in it say the
same. -/
theorem DataType.mem_keywords_iff {text : String} {type : DataType} :
    (text, type) ∈ keywords ↔ ofKeyword text = type ∧ type.isUnknown = false := by
  constructor
  · intro h
    simp only [keywords, List.mem_cons, List.not_mem_nil, or_false, Prod.mk.injEq] at h
    rcases h with ⟨rfl, rfl⟩ | ⟨rfl, rfl⟩ | ⟨rfl, rfl⟩ | ⟨rfl, rfl⟩ <;> decide
  · rintro ⟨rfl, hknown⟩
    unfold ofKeyword at hknown ⊢
    cases hlookup : keywords.lookup text with
    | none => simp [hlookup, isUnknown] at hknown
    | some type =>
      obtain ⟨front, back, hsplit, -⟩ := List.lookup_eq_some_iff.1 hlookup
      simp [hsplit]

/-- The symbols are the words that an operator with a meaning is found by, so that no other word has one. -/
theorem MathOp.mem_symbols_iff {text : String} {op : MathOp} :
    (text, op) ∈ symbols ↔ ofSymbol text = op ∧ ∀ symbol, op ≠ .unknown symbol := by
  constructor
  · intro h
    simp only [symbols, List.mem_cons, List.not_mem_nil, or_false, Prod.mk.injEq] at h
    rcases h with ⟨rfl, rfl⟩ | ⟨rfl, rfl⟩ | ⟨rfl, rfl⟩ | ⟨rfl, rfl⟩ <;> exact ⟨by decide, by simp⟩
  · rintro ⟨rfl, hknown⟩
    unfold ofSymbol at hknown ⊢
    cases hlookup : symbols.lookup text with
    | none => simp [hlookup] at hknown
    | some op =>
      obtain ⟨front, back, hsplit, -⟩ := List.lookup_eq_some_iff.1 hlookup
      simp [hsplit]

/-- Two equals signs are the one comparison with a meaning. -/
theorem CompareOp.ofSymbol_eq_equals_iff {text : String} : ofSymbol text = .equals ↔ text = "==" := by
  unfold ofSymbol
  split <;> simp_all

/-- An expression is operands with an operator between any two. Everything behind an operator is its right
side. -/
inductive Expr.Derives : List Word → Expr → Prop
  | operand {w : Word} {value : Operand} (hw : value.Spelled w) : Derives [w] (.operand value)
  | binary {w s : Word} {left : Operand} {op : MathOp} {us : List Word} {right : Expr}
      (hw : left.Spelled w) (hs : op.Spelled s) (hright : Derives us right) :
      Derives (w :: s :: us) (.binary op left right)

/-- A condition without parentheses is an operand, or two operands with two equals signs between them. -/
inductive Condition.Bare : List Word → Condition → Prop
  | operand {w : Word} {value : Operand} (hw : value.Spelled w) : Bare [w] (.operand value)
  | compare {w s v : Word} {left right : Operand} (hw : left.Spelled w) (hs : s.kind = .compareOp)
      (hequals : s.value = "==") (hv : right.Spelled v) : Bare [w, s, v] (.compare .equals left right)

/-- A condition may stand in one pair of parentheses or without any. -/
inductive Condition.Derives : List Word → Condition → Prop
  | bare {us : List Word} {condition : Condition} (h : condition.Bare us) : Derives us condition
  | parenthesised {w v : Word} {us : List Word} {condition : Condition} (hw : w.kind = .openParen)
      (h : condition.Bare us) (hv : v.kind = .closeParen) : Derives (w :: us ++ [v]) condition

/-- Arguments up to the closing parenthesis, with a comma behind each. Behind the last one it may be left
out. -/
inductive Arguments.Inside : List Word → List Expr → Prop
  | close {w : Word} (hw : w.kind = .closeParen) : Inside [w] []
  | last {us : List Word} {arg : Expr} {w : Word} (harg : arg.Derives us)
      (hw : w.kind = .closeParen) : Inside (us ++ [w]) [arg]
  | more {us vs : List Word} {arg : Expr} {w : Word} {args : List Expr} (harg : arg.Derives us)
      (hw : w.kind = .comma) (hargs : Inside vs args) : Inside (us ++ w :: vs) (arg :: args)

/-- The arguments of a call stand in parentheses, also where there are none. -/
inductive Arguments.Derives : List Word → List Expr → Prop
  | mk {w : Word} {us : List Word} {args : List Expr} (hw : w.kind = .openParen)
      (h : Arguments.Inside us args) : Derives (w :: us) args

/-! ### Declarations and assignments -/

/-- An assignment is the name of a variable, an equals sign and the new value. -/
inductive Assignment.Derives : List Word → Assignment → Prop
  | mk {name equals : Word} {us : List Word} {value : Expr} (hname : name.kind = .identifier)
      (hequals : equals.kind = .assignment) (hvalue : value.Derives us) :
      Derives (name :: equals :: us) ⟨name.value, value⟩

/-- A type, a colon and a variable, with or without a first value. -/
inductive Declaration.Derives : List Word → Declaration → Prop
  | plain {t colon name : Word} {type : DataType} (ht : type.Spelled t) (hcolon : colon.kind = .confirm)
      (hname : name.kind = .identifier) : Derives [t, colon, name] ⟨type, name.value, none⟩
  | valued {t colon : Word} {type : DataType} {us : List Word} {first : Assignment}
      (ht : type.Spelled t) (hcolon : colon.kind = .confirm) (hfirst : first.Derives us) :
      Derives (t :: colon :: us) ⟨type, first.target, some first.value⟩

/-- Parameters up to the closing parenthesis, where the comma behind any of them may be left out. -/
inductive Parameters.Inside : List Word → List Declaration → Prop
  | close {w : Word} (hw : w.kind = .closeParen) : Inside [w] []
  | more {us comma vs : List Word} {param : Declaration} {params : List Declaration}
      (hparam : param.Derives us) (hcomma : Optional .comma comma) (hparams : Inside vs params) :
      Inside (us ++ comma ++ vs) (param :: params)

/-- The parameters of a function stand in parentheses, also where there are none. -/
inductive Parameters.Derives : List Word → List Declaration → Prop
  | mk {w : Word} {us : List Word} {params : List Declaration} (hw : w.kind = .openParen)
      (h : Parameters.Inside us params) : Derives (w :: us) params

/-- A counting loop starts with a declaration or with an assignment, and its semicolon is not part of
either. -/
inductive ForInit.Derives : List Word → Stmt → Prop
  | declaration {us : List Word} {first : Declaration} (h : first.Derives us) :
      Derives us (.declaration first)
  | assignment {us : List Word} {first : Assignment} (h : first.Derives us) :
      Derives us (.assignment first)

/-- The three parts of the header of a counting loop, any of which may be left out. The semicolons between
them may not. -/
inductive ForHeader.Derives :
    List Word → Option Stmt → Option Condition → Option Assignment → Prop
  | mk {us vs ws : List Word} {s t : Word} {init? : Option Stmt} {condition? : Option Condition}
      {step? : Option Assignment} (hinit : Perhaps ForInit.Derives us init?)
      (hs : s.kind = .semicolon) (hcondition : Perhaps Condition.Derives vs condition?)
      (ht : t.kind = .semicolon) (hstep : Perhaps Assignment.Derives ws step?) :
      Derives (us ++ s :: (vs ++ t :: ws)) init? condition? step?

/-! ### Statements -/

mutual

/-- The words of a statement that stands before a word of kind `next`, which decides what may be left out at
its end. -/
inductive Stmt.Derives (omission : Omission) : List Word → Stmt → Kind → Prop
  | empty {w : Word} {next : Kind} (hw : w.kind = .semicolon) :
      Stmt.Derives omission [w] .empty next
  | compound {us : List Word} {body : Block} {next : Kind} (hbody : Block.Derives omission us body) :
      Stmt.Derives omission us (.compound body) next
  | declaration {us ending : List Word} {declared : Declaration} {next : Kind}
      (h : declared.Derives us) (hend : omission.Ends ending next) :
      Stmt.Derives omission (us ++ ending) (.declaration declared) next
  | assignment {us ending : List Word} {assigned : Assignment} {next : Kind}
      (h : assigned.Derives us) (hend : omission.Ends ending next) :
      Stmt.Derives omission (us ++ ending) (.assignment assigned) next
  | call {name : Word} {us ending : List Word} {args : List Expr} {next : Kind}
      (hname : name.kind = .identifier) (hargs : Arguments.Derives us args)
      (hend : omission.Ends ending next) :
      Stmt.Derives omission (name :: us ++ ending) (.call name.value args) next
  | ret {w : Word} {ending : List Word} {next : Kind} (hw : w.kind = .returnWord)
      (hend : omission.Ends ending next) (hvalue : ending = [] → omission.value next) :
      Stmt.Derives omission (w :: ending) (.ret none) next
  | retValue {w : Word} {us ending : List Word} {value : Expr} {next : Kind}
      (hw : w.kind = .returnWord) (hvalue : value.Derives us) (hend : omission.Ends ending next) :
      Stmt.Derives omission (w :: us ++ ending) (.ret (some value)) next
  | ifThen {w : Word} {us vs : List Word} {test : Condition} {body : Block} {next : Kind}
      (hw : w.kind = .ifWord) (htest : test.Derives us) (hbody : Block.Derives omission vs body) :
      Stmt.Derives omission (w :: us ++ vs) (.ifElse test body none) next
  | ifElse {w v : Word} {us vs ws : List Word} {test : Condition} {body other : Block} {next : Kind}
      (hw : w.kind = .ifWord) (htest : test.Derives us) (hbody : Block.Derives omission vs body)
      (hv : v.kind = .elseWord) (hother : Block.Derives omission ws other) :
      Stmt.Derives omission (w :: us ++ vs ++ v :: ws)
        (.ifElse test body (some (.compound other))) next
  | ifElseIf {w v : Word} {us vs ws : List Word} {test test' : Condition} {body body' : Block}
      {other? : Option Stmt} {next : Kind} (hw : w.kind = .ifWord) (htest : test.Derives us)
      (hbody : Block.Derives omission vs body) (hv : v.kind = .elseWord)
      (hother : Stmt.Derives omission ws (.ifElse test' body' other?) next) :
      Stmt.Derives omission (w :: us ++ vs ++ v :: ws)
        (.ifElse test body (some (.ifElse test' body' other?))) next
  | whileLoop {w : Word} {us vs : List Word} {test : Condition} {body : Block} {next : Kind}
      (hw : w.kind = .whileWord) (htest : test.Derives us)
      (hbody : Block.Derives omission vs body) :
      Stmt.Derives omission (w :: us ++ vs) (.whileLoop test body) next
  | forLoop {w : Word} {us vs : List Word} {init? : Option Stmt} {condition? : Option Condition}
      {step? : Option Assignment} {body : Block} {next : Kind} (hw : w.kind = .forWord)
      (hheader : ForHeader.Derives us init? condition? step?)
      (hbody : Block.Derives omission vs body) :
      Stmt.Derives omission (w :: us ++ vs) (.forLoop init? condition? step? body) next
  | forLoopParenthesised {w left right : Word} {us vs : List Word} {init? : Option Stmt}
      {condition? : Option Condition} {step? : Option Assignment} {body : Block} {next : Kind}
      (hw : w.kind = .forWord) (hleft : left.kind = .openParen)
      (hheader : ForHeader.Derives us init? condition? step?) (hright : right.kind = .closeParen)
      (hbody : Block.Derives omission vs body) :
      Stmt.Derives omission (w :: left :: us ++ right :: vs)
        (.forLoop init? condition? step? body) next

/-- A block is an opening bracket and what is inside it, the closing bracket included. -/
inductive Block.Derives (omission : Omission) : List Word → Block → Prop
  | mk {w : Word} {us : List Word} {body : Block} (hw : w.kind = .openCurly)
      (h : Block.Inside omission us body) : Block.Derives omission (w :: us) body

/-- Statements up to the closing bracket of a block. What a statement stands before is the first word behind
it. -/
inductive Block.Inside (omission : Omission) : List Word → Block → Prop
  | close {w : Word} (hw : w.kind = .closeCurly) : Block.Inside omission [w] []
  | more {us vs : List Word} {stmt : Stmt} {body : Block}
      (hstmt : Stmt.Derives omission us stmt (Word.firstKind vs))
      (hbody : Block.Inside omission vs body) : Block.Inside omission (us ++ vs) (stmt :: body)

end

/-! ### First words -/

/-- The kind of the word that a statement starts with. There is none for what is no statement. -/
def Stmt.startKind : Stmt → Kind
  | declaration _ => .typeKeyword
  | assignment _ | call _ _ => .identifier
  | ifElse _ _ _ => .ifWord
  | whileLoop _ _ => .whileWord
  | forLoop _ _ _ _ => .forWord
  | ret _ => .returnWord
  | compound _ => .openCurly
  | empty => .semicolon
  | unknown _ => .endOfInput

/-- An assignment starts with a name, whatever follows it. -/
theorem Assignment.Derives.firstKind_eq {us : List Word} {assigned : Assignment}
    (h : assigned.Derives us) (rest : List Word) :
    Word.firstKind (us ++ rest) = .identifier := by
  cases h with
  | mk hname => exact hname

/-- A declaration starts with the keyword of its type, whatever follows it. -/
theorem Declaration.Derives.firstKind_eq {us : List Word} {declared : Declaration}
    (h : declared.Derives us) (rest : List Word) :
    Word.firstKind (us ++ rest) = .typeKeyword := by
  cases h with
  | plain ht => exact ht.kind
  | valued ht => exact ht.kind

/-- A block starts with its opening bracket, whatever follows it. -/
theorem Block.Derives.firstKind_eq {omission : Omission} {us : List Word} {body : Block}
    (h : Block.Derives omission us body) (rest : List Word) :
    Word.firstKind (us ++ rest) = .openCurly := by
  cases h with
  | mk hw => exact hw

/-- A statement starts with a word of its own kind, by which it is told from most other statements. -/
theorem Stmt.Derives.firstKind_eq {omission : Omission} {us : List Word} {stmt : Stmt} {next : Kind}
    (h : stmt.Derives omission us next) (rest : List Word) :
    Word.firstKind (us ++ rest) = stmt.startKind := by
  cases h with
  | empty hw => exact hw
  | compound hbody => exact hbody.firstKind_eq rest
  | declaration h hend => rw [List.append_assoc]; exact h.firstKind_eq _
  | assignment h hend => rw [List.append_assoc]; exact h.firstKind_eq _
  | call hname => exact hname
  | ret hw => exact hw
  | retValue hw => exact hw
  | ifThen hw => exact hw
  | ifElse hw => exact hw
  | ifElseIf hw => exact hw
  | whileLoop hw => exact hw
  | forLoop hw => exact hw
  | forLoopParenthesised hw => exact hw

/-- What is inside a block ends with its closing bracket, so there is something. -/
theorem Block.Inside.ne_nil {omission : Omission} {us : List Word} {body : Block} :
    Block.Inside omission us body → us ≠ []
  | .close _ => List.cons_ne_nil _ _
  | .more _ hbody => by simp [hbody.ne_nil]

/-! ### Items and programs -/

/-- The words of an item at the top level: a function, a declaration, the entry point or an import. -/
inductive Item.Derives (omission : Omission) : List Word → Item → Prop
  | function {t name : Word} {us vs : List Word} {type : DataType} {params : List Declaration}
      {body : Block} (ht : type.Spelled t) (hname : name.kind = .identifier)
      (hparams : Parameters.Derives us params) (hbody : Block.Derives omission vs body) :
      Derives omission (t :: name :: us ++ vs) (.function type name.value params body)
  | declaration {us ending : List Word} {declared : Declaration} (h : declared.Derives us)
      (hend : Optional .semicolon ending) :
      Derives omission (us ++ ending) (.declaration declared)
  | entry {w : Word} {us : List Word} {body : Block} (hw : w.kind = .entryWord)
      (hbody : Block.Derives omission us body) : Derives omission (w :: us) (.entry body)
  | importFile {w path : Word} {ending : List Word} (hw : w.kind = .importWord)
      (hpath : path.kind = .literal) (hend : Optional .semicolon ending) :
      Derives omission (w :: path :: ending) (.importFile path.value)

/-- A program is items in a row, with nothing between them. -/
inductive Program.Derives (omission : Omission) : List Word → Program → Prop
  | nil : Derives omission [] []
  | cons {us vs : List Word} {item : Item} {program : Program} (hitem : item.Derives omission us)
      (h : Derives omission vs program) : Derives omission (us ++ vs) (item :: program)

end BraceLang
