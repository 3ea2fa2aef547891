import BraceLang.Program.Expr

/-!
# Statements, items and programs

A program is a list of items, which hold statements, which hold expressions. A block is a list of
statements.
-/

set_option autoImplicit false

namespace BraceLang

/-- A variable with its type and, possibly, its first value. A parameter of a function is one too. -/
structure Declaration where
  type : DataType
  name : String
  init? : Option Expr
deriving DecidableEq, Inhabited

/-- A new value for a variable, which is known by its name alone. -/
structure Assignment where
  target : String
  value : Expr
deriving DecidableEq, Inhabited

/-- A statement. Those that hold a block hold it as the list of its statements. -/
inductive Stmt where
  | declaration (declaration : Declaration)
  | assignment (assignment : Assignment)
  /-- A block under a condition. In a source the other branch is a block or a further condition. -/
  | ifElse (condition : Condition) (body : List Stmt) (otherwise? : Option Stmt)
  | whileLoop (condition : Condition) (body : List Stmt)
  /-- A counting loop. In a source it starts with a declaration or an assignment, or with neither. -/
  | forLoop (init? : Option Stmt) (condition? : Option Condition) (step? : Option Assignment)
      (body : List Stmt)
  | call (callee : String) (args : List Expr)
  /-- A return, with or without a value. -/
  | ret (value? : Option Expr)
  | compound (body : List Stmt)
  /-- A semicolon on its own. -/
  | empty
  /-- No statement; `found` is the token in its place. -/
  | unknown (found : String)
deriving Inhabited

/-- A block of statements, in the order of the source and without its brackets. -/
abbrev Block := List Stmt

/-- A top-level item: what a program is a list of. A declaration is one both here and inside a block. -/
inductive Item where
  | importFile (path : String)
  | declaration (declaration : Declaration)
  | function (type : DataType) (name : String) (params : List Declaration) (body : Block)
  /-- The block that a run starts with. -/
  | entry (body : Block)
deriving Inhabited

/-- A program: its items in the order of the source. -/
abbrev Program := List Item

end BraceLang
