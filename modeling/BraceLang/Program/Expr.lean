/-!
# Operators, types, expressions and conditions

The parts of a program below its statements. Reading goes on after a fault, so each type here has room for
what could not be read: an operand that is missing, an operator or a type that is unknown. Those carry the
text that was found.
-/

set_option autoImplicit false

namespace BraceLang

/-- The smallest piece of an expression: a name, a literal or what was found where neither stands. -/
inductive Operand where
  | identifier (name : String)
  | literal (text : String)
  /-- Neither; `found` is the token in its place. -/
  | missing (found : String)
deriving DecidableEq, Inhabited

/-- The text of an operand, of whatever sort: a name, a value or the token that was found. -/
def Operand.text : Operand → String
  | identifier text | literal text | missing text => text

/-- An arithmetic operator. The lexer knows more symbols than have a meaning; the others are kept as they
were found. -/
inductive MathOp where
  | add
  | sub
  | mul
  | div
  | unknown (symbol : String)
deriving DecidableEq, Inhabited

namespace MathOp

/-- The operators with a meaning, by their symbols. Any other symbol is unknown. -/
def symbols : List (String × MathOp) :=
  [("+", add), ("-", sub), ("*", mul), ("/", div)]

/-- The operator that a symbol stands for. It is always one, if only an unknown one with that symbol. -/
def ofSymbol (symbol : String) : MathOp :=
  (symbols.lookup symbol).getD (unknown symbol)

/-- The name of an operator, as trees are labelled by it. It does not tell which symbol was unknown. -/
def tag : MathOp → String
  | add => "add"
  | sub => "sub"
  | mul => "multi"
  | div => "div"
  | unknown _ => "unknown"

end MathOp

/-- A comparison. Only equality has a meaning; the other symbols are kept as they were found. -/
inductive CompareOp where
  | equals
  | unknown (symbol : String)
deriving DecidableEq, Inhabited

namespace CompareOp

/-- The comparison that a symbol stands for, if only an unknown one with that symbol. -/
def ofSymbol (symbol : String) : CompareOp :=
  if symbol = "==" then equals else unknown symbol

/-- The name of a comparison, as trees are labelled by it. It does not tell which symbol was unknown. -/
def tag : CompareOp → String
  | equals => "equals"
  | unknown _ => "unknown"

end CompareOp

/-- A data type of the language, or the text that was found where one has to stand. -/
inductive DataType where
  | int
  | char
  | bool
  | byte
  | unknown (text : String)
deriving DecidableEq, Inhabited

namespace DataType

/-- The data types of the language, by their keywords. Any other text is an unknown type. -/
def keywords : List (String × DataType) :=
  [("int", int), ("char", char), ("bool", bool), ("byte", byte)]

/-- The data type that a keyword stands for, if only an unknown one with that text. -/
def ofKeyword (keyword : String) : DataType :=
  (keywords.lookup keyword).getD (unknown keyword)

/-- The name of a data type, which is its keyword, or one word for all that are unknown. -/
def name : DataType → String
  | int => "int"
  | char => "char"
  | bool => "bool"
  | byte => "byte"
  | unknown _ => "unknown"

/-- Whether the type is not one of the language, which is a fault of the source. -/
def isUnknown : DataType → Bool
  | unknown _ => true
  | _ => false

/-- The name of a data type, with the text found if it is unknown, so that unknown types are told apart. -/
def describe : DataType → String
  | unknown text => "unknown(" ++ text ++ ")"
  | type => type.name

end DataType

/-- An arithmetic expression. All operators bind alike and a chain of them nests to the right, so the left
side of an operator is an operand. -/
inductive Expr where
  | operand (value : Operand)
  | binary (op : MathOp) (left : Operand) (right : Expr)
deriving DecidableEq, Inhabited

namespace Expr

/-- The expression that ends with `last`, after operators with their left sides, the innermost first. -/
def ofSpine (spine : List (MathOp × Operand)) (last : Operand) : Expr :=
  spine.foldl (fun right link => binary link.1 link.2 right) (operand last)

/-- The chain of `first` and the operators of `links` with the operands after them, inside `spine`. -/
def chainInside (spine : List (MathOp × Operand)) (first : Operand) :
    List (MathOp × Operand) → Expr
  | [] => ofSpine spine first
  | (op, second) :: links => chainInside ((op, first) :: spine) second links

/-- The expression that joins `first` and the operands of `links` by the operators before them, as they
stand in a source from left to right. -/
def chain (first : Operand) (links : List (MathOp × Operand)) : Expr :=
  chainInside [] first links

/-- What a chain stands in goes around it from the inside out, so a chain can be read without what is
collected before it. -/
theorem chainInside_eq (spine : List (MathOp × Operand)) (first : Operand)
    (links : List (MathOp × Operand)) :
    chainInside spine first links =
      spine.foldl (fun right link => binary link.1 link.2 right) (chain first links) := by
  induction links generalizing spine first with
  | nil => rfl
  | cons link links ih =>
    obtain ⟨op, second⟩ := link
    rw [chain, chainInside, chainInside, ih, ih [(op, first)]]
    rfl

/-- A chain without operators is its operand, with nothing around it. -/
@[simp]
theorem chain_nil (first : Operand) : chain first [] = operand first := rfl

/-- The first operator of a chain has the rest of the chain on its right, so chains nest to the right. -/
@[simp]
theorem chain_cons (first : Operand) (link : MathOp × Operand) (links : List (MathOp × Operand)) :
    chain first (link :: links) = binary link.1 first (chain link.2 links) := by
  obtain ⟨op, second⟩ := link
  rw [chain, chainInside, chainInside_eq]
  rfl

end Expr

/-- A condition: one comparison, or a bare operand. -/
inductive Condition where
  | operand (value : Operand)
  | compare (op : CompareOp) (left right : Operand)
deriving DecidableEq, Inhabited

end BraceLang
