import BraceLang.Program
import BraceLang.Tree

/-!
# The trees of programs

Each part of a program becomes a node that is labelled by its sort, with its own parts below it in the
order of the source. A part that is left out has no node.
-/

set_option autoImplicit false

namespace BraceLang

open BraceLang.Tree (branch leaf wrap)

/-- An operand, under a label for its sort. A missing one shows the token that stands in its place. -/
def Operand.toTree : Operand → Tree
  | identifier name => wrap "identifier" (leaf name)
  | literal text => wrap "literal" (leaf text)
  | missing found => wrap "error" (leaf found)

namespace Expr

/-- The operators of an expression with their left sides, the innermost first and before those of `done`,
and the last operand. -/
def spineOnto (done : List (MathOp × Operand)) : Expr → List (MathOp × Operand) × Operand
  | operand last => (done, last)
  | binary op left right => right.spineOnto ((op, left) :: done)

/-- An expression, built from its last operand outwards: each operator takes what is built so far as its
right side. -/
def toTree (expr : Expr) : Tree :=
  let (spine, last) := expr.spineOnto []
  spine.foldl (fun right link => branch link.1.tag [link.2.toTree, right]) last.toTree

/-- The operators that are already collected stand behind the others, unchanged, so what a subtree adds to
them does not depend on them. -/
theorem spineOnto_eq (done : List (MathOp × Operand)) (expr : Expr) :
    expr.spineOnto done = ((expr.spineOnto []).1 ++ done, (expr.spineOnto []).2) := by
  induction expr generalizing done with
  | operand last => rfl
  | binary op left right ih =>
    rw [spineOnto, spineOnto, ih, ih [(op, left)]]
    simp

/-- An expression without operators is shown as its operand, with no node of its own. -/
@[simp]
theorem toTree_operand (value : Operand) : (operand value).toTree = value.toTree := rfl

/-- An operator is shown above its left side and its right side, which is what a recursion over the
expression would build. -/
@[simp]
theorem toTree_binary (op : MathOp) (left : Operand) (right : Expr) :
    (binary op left right).toTree = branch op.tag [left.toTree, right.toTree] := by
  rw [toTree, toTree, spineOnto, spineOnto_eq]
  simp

end Expr

/-- A condition: a comparison above its two sides, or the one operand without a node of its own. -/
def Condition.toTree : Condition → Tree
  | operand value => value.toTree
  | compare op left right => branch op.tag [left.toTree, right.toTree]

/-- A data type by its name. All unknown types have the same one, whatever text was found. -/
def DataType.toTree (type : DataType) : Tree :=
  wrap "data_type" (leaf type.name)

/-- A name, shown as an operand that is an identifier is. -/
def Tree.ofName (name : String) : Tree :=
  wrap "identifier" (leaf name)

/-- An assignment: the name on its left, and the expression on its right under a label of its own. -/
def Assignment.toTree (assignment : Assignment) : Tree :=
  branch "assignment" [.ofName assignment.target, wrap "expression" assignment.value.toTree]

/-- A declaration. A first value is shown as an assignment to the name. -/
def Declaration.toTree (declaration : Declaration) : Tree :=
  branch "declaration"
    ([declaration.type.toTree, .ofName declaration.name]
      ++ (declaration.init?.map fun value =>
        Assignment.toTree ⟨declaration.name, value⟩).toList)

mutual

/-- A statement, under a label for its sort. The parts that it may lack have a label of their own each, so
it can be told which of them are there. -/
def Stmt.toTree : Stmt → Tree
  | declaration declared => declared.toTree
  | assignment assigned => assigned.toTree
  | ifElse condition body otherwise? =>
    branch "if"
      ([wrap "condition" condition.toTree, branch "compound" (Stmt.toTrees body)]
        ++ Stmt.optionToTrees "else" otherwise?)
  | whileLoop condition body =>
    branch "while" [wrap "condition" condition.toTree, branch "compound" (Stmt.toTrees body)]
  | forLoop init? condition? step? body =>
    branch "for"
      (Stmt.optionToTrees "init" init?
        ++ (condition?.map fun condition => wrap "condition" condition.toTree).toList
        ++ (step?.map fun step => wrap "step" step.toTree).toList
        ++ [branch "compound" (Stmt.toTrees body)])
  | call callee args =>
    branch "call"
      [.ofName callee, branch "args" (args.map fun arg => wrap "expression" arg.toTree)]
  | ret value? =>
    branch "return" (value?.map fun value => wrap "expression" value.toTree).toList
  | compound body => branch "compound" (Stmt.toTrees body)
  | empty => branch "empty" []
  | unknown found => wrap "unknown" (leaf found)

/-- The statements of a block, one tree each, in the order of the source. -/
def Stmt.toTrees : List Stmt → List Tree
  | [] => []
  | stmt :: stmts => stmt.toTree :: Stmt.toTrees stmts

/-- A statement under a label of its own, if there is one, and no node if there is none. -/
def Stmt.optionToTrees (label : String) : Option Stmt → List Tree
  | none => []
  | some stmt => [wrap label stmt.toTree]

end

/-- A block, shown as the compound statement with the same statements is. -/
def Block.toTree (body : Block) : Tree :=
  branch "compound" (Stmt.toTrees body)

/-- An item, under a label for its sort, save a declaration, which is shown as it is inside a block. -/
def Item.toTree : Item → Tree
  | importFile path => wrap "import" (leaf path)
  | declaration declared => declared.toTree
  | function type name params body =>
    branch "function"
      [type.toTree, .ofName name, branch "params" (params.map Declaration.toTree), Block.toTree body]
  | entry body => wrap "entry" (Block.toTree body)

/-- A program: one tree for each item, in the order of the source, and none above them. -/
def Program.toTrees (program : Program) : List Tree :=
  program.map Item.toTree

end BraceLang
