import BraceLang.Proofs.Account
import BraceLang.Tree.Lower

/-!
# Trees tell programs apart

A tree keeps all of the item that it shows, if every operator, comparison and type in the item is a known one:
two such items with the same tree are the same item (`Item.toTree_eq_iff`). The item may be one that no source
gives, with a part missing or with any statement as the other branch of a condition or as the start of a
counting loop.

Sorts of items and statements are told apart by the labels of their nodes. Children that may be left out are
told apart by labels too: in front of children with other labels, a child under a label of its own is there in
both trees or in neither (`Tree.under_append_inj`). Texts are labels of leaves, and a leaf never stands where
another label is looked at, so it does not matter that a text may spell a label.

An unknown operator or type is shown as unknown, without the text that was found, which is why it is excluded.
-/

set_option autoImplicit false

namespace BraceLang

/-! ### Nodes -/

namespace Tree

/-- A node is determined by its label and its children, and determines them. -/
@[simp]
theorem branch_inj {label label' : String} {children children' : List Tree} :
    branch label children = branch label' children' ↔ label = label' ∧ children = children' := by
  simp [branch]

/-- A text is determined by its leaf. -/
@[simp]
theorem leaf_inj {text text' : String} : leaf text = leaf text' ↔ text = text' := by
  simp [leaf]

/-- A node with one child is determined by its label and the child. -/
@[simp]
theorem wrap_inj {label label' : String} {child child' : Tree} :
    wrap label child = wrap label' child' ↔ label = label' ∧ child = child' := by
  simp [wrap]

/-- An inner node is labelled by what it was made with, whatever its children are. -/
@[simp]
theorem label_branch (label : String) (children : List Tree) : (branch label children).label = label := rfl

/-- A child under a label, if there is one, as a list of at most one node. -/
def under (label : String) (child? : Option Tree) : List Tree :=
  (child?.map (wrap label)).toList

/-- Children in front of which stands one under another label. -/
theorem label_ne_of_mem_under_append {label other : String} {child? : Option Tree} {trees : List Tree}
    (hother : other ≠ label) (h : ∀ tree ∈ trees, tree.label ≠ label) :
    ∀ tree ∈ under other child? ++ trees, tree.label ≠ label := by
  cases child? with
  | none => exact h
  | some child => exact List.forall_mem_cons.2 ⟨hother, h⟩

/-- An optional child is told from what follows it by its label. -/
theorem under_append_inj {label : String} {child? child'? : Option Tree} {trees trees' : List Tree}
    (h : ∀ tree ∈ trees, tree.label ≠ label) (h' : ∀ tree ∈ trees', tree.label ≠ label)
    (heq : under label child? ++ trees = under label child'? ++ trees') :
    child? = child'? ∧ trees = trees' := by
  cases child? with
  | none =>
    cases child'? with
    | none => exact ⟨rfl, heq⟩
    | some child' =>
      have hmem : wrap label child' ∈ trees := by
        rw [show trees = wrap label child' :: trees' from heq]
        exact List.mem_cons_self
      exact absurd rfl (h _ hmem)
  | some child =>
    cases child'? with
    | none =>
      have hmem : wrap label child ∈ trees' := by
        rw [show trees' = wrap label child :: trees from heq.symm]
        exact List.mem_cons_self
      exact absurd rfl (h' _ hmem)
    | some child' =>
      obtain ⟨hchild, htrees⟩ := List.cons.inj heq
      exact ⟨congrArg some (wrap_inj.1 hchild).2, htrees⟩

/-- A child that may be missing is determined by what is put under its label. -/
theorem under_inj {label : String} {child? child'? : Option Tree}
    (heq : under label child? = under label child'?) : child? = child'? :=
  (under_append_inj (by simp) (by simp) (congrArg (· ++ []) heq)).1

end Tree

open BraceLang.Tree (branch leaf wrap under)

/-- Statements under a label are shown like other optional children. -/
theorem Stmt.optionToTrees_eq (label : String) (stmt? : Option Stmt) :
    Stmt.optionToTrees label stmt? = under label (stmt?.map Stmt.toTree) := by
  cases stmt? <;> rfl

/-- The children of a counting loop: up to three under labels of their own, and the block. -/
theorem Stmt.toTree_forLoop (init? : Option Stmt) (test? : Option Condition) (step? : Option Assignment)
    (body : Block) :
    (Stmt.forLoop init? test? step? body).toTree =
      branch "for" (under "init" (init?.map Stmt.toTree) ++ (under "condition" (test?.map Condition.toTree)
        ++ (under "step" (step?.map Assignment.toTree) ++ [branch "compound" (Stmt.toTrees body)]))) := by
  rw [Stmt.toTree, Stmt.optionToTrees_eq]
  simp [under, Function.comp_def]

/-! ### Known parts -/

/-- Whether a part is anything but an unknown operator, comparison or type. -/
def Part.isKnown : Part → Bool
  | type read => !read.isUnknown
  | operator (.unknown _) | comparison (.unknown _) => false
  | _ => true

/-- No part is an unknown operator, comparison or type, whose texts are not all shown. -/
def Part.AllKnown (parts : List Part) : Prop :=
  ∀ part ∈ parts, part.isKnown = true

instance (parts : List Part) : Decidable (Part.AllKnown parts) :=
  inferInstanceAs (Decidable (∀ part ∈ parts, part.isKnown = true))

namespace Part

/-- The parts of a list are known if the first one and all the others are. -/
@[simp]
theorem allKnown_cons {part : Part} {parts : List Part} :
    AllKnown (part :: parts) ↔ part.isKnown = true ∧ AllKnown parts :=
  List.forall_mem_cons

/-- The parts of two lists in a row are known exactly if those of both are. -/
@[simp]
theorem allKnown_append {parts more : List Part} :
    AllKnown (parts ++ more) ↔ AllKnown parts ∧ AllKnown more :=
  List.forall_mem_append

end Part

open BraceLang.Part (AllKnown)

/-- Values with known parts only are told apart by their trees. -/
def Faithful {α : Type} (parts : α → List Part) (toTree : α → Tree) : Prop :=
  ∀ value value' : α, AllKnown (parts value) → AllKnown (parts value') → toTree value = toTree value' →
    value = value'

namespace Faithful

variable {α : Type} {parts : α → List Part} {toTree : α → Tree}

/-- If values with known parts are told by their trees, so are values that may be missing. -/
theorem option (hf : Faithful parts toTree) {value? value'? : Option α}
    (h : AllKnown (value?.elim [] parts)) (h' : AllKnown (value'?.elim [] parts))
    (heq : value?.map toTree = value'?.map toTree) : value? = value'? := by
  cases value? with
  | none => exact (Option.map_eq_none_iff.1 heq.symm).symm
  | some value =>
    obtain ⟨value', rfl, hvalue⟩ := Option.map_eq_some_iff.1 heq.symm
    rw [hf value value' h h' hvalue.symm]

/-- If values with known parts are told by their trees, so are lists of them, one value after the other. -/
theorem list (hf : Faithful parts toTree) {values values' : List α}
    (h : AllKnown (values.flatMap parts)) (h' : AllKnown (values'.flatMap parts))
    (heq : values.map toTree = values'.map toTree) : values = values' := by
  induction values generalizing values' with
  | nil => exact (List.map_eq_nil_iff.1 heq.symm).symm
  | cons value values ih =>
    obtain ⟨value', rest', rfl, hvalue, hrest⟩ := List.map_eq_cons_iff.1 heq.symm
    rw [List.flatMap_cons, Part.allKnown_append] at h h'
    rw [hf value value' h.1 h'.1 hvalue.symm, ih h.2 h'.2 hrest.symm]

/-- If values with known parts are told by their trees, so they are with a label around these. -/
theorem wrap (hf : Faithful parts toTree) (label : String) :
    Faithful parts fun value => Tree.wrap label (toTree value) :=
  fun value value' h h' heq => hf value value' h h' (Tree.wrap_inj.1 heq).2

end Faithful

/-! ### Below statements -/

/-- An operand is told by its tree, which shows what it is and its text. A missing one is no exception. -/
@[simp]
theorem Operand.toTree_inj {value value' : Operand} : value.toTree = value'.toTree ↔ value = value' := by
  cases value <;> cases value' <;> simp [toTree]

/-- Operators with a meaning have labels of their own. -/
theorem MathOp.tag_inj {op op' : MathOp} (h : (Part.operator op).isKnown = true)
    (h' : (Part.operator op').isKnown = true) (heq : op.tag = op'.tag) : op = op' := by
  cases op <;> cases op' <;> simp_all [tag, Part.isKnown]

/-- The comparison with a meaning has a label of its own. -/
theorem CompareOp.tag_inj {op op' : CompareOp} (h : (Part.comparison op).isKnown = true)
    (h' : (Part.comparison op').isKnown = true) (heq : op.tag = op'.tag) : op = op' := by
  cases op <;> cases op' <;> simp_all [tag, Part.isKnown]

/-- Known types are told by their trees, which show their keywords. -/
theorem DataType.toTree_inj {type type' : DataType} (h : (Part.type type).isKnown = true)
    (h' : (Part.type type').isKnown = true) (heq : type.toTree = type'.toTree) : type = type' := by
  cases type <;> cases type' <;> simp_all [toTree, name, Part.isKnown, isUnknown]

/-- An operand has one child, so it is told from all that has two. -/
theorem Operand.toTree_ne_branch (value : Operand) (label : String) (left right : Tree) :
    value.toTree ≠ branch label [left, right] := by
  cases value <;> simp [toTree, wrap]

/-- Expressions with known operators are told by their trees. The induction follows the right sides. -/
theorem Expr.faithful : Faithful Expr.parts Expr.toTree := by
  intro value
  induction value with
  | operand last =>
    intro value' h h' heq
    cases value' with
    | operand last' => simpa using heq
    | binary op' left' right' => exact absurd heq (by simpa using last.toTree_ne_branch _ _ _)
  | binary op left right ih =>
    intro value' h h' heq
    cases value' with
    | operand last' => exact absurd heq.symm (by simpa using last'.toTree_ne_branch _ _ _)
    | binary op' left' right' =>
      simp only [parts, List.cons_append, List.nil_append, Part.allKnown_cons] at h h'
      simp only [toTree_binary, Tree.branch_inj, List.cons.injEq, Operand.toTree_inj, and_true] at heq
      obtain ⟨-, hop, hright⟩ := h
      obtain ⟨-, hop', hright'⟩ := h'
      obtain ⟨htag, rfl, hrest⟩ := heq
      rw [MathOp.tag_inj hop hop' htag, ih right' hright hright' hrest]

/-- Conditions with a known comparison, or with none, are told by their trees. -/
theorem Condition.faithful : Faithful Condition.parts Condition.toTree := by
  intro test test' h h' heq
  cases test with
  | operand value =>
    cases test' with
    | operand value' => simpa [toTree] using heq
    | compare op' left' right' => exact absurd heq (value.toTree_ne_branch _ _ _)
  | compare op left right =>
    cases test' with
    | operand value' => exact absurd heq.symm (value'.toTree_ne_branch _ _ _)
    | compare op' left' right' =>
      simp only [parts, Part.allKnown_cons] at h h'
      simp only [toTree, Tree.branch_inj, List.cons.injEq, Operand.toTree_inj, and_true] at heq
      obtain ⟨htag, rfl, rfl⟩ := heq
      rw [CompareOp.tag_inj h.2.1 h'.2.1 htag]

/-- Assignments are told by their trees, if the operators in their values are known. -/
theorem Assignment.faithful : Faithful Assignment.parts Assignment.toTree := by
  rintro ⟨target, value⟩ ⟨target', value'⟩ h h' heq
  simp only [parts, List.cons_append, List.nil_append, Part.allKnown_cons] at h h'
  simp only [toTree, Tree.ofName, Tree.branch_inj, List.cons.injEq, Tree.wrap_inj, Tree.leaf_inj, true_and,
    and_true] at heq
  obtain ⟨rfl, hvalue⟩ := heq
  rw [Expr.faithful value value' h.2 h'.2 hvalue]

/-- The children of a declaration: its type, its name and, perhaps, an assignment. -/
theorem Declaration.faithful : Faithful Declaration.parts Declaration.toTree := by
  rintro ⟨type, name, init?⟩ ⟨type', name', init'?⟩ h h' heq
  simp only [parts, List.cons_append, List.nil_append, Part.allKnown_cons] at h h'
  simp only [toTree, Tree.ofName, Tree.branch_inj, List.cons_append, List.nil_append, List.cons.injEq,
    Tree.wrap_inj, Tree.leaf_inj, true_and] at heq
  obtain ⟨htype, rfl, hinit⟩ := heq
  obtain rfl := DataType.toTree_inj h.1 h'.1 htype
  have hassigned : init?.map (fun value => Assignment.toTree ⟨name, value⟩) =
      init'?.map (fun value => Assignment.toTree ⟨name, value⟩) := by
    simpa using congrArg List.head? hinit
  have hf : Faithful Expr.parts fun value => Assignment.toTree ⟨name, value⟩ := by
    intro value value' hvalue hvalue' heq
    have hassign := Assignment.faithful ⟨name, value⟩ ⟨name, value'⟩
      (Part.allKnown_cons.2 ⟨rfl, hvalue⟩) (Part.allKnown_cons.2 ⟨rfl, hvalue'⟩) heq
    exact congrArg Assignment.value hassign
  rw [hf.option h.2.2 h'.2.2 hassigned]

/-! ### Statements -/

/-- The label that shows the sort of a statement, at the root of its tree. -/
def Stmt.sort : Stmt → String
  | declaration _ => "declaration"
  | assignment _ => "assignment"
  | ifElse _ _ _ => "if"
  | whileLoop _ _ => "while"
  | forLoop _ _ _ _ => "for"
  | call _ _ => "call"
  | ret _ => "return"
  | compound _ => "compound"
  | empty => "empty"
  | unknown _ => "unknown"

/-- The tree of a statement has the label of its sort at the root. -/
theorem Stmt.label_toTree (stmt : Stmt) : stmt.toTree.label = stmt.sort := by
  cases stmt <;> rfl

/-- Statements of different sorts have different trees, so that only those of one sort have to be
compared. -/
theorem Stmt.toTree_ne {stmt stmt' : Stmt} (h : stmt.sort ≠ stmt'.sort) : stmt.toTree ≠ stmt'.toTree := by
  intro heq
  rw [← label_toTree, ← label_toTree, heq] at h
  exact h rfl

/-- The children of a counting loop have four different labels, so each of the first three is there in both
loops or in neither. -/
theorem Stmt.forLoop_children_inj {init? init'? test? test'? step? step'? : Option Tree}
    {body body' : List Tree}
    (heq : under "init" init? ++ (under "condition" test? ++ (under "step" step? ++ [branch "compound" body])) =
      under "init" init'? ++ (under "condition" test'? ++ (under "step" step'? ++ [branch "compound" body']))) :
    init? = init'? ∧ test? = test'? ∧ step? = step'? ∧ body = body' := by
  have hblock {label : String} (hlabel : "compound" ≠ label) (body : List Tree) :
      ∀ tree ∈ [branch "compound" body], tree.label ≠ label := by simpa using hlabel
  have hstep {label : String} (hlabel : "compound" ≠ label ∧ "step" ≠ label) (step? : Option Tree)
      (body : List Tree) : ∀ tree ∈ under "step" step? ++ [branch "compound" body], tree.label ≠ label :=
    Tree.label_ne_of_mem_under_append hlabel.2 (hblock hlabel.1 body)
  obtain ⟨hinit, heq⟩ := Tree.under_append_inj
    (Tree.label_ne_of_mem_under_append (by decide) (hstep (by decide) step? body))
    (Tree.label_ne_of_mem_under_append (by decide) (hstep (by decide) step'? body')) heq
  obtain ⟨htest, heq⟩ := Tree.under_append_inj (hstep (by decide) step? body)
    (hstep (by decide) step'? body') heq
  obtain ⟨hstep, heq⟩ := Tree.under_append_inj (hblock (by decide) body) (hblock (by decide) body') heq
  exact ⟨hinit, htest, hstep, by simpa using heq⟩

mutual

/-- Statements with known parts are told by their trees. The induction is on the statement, with one case
for each sort. -/
theorem Stmt.toTree_inj : (stmt stmt' : Stmt) → AllKnown stmt.parts → AllKnown stmt'.parts →
    stmt.toTree = stmt'.toTree → stmt = stmt'
  | .declaration declared, stmt', h, h', heq => by
    cases stmt' with
    | declaration declared' => rw [Declaration.faithful declared declared' h h' heq]
    | _ => exact absurd heq (Stmt.toTree_ne (by simp [Stmt.sort]))
  | .assignment assigned, stmt', h, h', heq => by
    cases stmt' with
    | assignment assigned' => rw [Assignment.faithful assigned assigned' h h' heq]
    | _ => exact absurd heq (Stmt.toTree_ne (by simp [Stmt.sort]))
  | .ifElse test body other?, stmt', h, h', heq => by
    cases stmt' with
    | ifElse test' body' other'? =>
      simp only [Stmt.parts, Part.allKnown_append] at h h'
      simp only [Stmt.toTree, Stmt.optionToTrees_eq, Tree.branch_inj, List.cons_append, List.nil_append,
        List.cons.injEq, Tree.wrap_inj, true_and] at heq
      obtain ⟨⟨htest, hbody⟩, hother⟩ := h
      obtain ⟨⟨htest', hbody'⟩, hother'⟩ := h'
      obtain ⟨heqTest, heqBody, heqOther⟩ := heq
      rw [Condition.faithful test test' htest htest' heqTest,
        Stmt.toTrees_inj body body' hbody hbody' heqBody,
        Stmt.optionToTree_inj other? other'? hother hother' (Tree.under_inj heqOther)]
    | _ => exact absurd heq (Stmt.toTree_ne (by simp [Stmt.sort]))
  | .whileLoop test body, stmt', h, h', heq => by
    cases stmt' with
    | whileLoop test' body' =>
      simp only [Stmt.parts, Part.allKnown_append] at h h'
      simp only [Stmt.toTree, Tree.branch_inj, List.cons.injEq, Tree.wrap_inj, true_and, and_true] at heq
      rw [Condition.faithful test test' h.1 h'.1 heq.1, Stmt.toTrees_inj body body' h.2 h'.2 heq.2]
    | _ => exact absurd heq (Stmt.toTree_ne (by simp [Stmt.sort]))
  | .forLoop init? test? step? body, stmt', h, h', heq => by
    cases stmt' with
    | forLoop init'? test'? step'? body' =>
      simp only [Stmt.parts, Part.allKnown_append] at h h'
      rw [Stmt.toTree_forLoop, Stmt.toTree_forLoop, Tree.branch_inj] at heq
      -- a part that is missing is told from one that is there by the label of its own
      obtain ⟨⟨⟨hinit, htest⟩, hstep⟩, hbody⟩ := h
      obtain ⟨⟨⟨hinit', htest'⟩, hstep'⟩, hbody'⟩ := h'
      obtain ⟨heqInit, heqTest, heqStep, heqBody⟩ := Stmt.forLoop_children_inj heq.2
      rw [Stmt.optionToTree_inj init? init'? hinit hinit' heqInit,
        Condition.faithful.option htest htest' heqTest, Assignment.faithful.option hstep hstep' heqStep,
        Stmt.toTrees_inj body body' hbody hbody' heqBody]
    | _ => exact absurd heq (Stmt.toTree_ne (by simp [Stmt.sort]))
  | .call callee args, stmt', h, h', heq => by
    cases stmt' with
    | call callee' args' =>
      simp only [Stmt.parts, Part.allKnown_append] at h h'
      simp only [Stmt.toTree, Tree.ofName, Tree.branch_inj, List.cons.injEq, Tree.wrap_inj, Tree.leaf_inj,
        true_and, and_true] at heq
      rw [heq.1, (Expr.faithful.wrap "expression").list h.2 h'.2 heq.2]
    | _ => exact absurd heq (Stmt.toTree_ne (by simp [Stmt.sort]))
  | .ret value?, stmt', h, h', heq => by
    cases stmt' with
    | ret value'? =>
      simp only [Stmt.toTree, Tree.branch_inj, true_and] at heq
      have heqValue := congrArg List.head? heq
      simp only [Option.head?_toList] at heqValue
      rw [(Expr.faithful.wrap "expression").option h h' heqValue]
    | _ => exact absurd heq (Stmt.toTree_ne (by simp [Stmt.sort]))
  | .compound body, stmt', h, h', heq => by
    cases stmt' with
    | compound body' =>
      simp only [Stmt.toTree, Tree.branch_inj, true_and] at heq
      rw [Stmt.toTrees_inj body body' h h' heq]
    | _ => exact absurd heq (Stmt.toTree_ne (by simp [Stmt.sort]))
  | .empty, stmt', h, h', heq => by
    cases stmt' with
    | empty => rfl
    | _ => exact absurd heq (Stmt.toTree_ne (by simp [Stmt.sort]))
  | .unknown found, stmt', h, h', heq => by
    cases stmt' with
    | unknown found' => simpa [Stmt.toTree] using heq
    | _ => exact absurd heq (Stmt.toTree_ne (by simp [Stmt.sort]))

/-- The statements of a block are told by their trees, one after the other. -/
theorem Stmt.toTrees_inj : (body body' : List Stmt) → AllKnown (Stmt.listParts body) →
    AllKnown (Stmt.listParts body') → Stmt.toTrees body = Stmt.toTrees body' → body = body'
  | [], [], _, _, _ => rfl
  | [], _ :: _, _, _, heq => by simp [Stmt.toTrees] at heq
  | _ :: _, [], _, _, heq => by simp [Stmt.toTrees] at heq
  | stmt :: body, stmt' :: body', h, h', heq => by
    simp only [Stmt.listParts, Part.allKnown_append] at h h'
    simp only [Stmt.toTrees, List.cons.injEq] at heq
    rw [Stmt.toTree_inj stmt stmt' h.1 h'.1 heq.1, Stmt.toTrees_inj body body' h.2 h'.2 heq.2]

/-- A statement that may be missing is told by its tree, or by there being none. -/
theorem Stmt.optionToTree_inj : (stmt? stmt'? : Option Stmt) → AllKnown (Stmt.optionParts stmt?) →
    AllKnown (Stmt.optionParts stmt'?) → stmt?.map Stmt.toTree = stmt'?.map Stmt.toTree → stmt? = stmt'?
  | none, none, _, _, _ => rfl
  | none, some _, _, _, heq => by simp at heq
  | some _, none, _, _, heq => by simp at heq
  | some stmt, some stmt', h, h', heq => by
    rw [Stmt.toTree_inj stmt stmt' h h' (Option.some.inj heq)]

end

/-! ### Items -/

/-- Two items without unknown operators, comparisons and types are the same if they have the same tree. -/
theorem Item.toTree_eq_iff {item item' : Item} (h : AllKnown item.parts) (h' : AllKnown item'.parts) :
    item.toTree = item'.toTree ↔ item = item' := by
  refine ⟨fun heq => ?_, congrArg toTree⟩
  cases item with
  | importFile path =>
    cases item' with
    | importFile path' => simpa [toTree] using heq
    | _ => simp [toTree, Declaration.toTree, wrap] at heq
  | declaration declared =>
    cases item' with
    | declaration declared' => rw [Declaration.faithful declared declared' h h' heq]
    | _ => simp [toTree, Declaration.toTree, wrap] at heq
  | function type name params body =>
    cases item' with
    | function type' name' params' body' =>
      simp only [parts, List.cons_append, List.nil_append, Part.allKnown_cons, Part.allKnown_append] at h h'
      simp only [toTree, Tree.ofName, Block.toTree, Tree.branch_inj, List.cons.injEq, Tree.wrap_inj,
        Tree.leaf_inj, true_and, and_true] at heq
      obtain ⟨htype, -, hparams, hbody⟩ := h
      obtain ⟨htype', -, hparams', hbody'⟩ := h'
      obtain ⟨heqType, rfl, heqParams, heqBody⟩ := heq
      rw [DataType.toTree_inj htype htype' heqType, Declaration.faithful.list hparams hparams' heqParams,
        Stmt.toTrees_inj body body' hbody hbody' heqBody]
    | _ => simp [toTree, Declaration.toTree, wrap] at heq
  | entry body =>
    cases item' with
    | entry body' =>
      simp only [toTree, Block.toTree, Tree.wrap_inj, Tree.branch_inj, true_and] at heq
      rw [Stmt.toTrees_inj body body' h h' heq]
    | _ => simp [toTree, Declaration.toTree, wrap] at heq

/-- One assignment, at the start of a loop and after each round of it, with texts that spell labels. -/
theorem Item.toTree_ne_sample :
    let assigned : Assignment := ⟨"init", .operand (.missing "step")⟩
    let item : Item := .entry [.forLoop (some (.assignment assigned)) none none [.unknown "for"]]
    let item' : Item := .entry [.forLoop none none (some assigned) [.unknown "for"]]
    AllKnown item.parts ∧ AllKnown item'.parts ∧ (item.toTree = item'.toTree ↔ item = item') ∧
      item.toTree ≠ item'.toTree := by
  intro assigned item item'
  have h : AllKnown item.parts := by decide
  have h' : AllKnown item'.parts := by decide
  have hiff := Item.toTree_eq_iff h h'
  exact ⟨h, h', hiff, fun heq => by simpa [item, item'] using hiff.1 heq⟩

/-- Unknown types are shown alike. -/
example :
    (Item.declaration ⟨.unknown "a", "x", none⟩).toTree = (Item.declaration ⟨.unknown "b", "x", none⟩).toTree :=
  rfl

end BraceLang
