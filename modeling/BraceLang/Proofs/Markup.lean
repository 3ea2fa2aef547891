import BraceLang.Proofs.Trees
import BraceLang.Tree.Xml

/-!
# Markup can be read back

The XML of the tree of an item, a statement, an expression or a condition determines the tree, whatever texts
are in it (`Phrase.xml_toTree_inj`). No reader of XML is needed to see this. The trees in question are `Formed`: the
label of every node can stand in a tag, and below a node there is either one text or nothing but further nodes.
The markup of such a tree is a prefix code. If it stands at the front of two equal texts, then the trees are
equal and so is what follows them (`Formed.marked`):

* a tag ends at the first `/` or `>`, so both start with the same tag, which is closed at once in both or in
  neither;
* a text ends at the first `<`, because texts are written without that character, and it is determined by what
  is written for it (`xmlText_inj`), because the ampersands of the text are replaced before any others are
  written;
* children end where `</` stands, and no child starts with it.
-/

set_option autoImplicit false

namespace BraceLang

namespace Tree

/-! ### Texts between tags -/

/-- What three replacements in a row leave of a character. The entity of an ampersand holds neither `<` nor `>`,
so the later replacements do not touch it; they would if ampersands came last. -/
def xmlChar (c : Char) : List Char :=
  if c = '&' then "&amp;".toList
  else if c = '<' then "&lt;".toList
  else if c = '>' then "&gt;".toList
  else [c]

/-- The replacements, made one after the other over the whole text, come to one pass over its characters. -/
theorem toList_xmlText (text : String) : (xmlText text).toList = text.toList.flatMap xmlChar := by
  simp only [xmlText, replaceChar, String.toList_ofList, List.flatMap_assoc]
  congr 1
  funext c
  by_cases hamp : c = '&'
  · subst hamp
    decide
  · by_cases hlt : c = '<'
    · subst hlt
      decide
    · simp [xmlChar, hamp, hlt]

/-- What is written for the first character of a text can be told from what follows. -/
theorem xmlChar_append_inj {c d : Char} {cs ds : List Char} (h : xmlChar c ++ cs = xmlChar d ++ ds) :
    c = d ∧ cs = ds := by
  unfold xmlChar at h
  split_ifs at h <;> simp at h <;> grind

/-- A list of characters is determined by what is written for its members one after the other, since the first
of them can always be told and taken off. -/
theorem flatMap_xmlChar_inj {cs ds : List Char} (h : cs.flatMap xmlChar = ds.flatMap xmlChar) : cs = ds := by
  have hne (c : Char) (rest : List Char) : xmlChar c ++ rest ≠ [] := by
    unfold xmlChar
    split_ifs <;> simp
  induction cs generalizing ds with
  | nil =>
    cases ds with
    | nil => rfl
    | cons d ds => exact absurd h.symm (hne d _)
  | cons c cs ih =>
    cases ds with
    | nil => exact absurd h (hne c _)
    | cons d ds =>
      obtain ⟨rfl, hrest⟩ := xmlChar_append_inj h
      rw [ih hrest]

/-- A text is determined by what is written for it, since its characters are. -/
theorem xmlText_inj {text text' : String} (h : xmlText text = xmlText text') : text = text' := by
  have hchars : text.toList.flatMap xmlChar = text'.toList.flatMap xmlChar := by
    rw [← toList_xmlText, ← toList_xmlText, h]
  exact String.toList_inj.1 (flatMap_xmlChar_inj hchars)

/-- In another order the replacements are not injective. -/
example : (replaceChar '&' "&amp;" (replaceChar '<' "&lt;" "<")) =
    replaceChar '&' "&amp;" (replaceChar '<' "&lt;" "&lt;") := by
  decide

/-- No tag starts inside of what is written for a text, so that the text ends at the first tag. -/
theorem lt_not_mem_xmlText (text : String) : '<' ∉ (xmlText text).toList := by
  rw [toList_xmlText]
  intro hmem
  obtain ⟨c, -, hc⟩ := List.mem_flatMap.1 hmem
  unfold xmlChar at hc
  split_ifs at hc <;> simp_all [eq_comm]

/-! ### Formed trees -/

/-- Whether a label can stand in a tag: it is not empty, and no character of it could end the tag. -/
def IsTag (label : String) : Prop :=
  label ≠ "" ∧ '/' ∉ label.toList ∧ '>' ∉ label.toList

instance (label : String) : Decidable (IsTag label) :=
  inferInstanceAs (Decidable (_ ∧ _ ∧ _))

/-- A tree in which labels can stand in tags, and a text is the only child of its node. -/
inductive Formed : Tree → Prop
  | text {label : String} (hlabel : IsTag label) (text : String) : Formed (wrap label (leaf text))
  | branch {label : String} {children : List Tree} (hlabel : IsTag label)
      (hchildren : ∀ child ∈ children, Formed child) : Formed (branch label children)

/-- A formed tree is written as a tag and never as a bare text. -/
theorem Formed.isLeaf {tree : Tree} (h : tree.Formed) : tree.isLeaf = false := by
  cases h <;> rfl

/-- A label that can stand in a tag is written as it is. -/
theorem IsTag.xmlTag {label : String} (h : IsTag label) : Tree.xmlTag label = label :=
  if_neg h.1

/-- A formed tree has a label that can stand in a tag, whatever it holds. -/
theorem Formed.exists_branch {tree : Tree} (h : tree.Formed) :
    ∃ label children, IsTag label ∧ tree = Tree.branch label children := by
  cases h with
  | text hlabel text => exact ⟨_, [leaf text], hlabel, rfl⟩
  | branch hlabel hchildren => exact ⟨_, _, hlabel, rfl⟩

/-- The markup of a tree in front of other text. -/
def xmlBefore (tree : Tree) (rest : List Char) : List Char :=
  tree.xml.toList ++ rest

/-- The markup of what a node holds, in front of other text. -/
def xmlInside (children : List Tree) (rest : List Char) : List Char :=
  (xmlAllOnto "" false children).toList ++ rest

/-- A node that holds nothing is one tag, which is closed at once. -/
theorem xmlBefore_empty {label : String} (h : IsTag label) (rest : List Char) :
    (branch label []).xmlBefore rest = '<' :: (label.toList ++ '/' :: '>' :: rest) := by
  simp [xmlBefore, xml, branch, xmlOnto, h.xmlTag]

/-- Any other node is a tag, what it holds, and a closing tag with the same label. -/
theorem xmlBefore_branch {label : String} (h : IsTag label) {children : List Tree} (hne : children ≠ [])
    (rest : List Char) :
    (branch label children).xmlBefore rest =
      '<' :: (label.toList ++ '>' :: xmlInside children ('<' :: '/' :: (label.toList ++ '>' :: rest))) := by
  rw [xmlBefore, xml, branch, xmlOnto, if_neg (by simpa using hne), xmlAllOnto_eq, h.xmlTag]
  simp [xmlInside]

/-- A node that holds a text holds what is written for it, and nothing else. -/
theorem xmlInside_leaf (text : String) (rest : List Char) :
    xmlInside [leaf text] rest = (xmlText text).toList ++ rest := by
  simp [xmlInside, xmlAllOnto, leaf, xmlOnto]

/-- A node that holds nothing has nothing written between its tags. -/
@[simp]
theorem xmlInside_nil (rest : List Char) : xmlInside [] rest = rest := by
  simp [xmlInside, xmlAllOnto]

/-- Nodes are written one after the other, with nothing between them. -/
theorem xmlInside_cons {child : Tree} (h : child.isLeaf = false) (children : List Tree) (rest : List Char) :
    xmlInside (child :: children) rest = child.xmlBefore (xmlInside children rest) := by
  rw [xmlInside, xmlAllOnto, h, Bool.and_false, if_neg (by decide), xmlAllOnto_eq]
  simp [xmlInside, xmlBefore, xml]

/-! ### Markup in front of other text -/

/-- Texts are cut alike at the first of some marks: equal ones have the same front, the same mark and the
same rest. -/
theorem append_mark_inj {marks front front' rest rest' : List Char} {mark mark' : Char}
    (h : ∀ c ∈ front, c ∉ marks) (h' : ∀ c ∈ front', c ∉ marks) (hmark : mark ∈ marks)
    (hmark' : mark' ∈ marks) (heq : front ++ mark :: rest = front' ++ mark' :: rest') :
    front = front' ∧ mark = mark' ∧ rest = rest' := by
  induction front generalizing front' with
  | nil =>
    cases front' with
    | nil =>
      obtain ⟨rfl, rfl⟩ := List.cons.inj heq
      exact ⟨rfl, rfl, rfl⟩
    | cons c' front' =>
      obtain ⟨rfl, -⟩ := List.cons.inj heq
      -- a front that goes on where the other is at its mark would hold that mark
      exact absurd hmark (h' _ List.mem_cons_self)
  | cons c front ih =>
    cases front' with
    | nil =>
      obtain ⟨rfl, -⟩ := List.cons.inj heq
      exact absurd hmark' (h _ List.mem_cons_self)
    | cons c' front' =>
      obtain ⟨rfl, htail⟩ := List.cons.inj heq
      obtain ⟨rfl, hrest⟩ := ih (List.forall_mem_cons.1 h).2 (List.forall_mem_cons.1 h').2 htail
      exact ⟨rfl, hrest⟩

/-- Equal texts that start with a tag start with the same tag, which is closed at once in both or in
neither. -/
theorem IsTag.append_inj {label label' : String} (h : IsTag label) (h' : IsTag label') {mark mark' : Char}
    {rest rest' : List Char}
    (heq : '<' :: (label.toList ++ mark :: rest) = '<' :: (label'.toList ++ mark' :: rest'))
    (hmark : mark ∈ ['/', '>']) (hmark' : mark' ∈ ['/', '>']) :
    label = label' ∧ mark = mark' ∧ rest = rest' := by
  have hfree {label : String} (h : IsTag label) : ∀ c ∈ label.toList, c ∉ ['/', '>'] := by
    rintro c hc hmem
    obtain rfl | rfl : c = '/' ∨ c = '>' := by simpa using hmem
    · exact h.2.1 hc
    · exact h.2.2 hc
  obtain ⟨hlabel, hrest⟩ := append_mark_inj (hfree h) (hfree h') hmark hmark' (List.cons.inj heq).2
  exact ⟨String.toList_inj.1 hlabel, hrest⟩

/-- Equal texts that start with nodes start with nodes of the same label, which hold nothing in both or something
in both. -/
theorem branch_append_inj {label label' : String} (h : IsTag label) (h' : IsTag label')
    {children children' : List Tree} {rest rest' : List Char}
    (heq : (branch label children).xmlBefore rest = (branch label' children').xmlBefore rest') :
    label = label' ∧
      (children = [] ∧ children' = [] ∧ rest = rest' ∨
        children ≠ [] ∧ children' ≠ [] ∧
          xmlInside children ('<' :: '/' :: (label.toList ++ '>' :: rest)) =
            xmlInside children' ('<' :: '/' :: (label.toList ++ '>' :: rest'))) := by
  by_cases hne : children = [] <;> by_cases hne' : children' = []
  · rw [hne, hne', xmlBefore_empty h, xmlBefore_empty h'] at heq
    obtain ⟨rfl, -, hrest⟩ := h.append_inj h' heq (by simp) (by simp)
    exact ⟨rfl, .inl ⟨hne, hne', (List.cons.inj hrest).2⟩⟩
  · rw [hne, xmlBefore_empty h, xmlBefore_branch h' hne'] at heq
    exact absurd (h.append_inj h' heq (by simp) (by simp)).2.1 (by decide)
  · rw [hne', xmlBefore_branch h hne, xmlBefore_empty h'] at heq
    exact absurd (h.append_inj h' heq (by simp) (by simp)).2.1 (by decide)
  · rw [xmlBefore_branch h hne, xmlBefore_branch h' hne'] at heq
    obtain ⟨rfl, -, hinside⟩ := h.append_inj h' heq (by simp) (by simp)
    exact ⟨rfl, .inr ⟨hne, hne', hinside⟩⟩

/-- Equal texts that start with what is written for a text, up to the next tag, start with the same one. -/
theorem text_append_inj (text text' : String) {rest rest' : List Char}
    (heq : (xmlText text).toList ++ '<' :: rest = (xmlText text').toList ++ '<' :: rest') :
    text = text' ∧ rest = rest' := by
  have hfree (text : String) : ∀ c ∈ (xmlText text).toList, c ∉ ['<'] := by
    intro c hc hmem
    rw [List.mem_singleton.1 hmem] at hc
    exact lt_not_mem_xmlText _ hc
  obtain ⟨htext, -, hrest⟩ := append_mark_inj (hfree text) (hfree text') (by simp) (by simp) heq
  exact ⟨xmlText_inj (String.toList_inj.1 htext), hrest⟩

/-- The markup of a tree starts with a tag that closes nothing, so that it is not mistaken for the end of a
node. -/
theorem Formed.exists_start {tree : Tree} (h : tree.Formed) (rest : List Char) :
    ∃ c rest', tree.xmlBefore rest = '<' :: c :: rest' ∧ c ≠ '/' := by
  obtain ⟨label, children, hlabel, rfl⟩ := h.exists_branch
  obtain ⟨mark, more, hmore⟩ : ∃ mark more,
      (Tree.branch label children).xmlBefore rest = '<' :: (label.toList ++ mark :: more) := by
    by_cases hne : children = []
    · exact ⟨'/', _, hne ▸ xmlBefore_empty hlabel rest⟩
    · exact ⟨'>', _, xmlBefore_branch hlabel hne rest⟩
  cases hchars : label.toList with
  | nil => exact absurd (String.toList_eq_nil_iff.1 hchars) hlabel.1
  | cons c cs =>
    refine ⟨c, cs ++ mark :: more, by rw [hmore, hchars, List.cons_append], fun hc => hlabel.2.1 ?_⟩
    rw [hchars, hc]
    exact List.mem_cons_self

/-- A text ends where a tag closes its node, so no other node stands there. -/
theorem text_append_ne (text : String) {child : Tree} (h : child.Formed) {rest rest' : List Char} :
    (xmlText text).toList ++ '<' :: '/' :: rest ≠ child.xmlBefore rest' := by
  intro heq
  obtain ⟨c, more, hstart, hc⟩ := h.exists_start rest'
  obtain ⟨-, hrest⟩ := text_append_inj text "" (heq.trans hstart)
  exact hc (List.cons.inj hrest).1.symm

/-- A node does not hold both a text and other nodes. -/
theorem text_ne_xmlInside (text : String) {children : List Tree} (hne : children ≠ [])
    (h : ∀ child ∈ children, child.Formed) {rest rest' : List Char} :
    (xmlText text).toList ++ '<' :: '/' :: rest ≠ xmlInside children rest' := by
  obtain ⟨child, children, rfl⟩ := List.exists_cons_of_ne_nil hne
  have hchild := h child List.mem_cons_self
  rw [xmlInside_cons hchild.isLeaf]
  exact text_append_ne text hchild

/-- Markup in front of other text determines the tree, and where it ends. -/
def Marked (tree : Tree) : Prop :=
  ∀ (tree' : Tree) (rest rest' : List Char), tree'.Formed → tree.xmlBefore rest = tree'.xmlBefore rest' →
    tree = tree' ∧ rest = rest'

/-- What nodes are written one after the other, up to a closing tag, is determined if each of them is. -/
theorem xmlInside_inj {children children' : List Tree} {rest rest' : List Char}
    (h : ∀ child ∈ children, child.Formed) (hmarked : ∀ child ∈ children, child.Marked)
    (h' : ∀ child ∈ children', child.Formed)
    (heq : xmlInside children ('<' :: '/' :: rest) = xmlInside children' ('<' :: '/' :: rest')) :
    children = children' ∧ rest = rest' := by
  induction children generalizing children' with
  | nil =>
    cases children' with
    | nil => exact ⟨rfl, by simpa using heq⟩
    | cons child' children' =>
      rw [xmlInside_nil] at heq
      -- no node starts as a closing tag does
      exact absurd heq (text_ne_xmlInside "" (List.cons_ne_nil child' children') h')
  | cons child children ih =>
    cases children' with
    | nil =>
      rw [xmlInside_nil] at heq
      exact absurd heq.symm (text_ne_xmlInside "" (List.cons_ne_nil child children) h)
    | cons child' children' =>
      obtain ⟨hchild, hchildren⟩ := List.forall_mem_cons.1 h
      obtain ⟨hfirst, hmarked⟩ := List.forall_mem_cons.1 hmarked
      obtain ⟨hchild', hchildren'⟩ := List.forall_mem_cons.1 h'
      rw [xmlInside_cons hchild.isLeaf, xmlInside_cons hchild'.isLeaf] at heq
      obtain ⟨rfl, htail⟩ := hfirst child' _ _ hchild' heq
      obtain ⟨rfl, hrest⟩ := ih hchildren hmarked hchildren' htail
      exact ⟨rfl, hrest⟩

/-- A node with a text in it is determined by its markup, against nodes with texts and nodes with
children. -/
theorem marked_text {label : String} (hlabel : IsTag label) (text : String) :
    (wrap label (leaf text)).Marked := by
  intro tree' rest rest' h' heq
  cases h' with
  | @text label' hlabel' text' =>
    obtain ⟨rfl, ⟨hnil, -⟩ | ⟨-, -, hinside⟩⟩ := branch_append_inj hlabel hlabel' heq
    · exact absurd hnil (List.cons_ne_nil _ _)
    · rw [xmlInside_leaf, xmlInside_leaf] at hinside
      obtain ⟨rfl, hrest⟩ := text_append_inj text text' hinside
      exact ⟨rfl, by simpa using hrest⟩
  | @branch label' children' hlabel' hchildren' =>
    obtain ⟨rfl, ⟨hnil, -⟩ | ⟨-, hne', hinside⟩⟩ := branch_append_inj hlabel hlabel' heq
    · exact absurd hnil (List.cons_ne_nil _ _)
    · rw [xmlInside_leaf] at hinside
      exact absurd hinside (text_ne_xmlInside text hne' hchildren')

/-- The markup of a formed tree determines the tree. The induction is on the tree, with what follows left
open. -/
theorem Formed.marked {tree : Tree} (h : tree.Formed) : tree.Marked := by
  induction h with
  | text hlabel text => exact marked_text hlabel text
  | @branch label children hlabel hchildren ih =>
    intro tree' rest rest' h' heq
    cases h' with
    | @text label' hlabel' text' =>
      obtain ⟨rfl, ⟨-, hnil, -⟩ | ⟨hne, -, hinside⟩⟩ := branch_append_inj hlabel hlabel' heq
      · exact absurd hnil (List.cons_ne_nil _ _)
      · rw [xmlInside_leaf] at hinside
        exact absurd hinside.symm (text_ne_xmlInside text' hne hchildren)
    | @branch label' children' hlabel' hchildren' =>
      obtain ⟨rfl, ⟨rfl, rfl, hrest⟩ | ⟨-, -, hinside⟩⟩ := branch_append_inj hlabel hlabel' heq
      · exact ⟨rfl, hrest⟩
      · obtain ⟨rfl, hrest⟩ := xmlInside_inj hchildren ih hchildren' hinside
        exact ⟨rfl, by simpa using hrest⟩

/-- Formed trees with the same markup are the same, as the case in which nothing follows. -/
theorem Formed.xml_inj {tree tree' : Tree} (h : tree.Formed) (h' : tree'.Formed) (heq : tree.xml = tree'.xml) :
    tree = tree' :=
  (h.marked tree' [] [] h' (by rw [xmlBefore, xmlBefore, heq])).1

/-- A formed tree under a label that can stand in a tag is formed. -/
theorem Formed.wrap {label : String} (hlabel : IsTag label) {child : Tree} (h : child.Formed) :
    (wrap label child).Formed :=
  .branch hlabel (List.forall_mem_singleton.2 h)

/-- A value that may be missing leaves a formed tree under its label, or none. -/
theorem formed_of_mem_under {α : Type} {toTree : α → Tree} (h : ∀ value, (toTree value).Formed) {label : String}
    (hlabel : IsTag label) (value? : Option α) : ∀ tree ∈ under label (value?.map toTree), tree.Formed := by
  cases value? with
  | none => simp [under]
  | some value => exact List.forall_mem_singleton.2 ((h value).wrap hlabel)

end Tree

open BraceLang.Tree (Formed IsTag branch wrap under)

/-! ### The trees of programs are formed -/

/-- The tree of an operand is its text under a label, and any text is allowed there. -/
theorem Operand.formed_toTree (value : Operand) : value.toTree.Formed := by
  cases value <;> exact .text (by decide) _

/-- The tree of a type is formed, also where the type is unknown and its text is arbitrary. -/
theorem DataType.formed_toTree (type : DataType) : type.toTree.Formed :=
  .text (by decide) type.name

/-- The tree of a name is formed, whatever the name is. -/
theorem Tree.formed_ofName (name : String) : (Tree.ofName name).Formed :=
  .text (by decide) name

/-- The tree of an expression is formed: its operators have labels of their own, and an unknown one does not
use its text. -/
theorem Expr.formed_toTree (value : Expr) : value.toTree.Formed := by
  induction value with
  | operand last => exact last.formed_toTree
  | binary op left right ih =>
    have htag : IsTag op.tag := by
      cases op with
      | unknown symbol => exact (by decide : IsTag "unknown")
      | add | sub | mul | div => decide
    rw [toTree_binary]
    exact .branch htag (by simpa using ⟨left.formed_toTree, ih⟩)

/-- The tree of a condition is formed, with or without a comparison in it. -/
theorem Condition.formed_toTree (test : Condition) : test.toTree.Formed := by
  cases test with
  | operand value => exact value.formed_toTree
  | compare op left right =>
    have htag : IsTag op.tag := by
      cases op with
      | unknown symbol => exact (by decide : IsTag "unknown")
      | equals => decide
    exact .branch htag (by simpa using ⟨left.formed_toTree, right.formed_toTree⟩)

/-- The tree of an assignment is formed: the name, and the value under a label. -/
theorem Assignment.formed_toTree (assigned : Assignment) : assigned.toTree.Formed :=
  .branch (by decide) (by
    simpa using ⟨Tree.formed_ofName _, assigned.value.formed_toTree.wrap (by decide)⟩)

/-- The tree of a declaration is formed, with a first value in it or without. -/
theorem Declaration.formed_toTree (declared : Declaration) : declared.toTree.Formed := by
  refine .branch (by decide) (List.forall_mem_append.2 ⟨?_, ?_⟩)
  · simpa using ⟨declared.type.formed_toTree, Tree.formed_ofName _⟩
  · intro tree hmem
    obtain ⟨value, -, rfl⟩ : ∃ value, declared.init? = some value ∧
        Assignment.toTree ⟨declared.name, value⟩ = tree := by simpa using hmem
    exact Assignment.formed_toTree _

mutual

/-- The tree of a statement is formed, and so are those of the statements inside it. The induction is on the
statement. -/
theorem Stmt.formed_toTree : (stmt : Stmt) → stmt.toTree.Formed
  | .declaration declared => declared.formed_toTree
  | .assignment assigned => assigned.formed_toTree
  | .ifElse test body other? => by
    have htest : (wrap "condition" test.toTree).Formed := test.formed_toTree.wrap (by decide)
    have hbody : (branch "compound" (Stmt.toTrees body)).Formed :=
      .branch (by decide) (Stmt.formed_toTrees body)
    have hother := Stmt.formed_optionToTrees (by decide : IsTag "else") other?
    rw [Stmt.toTree]
    exact .branch (by decide) (List.forall_mem_cons.2 ⟨htest, List.forall_mem_cons.2 ⟨hbody, hother⟩⟩)
  | .whileLoop test body => by
    have htest : (wrap "condition" test.toTree).Formed := test.formed_toTree.wrap (by decide)
    have hbody : (branch "compound" (Stmt.toTrees body)).Formed :=
      .branch (by decide) (Stmt.formed_toTrees body)
    rw [Stmt.toTree]
    exact .branch (by decide) (by simpa using ⟨htest, hbody⟩)
  | .forLoop init? test? step? body => by
    have hinit := Stmt.formed_optionToTrees (by decide : IsTag "init") init?
    have htest := Tree.formed_of_mem_under Condition.formed_toTree (by decide : IsTag "condition") test?
    have hstep := Tree.formed_of_mem_under Assignment.formed_toTree (by decide : IsTag "step") step?
    have hbody : (branch "compound" (Stmt.toTrees body)).Formed :=
      .branch (by decide) (Stmt.formed_toTrees body)
    rw [Stmt.toTree_forLoop, ← Stmt.optionToTrees_eq]
    refine .branch (by decide) (List.forall_mem_append.2 ⟨hinit, ?_⟩)
    refine List.forall_mem_append.2 ⟨htest, List.forall_mem_append.2 ⟨hstep, ?_⟩⟩
    exact List.forall_mem_singleton.2 hbody
  | .call callee args => by
    have hargs : (branch "args" (args.map fun arg => wrap "expression" arg.toTree)).Formed :=
      .branch (by decide) (List.forall_mem_map.2 fun arg _ => arg.formed_toTree.wrap (by decide))
    rw [Stmt.toTree]
    exact .branch (by decide) (by simpa using ⟨Tree.formed_ofName callee, hargs⟩)
  | .ret value? => by
    have hvalue := Tree.formed_of_mem_under Expr.formed_toTree (by decide : IsTag "expression") value?
    rw [Stmt.toTree]
    exact .branch (by decide) (by simpa [under] using hvalue)
  | .compound body => .branch (by decide) (Stmt.formed_toTrees body)
  | .empty => .branch (by decide) (by simp)
  | .unknown found => .text (by decide) found

/-- The trees of the statements of a block are formed. -/
theorem Stmt.formed_toTrees : (body : List Stmt) → ∀ tree ∈ Stmt.toTrees body, tree.Formed
  | [] => by simp [Stmt.toTrees]
  | stmt :: body => List.forall_mem_cons.2 ⟨Stmt.formed_toTree stmt, Stmt.formed_toTrees body⟩

/-- A statement that may be missing leaves a formed tree under its label, or none. -/
theorem Stmt.formed_optionToTrees {label : String} (hlabel : IsTag label) :
    (stmt? : Option Stmt) → ∀ tree ∈ Stmt.optionToTrees label stmt?, tree.Formed
  | none => by simp [Stmt.optionToTrees]
  | some stmt => List.forall_mem_singleton.2 ((Stmt.formed_toTree stmt).wrap hlabel)

end

/-- The tree of an item is formed, whichever of the four kinds of item it is. -/
theorem Item.formed_toTree (item : Item) : item.toTree.Formed := by
  have hblock (body : Block) : (Block.toTree body).Formed :=
    .branch (by decide) (Stmt.formed_toTrees body)
  cases item with
  | importFile path => exact .text (by decide) path
  | declaration declared => exact declared.formed_toTree
  | function type name params body =>
    have hparams : (branch "params" (params.map Declaration.toTree)).Formed :=
      .branch (by decide) (List.forall_mem_map.2 fun param _ => param.formed_toTree)
    exact .branch (by decide) (by
      simpa using ⟨type.formed_toTree, Tree.formed_ofName name, hparams, hblock body⟩)
  | entry body => exact (hblock body).wrap (by decide)

/-! ### Phrases -/

/-- A part of a program that has a tree of its own. -/
inductive Phrase where
  | item (item : Item)
  | stmt (stmt : Stmt)
  | expr (expr : Expr)
  | condition (condition : Condition)

/-- The tree of a phrase. -/
def Phrase.toTree : Phrase → Tree
  | item shown => shown.toTree
  | stmt shown => shown.toTree
  | expr shown => shown.toTree
  | condition shown => shown.toTree

/-- The tree of every phrase is formed, so that its markup can be read back. -/
theorem Phrase.formed_toTree (phrase : Phrase) : phrase.toTree.Formed := by
  cases phrase with
  | item shown => exact shown.formed_toTree
  | stmt shown => exact shown.formed_toTree
  | expr shown => exact shown.formed_toTree
  | condition shown => exact shown.formed_toTree

/-- Phrases of any sort have the same XML only if they have the same tree. -/
theorem Phrase.xml_toTree_inj (phrase phrase' : Phrase) :
    phrase.toTree.xml = phrase'.toTree.xml ↔ phrase.toTree = phrase'.toTree :=
  ⟨phrase.formed_toTree.xml_inj phrase'.formed_toTree, congrArg Tree.xml⟩

-- a text that spells the markup of another statement
example : (Phrase.stmt (.unknown "<empty/>")).toTree.xml ≠ (Phrase.stmt .empty).toTree.xml := by decide

end BraceLang
