import BraceLang.Tree

/-!
# Trees as XML

A leaf is written as its text and any other node as an element named by its label. Two leaves in a row
have a space between them.
-/

set_option autoImplicit false

namespace BraceLang.Tree

/-- The text with `entity` in the place of each `c`. The entity is not searched again. -/
def replaceChar (c : Char) (entity : String) (text : String) : String :=
  String.ofList (text.toList.flatMap fun d => if d = c then entity.toList else [d])

/-- A text as it stands between tags. The ampersands go first, because the entities that are written for
the other characters hold ampersands of their own. -/
def xmlText (text : String) : String :=
  text |> replaceChar '&' "&amp;" |> replaceChar '<' "&lt;" |> replaceChar '>' "&gt;"

/-- The name of the element for a node with the given label. An empty label would make an element without a
name, so a word stands for it. -/
def xmlTag (label : String) : String :=
  if label = "" then "node" else label

mutual

/-- A tree as XML, after `out`: its text if it stands for one, and otherwise an element, which is closed at
once where it has no children. -/
def xmlOnto (out : String) : Tree → String
  | node _ (some text) _ => out ++ xmlText text
  | node label none children =>
    if children.isEmpty then out ++ "<" ++ xmlTag label ++ "/>"
    else xmlAllOnto (out ++ "<" ++ xmlTag label ++ ">") false children ++ "</" ++ xmlTag label ++ ">"

/-- Several trees as XML, after `out`; `afterLeaf` says whether a leaf was the last. -/
def xmlAllOnto (out : String) (afterLeaf : Bool) : List Tree → String
  | [] => out
  | tree :: trees =>
    xmlAllOnto (xmlOnto (if afterLeaf && tree.isLeaf then out ++ " " else out) tree) tree.isLeaf trees

end

mutual

/-- What is already written stands in front, unchanged, so the XML of a tree does not depend on what is
around it. -/
theorem xmlOnto_eq (out : String) : (tree : Tree) → xmlOnto out tree = out ++ xmlOnto "" tree
  | node _ (some text) _ => by rw [xmlOnto, xmlOnto, String.empty_append]
  | node label none children => by
    rw [xmlOnto, xmlOnto]
    split
    · simp only [String.empty_append, String.append_assoc]
    · rw [xmlAllOnto_eq, xmlAllOnto_eq ("" ++ _ ++ _ ++ _)]
      simp only [String.empty_append, String.append_assoc]

/-- What is already written stands in front of several trees, unchanged. Whether a leaf was the last is told
apart from it. -/
theorem xmlAllOnto_eq (out : String) (afterLeaf : Bool) :
    (trees : List Tree) → xmlAllOnto out afterLeaf trees = out ++ xmlAllOnto "" afterLeaf trees
  | [] => by rw [xmlAllOnto, xmlAllOnto, String.append_empty]
  | tree :: trees => by
    rw [xmlAllOnto, xmlAllOnto, xmlAllOnto_eq, xmlAllOnto_eq (xmlOnto _ tree)]
    split
    · rw [xmlOnto_eq, xmlOnto_eq ("" ++ " ")]
      simp only [String.empty_append, String.append_assoc]
    · rw [xmlOnto_eq, String.append_assoc]

end

/-- A tree as XML, without a header and without line breaks or indentation of its own. -/
def xml (tree : Tree) : String :=
  xmlOnto "" tree

end BraceLang.Tree
