import BraceLang.Tree

/-!
# Outlines

An outline shows a tree with one label on a line, indented by two spaces for each level.
-/

set_option autoImplicit false

namespace BraceLang.Tree

/-- The line of an outline for a node with the given label. An empty label would not be seen, so a word in
brackets stands for it. -/
def outlineLine (depth : Nat) (label : String) : String :=
  String.ofList (List.replicate (2 * depth) ' ') ++ (if label = "" then "<empty>" else label) ++ "\n"

mutual

/-- The outline of a tree at the given depth, after `out`: its own line, and below it the outlines of its
children, one level deeper. -/
def outlineOnto (out : String) (depth : Nat) : Tree → String
  | node label _ children => outlinesOnto (out ++ outlineLine depth label) (depth + 1) children

/-- The outlines of several trees, one below the other at the same depth, after `out`. -/
def outlinesOnto (out : String) (depth : Nat) : List Tree → String
  | [] => out
  | tree :: trees => outlinesOnto (outlineOnto out depth tree) depth trees

end

mutual

/-- What is already written stands in front, unchanged, so an outline can be read without what is above
it. -/
theorem outlineOnto_eq (out : String) (depth : Nat) :
    (tree : Tree) → outlineOnto out depth tree = out ++ outlineOnto "" depth tree
  | node label _ children => by
    rw [outlineOnto, outlineOnto, outlinesOnto_eq, outlinesOnto_eq ("" ++ _), String.empty_append,
      String.append_assoc]

/-- What is already written stands in front of several outlines, unchanged, which is what one outline needs
of those of its children. -/
theorem outlinesOnto_eq (out : String) (depth : Nat) :
    (trees : List Tree) → outlinesOnto out depth trees = out ++ outlinesOnto "" depth trees
  | [] => by rw [outlinesOnto, outlinesOnto, String.append_empty]
  | tree :: trees => by
    rw [outlinesOnto, outlinesOnto, outlinesOnto_eq, outlineOnto_eq,
      outlinesOnto_eq (outlineOnto "" depth tree), String.append_assoc]

end

/-- The outline of a tree, whose root is at the left margin. -/
def outline (tree : Tree) : String :=
  outlineOnto "" 0 tree

end BraceLang.Tree
