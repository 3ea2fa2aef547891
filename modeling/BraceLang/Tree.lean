/-!
# Labelled trees

The form in which a program is shown. A node has a label, children in order and, if it stands for a piece
of text, that text; such a node is a leaf.
-/

set_option autoImplicit false

namespace BraceLang

/-- A labelled tree: a label, the text that the node stands for, if it stands for one, and the trees below
it, in order. -/
inductive Tree where
  | node (label : String) (text? : Option String) (children : List Tree)
deriving Inhabited

namespace Tree

/-- The label of the root, which names the sort of part that the tree shows, or is the text of a leaf. -/
def label : Tree → String
  | node label _ _ => label

/-- The text that the root stands for, if it stands for one. An empty text is a text too. -/
def text? : Tree → Option String
  | node _ text? _ => text?

/-- The trees directly below the root, in order. -/
def children : Tree → List Tree
  | node _ _ children => children

/-- An inner node, which stands for no text of its own. -/
def branch (label : String) (children : List Tree) : Tree :=
  node label none children

/-- A node that stands for a text, which is also its label, and has no children. -/
def leaf (text : String) : Tree :=
  node text (some text) []

/-- An inner node with one child, as parts that hold one other part are shown. -/
def wrap (label : String) (child : Tree) : Tree :=
  branch label [child]

/-- Whether the root stands for a text. It is not asked whether it has children. -/
def isLeaf (tree : Tree) : Bool :=
  tree.text?.isSome

/-- The tree with a further child at the end, behind the children it has. -/
def push : Tree → Tree → Tree
  | node label text? children, child => node label text? (children ++ [child])

/-- The tree with the first of `path` as a further child, the second as a further child of the first, and
so on. -/
def pushPath : Tree → List Tree → Tree
  | tree, [] => tree
  | tree, child :: path => tree.push (child.pushPath path)

/-- The first child with the given label, if a child has it; what is further below is not searched. -/
def get? (tree : Tree) (label : String) : Option Tree :=
  tree.children.find? fun child => child.label = label

/-- The child at place `i`, counted from the first, if there are that many. -/
def child? (tree : Tree) (i : Nat) : Option Tree :=
  tree.children[i]?

mutual

/-- Trees are equal when their labels, texts and children are, which is decided in that order. -/
def decEq : (s t : Tree) → Decidable (s = t)
  | node l₁ t₁ c₁, node l₂ t₂ c₂ =>
    if hl : l₁ = l₂ then
      if ht : t₁ = t₂ then
        match decEqAll c₁ c₂ with
        | isTrue hc => isTrue (by rw [hl, ht, hc])
        | isFalse hc => isFalse fun h => hc (by injection h)
      else isFalse fun h => ht (by injection h)
    else isFalse fun h => hl (by injection h)

/-- Lists of trees are equal when they are of one length and their members are equal in turn. -/
def decEqAll : (ss ts : List Tree) → Decidable (ss = ts)
  | [], [] => isTrue rfl
  | [], _ :: _ => isFalse nofun
  | _ :: _, [] => isFalse nofun
  | s :: ss, t :: ts =>
    match decEq s t with
    | isTrue hs =>
      match decEqAll ss ts with
      | isTrue hss => isTrue (by rw [hs, hss])
      | isFalse hss => isFalse fun h => hss (by injection h)
    | isFalse hs => isFalse fun h => hs (by injection h)

end

instance : DecidableEq Tree := decEq

end Tree

end BraceLang
