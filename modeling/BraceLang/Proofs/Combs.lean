import BraceLang.Proofs.Chains
import BraceLang.Proofs.Completeness
import BraceLang.Tree.Lower

/-!
# Expressions as combs

The tree of an expression is built by a loop: the operators are gathered from the outside in, and their nodes are put
around the last operand from the inside out. It is the tree that recursion over the expression gives
(`Expr.toTree_eq_nested`), where an operator stands above its left side and the tree of its right side.

Reading is a loop of the same kind, so an operator could be paired with a wrong operand twice and the result still
look like a tree. A `Chain` is a run of tokens, operands with an operator between any two, and its comb has the first
operator at the root with the operand in front of it, the second below it, and so on to the last operand, which is
alone. From the tokens of a chain, reading and showing together give this comb (`toTree_expr_eq_comb`). It does not
matter whether the operators have a meaning, only that no operator follows the chain.
-/

set_option autoImplicit false

namespace BraceLang

open BraceLang.Tree (branch leaf wrap)

/-! ### Trees by recursion -/

/-- What an operand is, as the label above its text. -/
def Operand.category : Operand → String
  | identifier _ => "identifier"
  | literal _ => "literal"
  | missing _ => "error"

/-- An operand is shown as its text under the label that says what it is. -/
theorem Operand.toTree_eq_wrap (value : Operand) : value.toTree = wrap value.category (leaf value.text) := by
  cases value <;> rfl

/-- The tree of an expression by recursion over it: an operator above its left side and the tree of its
right side. -/
def Expr.nested : Expr → Tree
  | operand value => wrap value.category (leaf value.text)
  | binary op left right => branch op.tag [wrap left.category (leaf left.text), right.nested]

/-- The loop builds the same tree as the recursion. The induction follows the right sides. -/
theorem Expr.toTree_eq_nested (expr : Expr) : expr.toTree = expr.nested := by
  induction expr with
  | operand value => rw [toTree_operand, Operand.toTree_eq_wrap, nested]
  | binary op left right ih => rw [toTree_binary, Operand.toTree_eq_wrap, ih, nested]

/-! ### Chains of tokens -/

/-- An identifier or a literal, as it stands among tokens. -/
structure OperandWord extends Word where
  kind_eq : kind = .identifier ∨ kind = .literal

/-- An operator, with or without a meaning, as it stands among tokens. -/
structure OperatorWord extends Word where
  kind_eq : kind = .mathOp

namespace OperandWord

/-- The operand that a word is read as, an identifier or a literal by the kind of the word. -/
def operand (word : OperandWord) : Operand :=
  if word.kind = .identifier then .identifier word.value else .literal word.value

/-- The tree that shows a word: its text under the label of an identifier or of a literal. -/
def tree (word : OperandWord) : Tree :=
  wrap (if word.kind = .identifier then "identifier" else "literal") (leaf word.value)

/-- A word for an operand spells the operand that it is read as. -/
theorem spelled (word : OperandWord) : word.operand.Spelled word.toWord := by
  unfold operand
  split
  · exact .identifier (by assumption)
  · rename_i hne
    exact .literal (word.kind_eq.resolve_left hne)

/-- The operand of a word is shown as the tree of the word, since what is read keeps its text. -/
theorem wrap_operand (word : OperandWord) :
    wrap word.operand.category (leaf word.operand.text) = word.tree := by
  unfold operand tree
  split <;> rfl

end OperandWord

/-- The label of the node of an operator, which is the same for all operators without a meaning. -/
def OperatorWord.tag (word : OperatorWord) : String :=
  (MathOp.ofSymbol word.value).tag

/-- Operands with an operator between any two of them: each operand with the operator behind it, and the last one. -/
structure Chain where
  links : List (OperandWord × OperatorWord)
  last : OperandWord

namespace Chain

/-- The words of a chain in their order, each operand with the operator behind it and then the last
operand. -/
def words (chain : Chain) : List Word :=
  chain.links.flatMap (fun link => [link.1.toWord, link.2.toWord]) ++ [chain.last.toWord]

/-- The expression that a chain spells, with each operator above its operand and all that follows. -/
def expr (chain : Chain) : Expr :=
  chain.links.foldr (fun link right => .binary (.ofSymbol link.2.value) link.1.operand right)
    (.operand chain.last.operand)

/-- The comb of a chain: below each operator its operand, and beside this the comb of what follows. -/
def comb (chain : Chain) : Tree :=
  chain.links.foldr (fun link right => branch link.2.tag [link.1.tree, right]) chain.last.tree

/-- The first link of a chain stands in front of the words of the rest. -/
theorem words_cons (link : OperandWord × OperatorWord) (links : List (OperandWord × OperatorWord))
    (last : OperandWord) :
    words ⟨link :: links, last⟩ = link.1.toWord :: link.2.toWord :: words ⟨links, last⟩ := rfl

/-- The first operator of a chain is the outermost one of its expression, and the rest of the chain is its
right side. -/
theorem expr_cons (link : OperandWord × OperatorWord) (links : List (OperandWord × OperatorWord))
    (last : OperandWord) :
    expr ⟨link :: links, last⟩ = .binary (.ofSymbol link.2.value) link.1.operand (expr ⟨links, last⟩) := rfl

/-- The first operator of a chain is the root of its comb, and the comb of the rest is its second child. -/
theorem comb_cons (link : OperandWord × OperatorWord) (links : List (OperandWord × OperatorWord))
    (last : OperandWord) :
    comb ⟨link :: links, last⟩ = branch link.2.tag [link.1.tree, comb ⟨links, last⟩] := rfl

/-- The expression of a chain has the comb of the chain for its tree. The induction is on the links. -/
theorem nested_expr (chain : Chain) : chain.expr.nested = chain.comb := by
  obtain ⟨links, last⟩ := chain
  induction links with
  | nil => exact last.wrap_operand
  | cons link links ih =>
    rw [expr_cons, comb_cons, Expr.nested, ih, link.1.wrap_operand, OperatorWord.tag]

end Chain

/-! ### The spine of a tree -/

/-- The node reached from a tree by going `i` times to the second child. -/
def Tree.spine? (tree : Tree) : Nat → Option Tree
  | 0 => some tree
  | i + 1 => (tree.child? 1).bind fun right => right.spine? i

/-- The operators of a chain stand down the spine of a tree, each above the operand in front of it and the rest of the
spine, and the last operand stands at its end. -/
structure Tree.HasSpine (tree : Tree) (chain : Chain) : Prop where
  link : ∀ (i : Nat) (h : i < chain.links.length), ∃ right,
    tree.spine? i = some (branch chain.links[i].2.tag [chain.links[i].1.tree, right])
  last : tree.spine? chain.links.length = some chain.last.tree

namespace Chain

/-- A comb has the spine of its chain: going down its second children meets the operators in their order. -/
theorem hasSpine_comb (chain : Chain) : chain.comb.HasSpine chain := by
  obtain ⟨links, last⟩ := chain
  induction links with
  | nil => exact ⟨fun i h => absurd h (Nat.not_lt_zero i), rfl⟩
  | cons link links ih =>
    refine ⟨fun i h => ?_, ih.last⟩
    cases i with
    | zero => exact ⟨comb ⟨links, last⟩, rfl⟩
    | succ i => exact ih.link i (Nat.lt_of_succ_lt_succ h)

/-- No other tree has that spine, since the node at each operator is known and so is the end. -/
theorem eq_comb_of_hasSpine {tree : Tree} {chain : Chain} (h : tree.HasSpine chain) : tree = chain.comb := by
  obtain ⟨links, last⟩ := chain
  induction links generalizing tree with
  | nil => exact Option.some.inj h.last
  | cons link links ih =>
    obtain ⟨right, hroot⟩ := h.link 0 (Nat.succ_pos _)
    obtain rfl := Option.some.inj hroot
    have hright : right.HasSpine ⟨links, last⟩ :=
      ⟨fun i hi => h.link (i + 1) (Nat.succ_lt_succ hi), h.last⟩
    rw [ih hright, comb_cons]
    rfl

end Chain

/-! ### Chains as they are read -/

namespace Production

open Word (firstKind)

variable {cursor : Cursor} {us rest : List Word}

/-- An operator is taken with the meaning of its symbol, and one word with it. -/
theorem takeOperator_of_ahead (hc : cursor.Valid) (word : OperatorWord) (hahead : cursor.ahead = word.toWord :: us) :
    (takeOperator cursor).1 = .ofSymbol word.value ∧ (takeOperator cursor).2.ahead = us := by
  have hvalue : cursor.current.value = word.value := congrArg Word.value (hc.current_word hahead)
  have hstep : cursor.step.ahead = us := hc.ahead_step hahead (by simp [word.kind_eq])
  unfold takeOperator
  rw [hvalue]
  split
  · rename_i symbol hsymbol
    exact ⟨hsymbol.symm, hstep⟩
  · exact ⟨rfl, hstep⟩

/-- A chain that no operator follows is read as the expression that it spells, and nothing behind it is taken. -/
theorem expr_of_chain (chain : Chain) (hc : cursor.Valid) (hahead : cursor.ahead = chain.words ++ rest)
    (hrest : firstKind rest ≠ .mathOp) : ∃ after, expr cursor = (chain.expr, after) ∧ after.ahead = rest := by
  obtain ⟨links, last⟩ := chain
  induction links generalizing cursor with
  | nil =>
    obtain ⟨after, hoperand, hafter⟩ := last.spelled.takes cursor hc hahead
    have hk : (operand cursor).2.kind ≠ .mathOp := by
      rwa [hoperand.state, Cursor.kind_eq_firstKind, hafter]
    refine ⟨after, ?_, hafter⟩
    rw [expr_of_no_operator hc hk, hoperand.result, hoperand.state]
    rfl
  | cons link links ih =>
    rw [Chain.words_cons] at hahead
    obtain ⟨middle, hoperand, hmiddle⟩ := link.1.spelled.takes cursor hc hahead
    have hk : (operand cursor).2.kind = .mathOp := by
      rw [hoperand.state]
      exact kind_of_ahead hmiddle link.2.kind_eq
    have hvalid := valid_takeOperator hc hk
    rw [hoperand.state] at hvalid
    obtain ⟨hop, hbehind⟩ := takeOperator_of_ahead (hoperand.valid hc) link.2 hmiddle
    -- behind the operator the rest of the chain is an expression of its own
    obtain ⟨after, hright, hafter⟩ := ih hvalid hbehind
    refine ⟨after, ?_, hafter⟩
    rw [expr_of_operator hc hk, hoperand.state, hop, hoperand.result, hright, Chain.expr_cons]

end Production

open Production (expr)

/-- The tree that is built by a loop is the one that recursion over the expression gives. Wherever clients have led
a cursor, a chain that is ahead of it, with a word behind that is no operator, is read to its end and shown as its
comb, and that is the one tree with the operators down its spine in their order, each above the operand in front of
it. -/
theorem toTree_expr_eq_comb :
    (∀ value : Expr, value.toTree = value.nested) ∧
    ∀ (tokens : List Token) (file : String) (clients : List Cursor.Client) (chain : Chain) (next : Word)
      (rest : List Word),
      let cursor := (Cursor.ofTokens tokens file).after clients
      cursor.ahead = chain.words ++ next :: rest → next.kind ≠ .mathOp →
      (expr cursor).1.toTree = chain.comb ∧
      (∀ tree : Tree, tree.HasSpine chain ↔ tree = (expr cursor).1.toTree) ∧
      (expr cursor).2.ahead = next :: rest := by
  refine ⟨Expr.toTree_eq_nested, ?_⟩
  intro tokens file clients chain next rest cursor hahead hnext
  have hc : cursor.Valid := ((Cursor.moves_after _ clients).sound (Cursor.sound_ofTokens tokens file)).valid
  obtain ⟨after, hread, hafter⟩ := Production.expr_of_chain chain hc hahead hnext
  have htree : chain.expr.toTree = chain.comb := by
    calc chain.expr.toTree = chain.expr.nested := chain.expr.toTree_eq_nested
      _ = chain.comb := chain.nested_expr
  rw [hread]
  refine ⟨htree, fun tree => ?_, hafter⟩
  rw [htree]
  constructor
  · exact Chain.eq_comb_of_hasSpine
  · rintro rfl
    exact chain.hasSpine_comb

/-- The value of an assignment, a chain with a literal in it and with an operator that has no meaning, up to the
semicolon. The cursor has been led there token by token. -/
theorem toTree_expr_eq_comb_sample :
    let tokens : List Token :=
      [⟨.identifier, "x", .covering "shell" 0 1⟩, ⟨.assignment, "=", .covering "shell" 2 1⟩,
       ⟨.identifier, "a", .covering "shell" 4 1⟩, ⟨.mathOp, "+", .covering "shell" 6 1⟩,
       ⟨.literal, "1", .covering "shell" 8 1⟩, ⟨.mathOp, "%", .covering "shell" 10 1⟩,
       ⟨.identifier, "b", .covering "shell" 12 1⟩, ⟨.semicolon, ";", .covering "shell" 13 1⟩]
    let client : Cursor.Client := .ask .advance fun _ => .ask .advance fun _ => .done true
    let cursor := (Cursor.ofTokens tokens "shell").after [client]
    let chain : Chain :=
      ⟨[(⟨⟨.identifier, "a"⟩, .inl rfl⟩, ⟨⟨.mathOp, "+"⟩, rfl⟩),
        (⟨⟨.literal, "1"⟩, .inr rfl⟩, ⟨⟨.mathOp, "%"⟩, rfl⟩)], ⟨⟨.identifier, "b"⟩, .inl rfl⟩⟩
    cursor.ahead = chain.words ++ ⟨.semicolon, ";"⟩ :: [⟨.endOfInput, "EOF"⟩] ∧
    Kind.semicolon ≠ .mathOp ∧
    (expr cursor).1.toTree =
      branch "add" [wrap "identifier" (leaf "a"),
        branch "unknown" [wrap "literal" (leaf "1"), wrap "identifier" (leaf "b")]] := by
  intro tokens client cursor chain
  have hahead : cursor.ahead = chain.words ++ ⟨.semicolon, ";"⟩ :: [⟨.endOfInput, "EOF"⟩] := by decide
  refine ⟨hahead, by decide, ?_⟩
  rw [(toTree_expr_eq_comb.2 tokens "shell" [client] chain ⟨.semicolon, ";"⟩ _ hahead (by decide)).1]
  decide

end BraceLang
