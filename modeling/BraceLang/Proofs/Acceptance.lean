import BraceLang.Proofs.Completeness
import Mathlib.Data.List.TakeWhile

/-!
# Which token streams are accepted

A token stream is read without a diagnostic exactly if the grammar derives a program from the tokens before
its first end token, and then that program is what is read. The grammar is the one in which nothing is left
out that the next word would supply, `Omission.settled`.

The grammar without that restriction, `Omission.free`, derives more. It lets a return without a value stand
before any statement, where reading takes the next token for the start of the value, and it derives two
programs where a semicolon may end a statement or be one.
-/

set_option autoImplicit false

namespace BraceLang

open Production (Reads)
open Word (firstKind Optional Perhaps)

/-! ### Words of derivations -/

section

variable {us : List Word}

/-- No word of the list is an end word. -/
def Word.Solid (us : List Word) : Prop :=
  ∀ word ∈ us, word.kind ≠ .endOfInput

open Word (Solid)

/-- The empty row of words has no end word in it, so that a part left out never ends a stream. -/
@[simp]
theorem Word.solid_nil : Solid [] := by
  simp [Solid]

/-- A row is free of end words if its first word is none and the words behind it are free of them. -/
@[simp]
theorem Word.solid_cons {word : Word} {us : List Word} :
    Solid (word :: us) ↔ word.kind ≠ .endOfInput ∧ Solid us := by
  simp [Solid]

/-- Two rows in a row are free of end words exactly if both are, which takes a phrase apart. -/
@[simp]
theorem Word.solid_append {us vs : List Word} : Solid (us ++ vs) ↔ Solid us ∧ Solid vs :=
  List.forall_mem_append

/-- An operand is spelled as a name or as a literal, and neither of them is an end word. -/
theorem Operand.Spelled.solid {w : Word} {value : Operand} (h : value.Spelled w) :
    w.kind ≠ .endOfInput := by
  cases h with
  | identifier hw => simp [hw]
  | literal hw => simp [hw]

/-- A type is spelled by the word of a type, which is not the end of the input. -/
theorem DataType.Spelled.solid {w : Word} {type : DataType} (h : type.Spelled w) :
    w.kind ≠ .endOfInput := by
  simp [h.kind]

/-- No expression runs over an end word: its words are operands and the operators between them. -/
theorem Expr.Derives.solid {value : Expr} (h : value.Derives us) : Solid us := by
  induction h with
  | operand hw => simp [hw.solid]
  | binary hw hs hright ih => simp [hw.solid, hs.kind, ih]

/-- A condition without parentheses is one or two operands and a comparison, all of them solid words. -/
theorem Condition.Bare.solid {test : Condition} (h : test.Bare us) : Solid us := by
  cases h with
  | operand hw => simp [hw.solid]
  | compare hw hs hequals hv => simp [hw.solid, hs, hv.solid]

/-- Parentheses around a condition add two words and neither of them ends the input. -/
theorem Condition.Derives.solid {test : Condition} (h : test.Derives us) : Solid us := by
  cases h with
  | bare h => exact h.solid
  | parenthesised hw h hv => simp [hw, h.solid, hv]

/-- What stands between the parentheses of a call is expressions and commas up to the closing one. -/
theorem Arguments.Inside.solid {args : List Expr} (h : Arguments.Inside us args) : Solid us := by
  induction h with
  | close hw => simp [hw]
  | last harg hw => simp [harg.solid, hw]
  | more harg hw hargs ih => simp [harg.solid, hw, ih]

/-- The arguments of a call lie before the first end word, the parentheses around them included. -/
theorem Arguments.Derives.solid {args : List Expr} (h : Arguments.Derives us args) : Solid us := by
  cases h with
  | mk hw h => simp [hw, h.solid]

/-- An assignment is a name, an equals sign and an expression, and none of them ends the input. -/
theorem Assignment.Derives.solid {assigned : Assignment} (h : assigned.Derives us) : Solid us := by
  cases h with
  | mk hname hequals hvalue => simp [hname, hequals, hvalue.solid]

/-- A declaration has no end word in it, whether it gives its variable a first value or not. -/
theorem Declaration.Derives.solid {declared : Declaration} (h : declared.Derives us) : Solid us := by
  cases h with
  | plain ht hcolon hname => simp [ht.solid, hcolon, hname]
  | valued ht hcolon hfirst => simp [ht.solid, hcolon, hfirst.solid]

/-- A word that may be left out adds no end word, as long as it is not the end word that is asked for. -/
theorem Word.Optional.solid {wanted : Kind} (h : Optional wanted us) (hwanted : wanted ≠ .endOfInput) :
    Solid us := by
  cases h with
  | absent => exact solid_nil
  | present hw => simp [hw, hwanted]

/-- A part that may be left out is solid if the part is solid wherever it stands. -/
theorem Word.Perhaps.solid {α : Type} {derives : List Word → α → Prop} {part? : Option α}
    (h : Perhaps derives us part?) (hpart : ∀ part, derives us part → Solid us) : Solid us := by
  cases h with
  | none => exact solid_nil
  | some h => exact hpart _ h

/-- The parameters up to the closing parenthesis, with the commas that separate them, have no end word. -/
theorem Parameters.Inside.solid {params : List Declaration} (h : Parameters.Inside us params) :
    Solid us := by
  induction h with
  | close hw => simp [hw]
  | more hparam hcomma hparams ih => simp [hparam.solid, hcomma.solid, ih]

/-- The parameters of a function lie before the first end word, their parentheses included. -/
theorem Parameters.Derives.solid {params : List Declaration} (h : Parameters.Derives us params) :
    Solid us := by
  cases h with
  | mk hw h => simp [hw, h.solid]

/-- The first part of the head of a for loop declares or assigns, so that it is solid either way. -/
theorem ForInit.Derives.solid {first : Stmt} (h : ForInit.Derives us first) : Solid us := by
  cases h with
  | declaration h => exact h.solid
  | assignment h => exact h.solid

/-- The head of a for loop is solid, whichever of its three parts are left out. -/
theorem ForHeader.Derives.solid {init? : Option Stmt} {condition? : Option Condition}
    {step? : Option Assignment} (h : ForHeader.Derives us init? condition? step?) : Solid us := by
  cases h with
  | mk hinit hs hcondition ht hstep =>
    have hinit := hinit.solid fun _ h => h.solid
    have hcondition := hcondition.solid fun _ h => h.solid
    have hstep := hstep.solid fun _ h => h.solid
    simp [hinit, hs, hcondition, ht, hstep]

/-- Behind a statement there is a semicolon or nothing at all, so that no statement takes an end word with
it. -/
theorem Omission.Ends.solid {omission : Omission} {next : Kind} (h : omission.Ends us next) :
    Solid us := by
  cases h with
  | semicolon hw => simp [hw]
  | nothing => exact Word.solid_nil

end

section

open Word (Solid)

variable {omission : Omission}

mutual

/-- No statement holds an end word, however deep the statements inside it are. The induction is on the
derivation. -/
theorem Stmt.Derives.solid {us : List Word} {stmt : Stmt} {next : Kind} :
    stmt.Derives omission us next → Solid us
  | .empty hw => by simp [hw]
  | .compound hbody => hbody.solid
  | .declaration h hend => by simp [h.solid, hend.solid]
  | .assignment h hend => by simp [h.solid, hend.solid]
  | .call hname hargs hend => by simp [hname, hargs.solid, hend.solid]
  | .ret hw hend _ => by simp [hw, hend.solid]
  | .retValue hw hvalue hend => by simp [hw, hvalue.solid, hend.solid]
  | .ifThen hw htest hbody => by simp [hw, htest.solid, hbody.solid]
  | .ifElse hw htest hbody hv hother => by simp [hw, htest.solid, hbody.solid, hv, hother.solid]
  | .ifElseIf hw htest hbody hv hother => by simp [hw, htest.solid, hbody.solid, hv, hother.solid]
  | .whileLoop hw htest hbody => by simp [hw, htest.solid, hbody.solid]
  | .forLoop hw hheader hbody => by simp [hw, hheader.solid, hbody.solid]
  | .forLoopParenthesised hw hleft hheader hright hbody => by
    simp [hw, hleft, hheader.solid, hright, hbody.solid]

/-- The braces of a block and all between them stand before the first end word of the stream. -/
theorem Block.Derives.solid {us : List Word} {body : Block} :
    Block.Derives omission us body → Solid us
  | .mk hw h => by simp [hw, h.solid]

/-- The statements of a block up to its closing brace are solid, since each of them is. -/
theorem Block.Inside.solid {us : List Word} {body : Block} :
    Block.Inside omission us body → Solid us
  | .close hw => by simp [hw]
  | .more hstmt hbody => by simp [hstmt.solid, hbody.solid]

end

/-- A top-level item lies before the first end word, whichever of the four kinds of item it is. -/
theorem Item.Derives.solid {us : List Word} {item : Item} (h : item.Derives omission us) :
    Solid us := by
  cases h with
  | function ht hname hparams hbody => simp [ht.solid, hname, hparams.solid, hbody.solid]
  | declaration h hend => simp [h.solid, hend.solid]
  | entry hw hbody => simp [hw, hbody.solid]
  | importFile hw hpath hend => simp [hw, hpath, hend.solid]

/-- A program is derived from words other than end words, so that reading it never has to look past one. -/
theorem Program.Derives.solid {us : List Word} {items : Program}
    (h : Program.Derives omission us items) : Solid us := by
  induction h with
  | nil => exact Word.solid_nil
  | cons hitem h ih => simp [hitem.solid, ih]

end

/-! ### Leaving out freely -/

/-- An end that a restricted grammar allows is allowed where semicolons are left out freely. -/
theorem Omission.Ends.relax {omission : Omission} {us : List Word} {next : Kind}
    (h : omission.Ends us next) : Omission.free.Ends us next := by
  cases h with
  | semicolon hw => exact .semicolon hw
  | nothing => exact .nothing trivial

section

variable {omission : Omission}

mutual

/-- A statement of a restricted grammar is one of the grammar that leaves out freely, by the same
derivation. -/
theorem Stmt.Derives.relax {us : List Word} {stmt : Stmt} {next : Kind} :
    stmt.Derives omission us next → stmt.Derives .free us next
  | .empty hw => .empty hw
  | .compound hbody => .compound hbody.relax
  | .declaration h hend => .declaration h hend.relax
  | .assignment h hend => .assignment h hend.relax
  | .call hname hargs hend => .call hname hargs hend.relax
  | .ret hw hend _ => .ret hw hend.relax fun _ => trivial
  | .retValue hw hvalue hend => .retValue hw hvalue hend.relax
  | .ifThen hw htest hbody => .ifThen hw htest hbody.relax
  | .ifElse hw htest hbody hv hother => .ifElse hw htest hbody.relax hv hother.relax
  | .ifElseIf hw htest hbody hv hother => .ifElseIf hw htest hbody.relax hv hother.relax
  | .whileLoop hw htest hbody => .whileLoop hw htest hbody.relax
  | .forLoop hw hheader hbody => .forLoop hw hheader hbody.relax
  | .forLoopParenthesised hw hleft hheader hright hbody =>
    .forLoopParenthesised hw hleft hheader hright hbody.relax

/-- A block keeps its derivation when the restriction on what may be left out is dropped. -/
theorem Block.Derives.relax {us : List Word} {body : Block} :
    Block.Derives omission us body → Block.Derives .free us body
  | .mk hw h => .mk hw h.relax

/-- The statements up to the closing brace of a block keep their derivations without the restriction. -/
theorem Block.Inside.relax {us : List Word} {body : Block} :
    Block.Inside omission us body → Block.Inside .free us body
  | .close hw => .close hw
  | .more hstmt hbody => .more hstmt.relax hbody.relax

end

/-- An item keeps its derivation without the restriction. Only items that hold statements have anything to
relax. -/
theorem Item.Derives.relax {us : List Word} {item : Item} (h : item.Derives omission us) :
    item.Derives .free us := by
  cases h with
  | function ht hname hparams hbody => exact .function ht hname hparams hbody.relax
  | declaration h hend => exact .declaration h hend
  | entry hw hbody => exact .entry hw hbody.relax
  | importFile hw hpath hend => exact .importFile hw hpath hend

/-- What is derived under any restriction is derived without one, so that the restricted grammar has fewer
programs. -/
theorem Program.Derives.relax {us : List Word} {items : Program}
    (h : Program.Derives omission us items) : Program.Derives .free us items := by
  induction h with
  | nil => exact .nil
  | cons hitem h ih => exact .cons hitem.relax ih

end

/-! ### Streams -/

/-- The words of a stream before its first end token. -/
def Token.words (tokens : List Token) : List Word :=
  (tokens.takeWhile fun token => token.kind ≠ .endOfInput).map Token.word

/-- The words before the first end token hold no end word, by the way they are cut off. -/
theorem Token.solid_words (tokens : List Token) : Word.Solid (words tokens) := by
  intro word hword
  obtain ⟨token, htoken, rfl⟩ := List.mem_map.1 hword
  simpa [word] using List.mem_takeWhile_imp htoken

/-- Where reading starts, the words before the first end token are ahead, and then the input ends. -/
theorem Cursor.words_ahead (tokens : List Token) (file : String) :
    ∃ rest, (ofTokens tokens file).ahead = Token.words tokens ++ rest ∧
      firstKind rest = .endOfInput := by
  obtain ⟨added, hclosed, hadded⟩ := closed_eq_append tokens
  have hend : firstKind (added.map Token.word) = .endOfInput := by
    cases added with
    | nil => rfl
    | cons token more => exact hadded token List.mem_cons_self
  refine ⟨((tokens.dropWhile fun token => token.kind ≠ .endOfInput) ++ added).map Token.word, ?_, ?_⟩
  · rw [ahead_ofTokens, hclosed, Token.words, ← List.map_append, ← List.append_assoc,
      List.takeWhile_append_dropWhile]
  · cases hdrop : tokens.dropWhile fun token => token.kind ≠ .endOfInput with
    | nil => simpa using hend
    | cons token more =>
      have hhead := List.head_dropWhile_not (fun token : Token => token.kind ≠ .endOfInput)
        (l := tokens) (by rw [hdrop]; exact List.cons_ne_nil _ _)
      simp only [hdrop, List.head_cons] at hhead
      simpa [Token.word] using hhead

/-- A stream can be divided before an end word in one way only: two solid rows with an end word or nothing
behind them are the same if the streams are. -/
theorem Word.Solid.append_inj {us vs rest rest' : List Word} (hus : Solid us) (hvs : Solid vs)
    (hrest : firstKind rest = .endOfInput) (hrest' : firstKind rest' = .endOfInput)
    (h : us ++ rest = vs ++ rest') : us = vs := by
  induction us generalizing vs with
  | nil =>
    cases vs with
    | nil => rfl
    | cons v vs =>
      rw [List.nil_append] at h
      rw [h] at hrest
      exact absurd hrest (hvs v List.mem_cons_self)
  | cons u us ih =>
    cases vs with
    | nil =>
      rw [List.nil_append] at h
      rw [← h] at hrest'
      exact absurd hrest' (hus u List.mem_cons_self)
    | cons v vs =>
      obtain ⟨rfl, htail⟩ := List.cons.inj h
      rw [ih (solid_cons.1 hus).2 (solid_cons.1 hvs).2 htail]

/-- What is derived from the words before the first end token is read without a diagnostic. -/
theorem Program.Derives.parse_eq {tokens : List Token} {items : Program} (file : String)
    (h : Program.Derives .settled (Token.words tokens) items) : parse tokens file = (items, []) := by
  obtain ⟨rest, hahead, hrest⟩ := Cursor.words_ahead tokens file
  obtain ⟨after, hread⟩ := h.reads hrest (Cursor.valid_ofTokens tokens file) hahead
  refine Prod.ext hread.result ?_
  show (Production.program (.ofTokens tokens file)).2.diagnostics.toList = []
  rw [hread.state, hread.quiet]
  rfl

/-- What is read without a diagnostic is derived from the words before the first end token. -/
theorem derives_of_parse_eq {tokens : List Token} {file : String} {items : Program}
    (h : parse tokens file = (items, [])) : Program.Derives .settled (Token.words tokens) items := by
  have hread : Reads Production.program (.ofTokens tokens file) items
      (Production.program (.ofTokens tokens file)).2 := by
    refine ⟨congrArg Prod.fst h, rfl, ?_⟩
    exact Array.toList_inj.1 (congrArg Prod.snd h)
  obtain ⟨rest, hahead, hrest⟩ := Cursor.words_ahead tokens file
  obtain ⟨us, rest', hahead', hrest', hderives⟩ :=
    hread.program (Cursor.valid_ofTokens tokens file)
  have hus : us = Token.words tokens :=
    hderives.solid.append_inj (Token.solid_words tokens) hrest' hrest (hahead'.symm.trans hahead)
  rwa [← hus]

/-- A stream is read without a diagnostic exactly if the grammar derives what is read from the words before
its first end token. Such a derivation is also one of the grammar that leaves out freely. -/
theorem parse_quiet_iff (tokens : List Token) (file : String) (items : Program) :
    (parse tokens file = (items, []) ↔ Program.Derives .settled (Token.words tokens) items) ∧
    (Program.Derives .settled (Token.words tokens) items →
      Program.Derives .free (Token.words tokens) items) :=
  ⟨⟨derives_of_parse_eq, fun h => h.parse_eq file⟩, Program.Derives.relax⟩

/-- `entry { return { } }`. -/
def returnBeforeBlock : List Token :=
  [.synthetic .entryWord "entry", .synthetic .openCurly "\x7b", .synthetic .returnWord "return",
   .synthetic .openCurly "\x7b", .synthetic .closeCurly "\x7d", .synthetic .closeCurly "\x7d"]

/-- `entry { f ( ) ; }`. -/
def callBeforeSemicolon : List Token :=
  [.synthetic .entryWord "entry", .synthetic .openCurly "\x7b", .synthetic .identifier "f",
   .synthetic .openParen "(", .synthetic .closeParen ")", .synthetic .semicolon ";",
   .synthetic .closeCurly "\x7d"]

/-- The grammar that leaves out freely is not what is accepted. It has a return without a value before a
block, where reading looks for the value, and an empty statement in the semicolon that ends a call. -/
theorem parse_quiet_not_iff_free :
    (¬ ∀ items : Program, parse returnBeforeBlock "" = (items, []) ↔
      Program.Derives .free (Token.words returnBeforeBlock) items) ∧
    (¬ ∀ items : Program, parse callBeforeSemicolon "" = (items, []) ↔
      Program.Derives .free (Token.words callBeforeSemicolon) items) := by
  constructor
  · -- a return without a value and the block behind it would be two statements
    intro h
    have hreturn : Stmt.Derives .free [⟨.returnWord, "return"⟩] (.ret none) .openCurly :=
      .ret rfl (.nothing trivial) fun _ => trivial
    have hblock : Block.Derives .free [⟨.openCurly, "\x7b"⟩, ⟨.closeCurly, "\x7d"⟩] [] :=
      .mk rfl (.close rfl)
    have hinside : Block.Inside .free
        [⟨.openCurly, "\x7b"⟩, ⟨.closeCurly, "\x7d"⟩, ⟨.closeCurly, "\x7d"⟩] [.compound []] :=
      .more (.compound hblock) (.close rfl)
    have hentry : Item.Derives .free (Token.words returnBeforeBlock)
        (.entry [.ret none, .compound []]) :=
      .entry rfl (.mk rfl (.more hreturn hinside))
    have hparse := (h _).2 (.cons hentry .nil)
    exact absurd (congrArg Prod.snd hparse) (by decide)
  · -- the semicolon behind the call would be a statement of its own
    intro h
    have hcall : Stmt.Derives .free
        [⟨.identifier, "f"⟩, ⟨.openParen, "("⟩, ⟨.closeParen, ")"⟩] (.call "f" []) .semicolon :=
      .call rfl (.mk rfl (.close rfl)) (.nothing trivial)
    have hempty : Stmt.Derives .free [⟨.semicolon, ";"⟩] .empty .closeCurly := .empty rfl
    have hclose : Block.Inside .free [⟨.closeCurly, "\x7d"⟩] [] := .close rfl
    have hinside : Block.Inside .free [⟨.semicolon, ";"⟩, ⟨.closeCurly, "\x7d"⟩] [.empty] :=
      .more hempty hclose
    have hentry : Item.Derives .free (Token.words callBeforeSemicolon)
        (.entry [.call "f" [], .empty]) :=
      .entry rfl (.mk rfl (.more hcall hinside))
    have hparse := (h _).2 (.cons hentry .nil)
    have hread : (parse callBeforeSemicolon "").1 = [.entry [.call "f" []]] := by rfl
    have hsame := hread.symm.trans (congrArg Prod.fst hparse)
    simp at hsame

end BraceLang
