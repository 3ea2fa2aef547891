import BraceLang.Diagnostic
import BraceLang.Lexeme.Escape
import BraceLang.Lexeme.Shape
import BraceLang.Text.Bytes

/-!
# Lexemes and the tokens of a source

A lexeme is a piece of a source: its shape, the offset it starts at and its characters. `next?` cuts the
lexeme off the front of a text, and `segment` cuts a text into lexemes from left to right until it is used
up or no lexeme starts. Blanks and comments are lexemes too, so nothing of the source is lost; every other
lexeme has a kind and a value, and so is a token. The tokens of a source are followed by one that marks the
end, and its only fault is a character that no lexeme starts with.
-/

set_option autoImplicit false

namespace BraceLang

/-- A piece of a source, with its shape and the place where it starts. -/
structure Lexeme where
  shape : Lexeme.Shape
  /-- The number of bytes before the lexeme. -/
  start : Nat
  /-- The characters of the lexeme. -/
  text : List Char
deriving DecidableEq, Inhabited

namespace Lexeme

open Text (byteLength)

/-- The number of bytes of the source up to the end of the lexeme. -/
def stop (lexeme : Lexeme) : Nat :=
  lexeme.start + byteLength lexeme.text

/-- The kind of token that the lexeme is, unless it only separates tokens. -/
def kind? (lexeme : Lexeme) : Option Kind :=
  match lexeme.shape with
  | .blank | .comment => none
  | .word => some ((Kind.ofWord? (String.ofList lexeme.text)).getD .identifier)
  | .number | .text | .character => some .literal
  | .openCurly => some .openCurly
  | .closeCurly => some .closeCurly
  | .openParen => some .openParen
  | .closeParen => some .closeParen
  | .comparison => some .compareOp
  | .assignment => some .assignment
  | .colon => some .confirm
  | .semicolon => some .semicolon
  | .comma => some .comma
  | .arithmetic => some .mathOp

/-- The text that the lexeme stands for: what is written between the quotes of a quoted literal denotes,
and the characters themselves of any other lexeme. -/
def value (lexeme : Lexeme) : String :=
  match lexeme.shape with
  | .text | .character => String.ofList (unescape lexeme.text.tail.dropLast)
  | _ => String.ofList lexeme.text

/-- The lexeme as a token of `file`, unless it only separates tokens. Its span is that of its characters. -/
def token? (file : String) (lexeme : Lexeme) : Option Token :=
  lexeme.kind?.map fun kind =>
    ⟨kind, lexeme.value, .covering file lexeme.start (byteLength lexeme.text)⟩

/-- The lexeme at the front of `cs`, which stands at offset `start`, and what follows it. -/
def next? (start : Nat) (cs : List Char) : Option (Lexeme × List Char) :=
  Shape.all.findSome? fun shape =>
    (shape.extent? cs).map fun n => (⟨shape, start, cs.take n⟩, cs.drop n)

/-- A lexeme and what follows it make up the text, so nothing is lost and nothing is read twice. -/
theorem next?_append {start : Nat} {cs rest : List Char} {lexeme : Lexeme}
    (h : next? start cs = some (lexeme, rest)) : lexeme.text ++ rest = cs := by
  obtain ⟨shape, -, hshape⟩ := List.exists_of_findSome?_eq_some h
  obtain ⟨n, -, hn⟩ := Option.map_eq_some_iff.1 hshape
  obtain ⟨rfl, rfl⟩ := Prod.mk.inj hn
  exact List.take_append_drop n cs

/-- What follows a lexeme is shorter than the text, so cutting a text into lexemes ends. -/
theorem next?_length {start : Nat} {cs rest : List Char} {lexeme : Lexeme}
    (h : next? start cs = some (lexeme, rest)) : rest.length < cs.length := by
  obtain ⟨shape, -, hshape⟩ := List.exists_of_findSome?_eq_some h
  obtain ⟨n, hextent, hn⟩ := Option.map_eq_some_iff.1 hshape
  obtain ⟨rfl, rfl⟩ := Prod.mk.inj hn
  have := Shape.extent?_bounds hextent
  simp only [List.length_drop]
  omega

end Lexeme

/-- A text cut into lexemes as far as that goes, and what is left of it. -/
structure Segmentation where
  /-- The lexemes, from left to right. -/
  lexemes : List Lexeme
  /-- The number of bytes before what is left. -/
  stop : Nat
  /-- What is left: nothing, or a text that no lexeme starts. -/
  rest : List Char
deriving DecidableEq, Inhabited

namespace Lexeme

/-- Cuts `cs`, which stands at offset `start`, into lexemes that follow the reverse of `done`. -/
def segmentOnto (done : List Lexeme) (start : Nat) (cs : List Char) : Segmentation :=
  match _h : next? start cs with
  | none => ⟨done.reverse, start, cs⟩
  | some (lexeme, rest) => segmentOnto (lexeme :: done) lexeme.stop rest
termination_by cs.length
decreasing_by exact next?_length _h

/-- Cuts `cs`, which stands at offset `start`, into lexemes, until nothing is left or no lexeme starts. -/
def segment (start : Nat) (cs : List Char) : Segmentation :=
  segmentOnto [] start cs

/-- The lexemes that are already cut off stand in front, unchanged. -/
theorem segmentOnto_eq (done : List Lexeme) (start : Nat) (cs : List Char) :
    segmentOnto done start cs =
      { segment start cs with lexemes := done.reverse ++ (segment start cs).lexemes } := by
  have key (start : Nat) (cs : List Char) : ∀ done more : List Lexeme,
      segmentOnto (more ++ done) start cs =
        { segmentOnto more start cs with
          lexemes := done.reverse ++ (segmentOnto more start cs).lexemes } := by
    intro done more
    fun_induction segmentOnto more start cs with
    | case1 more start cs h => rw [segmentOnto]; split <;> simp_all
    | case2 more start cs lexeme rest h ih => rw [segmentOnto]; split <;> simp_all
  simpa [segment] using key start cs done []

/-- A text that no lexeme starts is left whole, and the segmentation stops where it starts. -/
theorem segment_of_next?_eq_none {start : Nat} {cs : List Char} (h : next? start cs = none) :
    segment start cs = ⟨[], start, cs⟩ := by
  rw [segment, segmentOnto]
  split <;> simp_all

/-- The segmentation of a text is its first lexeme and the segmentation of what follows. -/
theorem segment_of_next?_eq_some {start : Nat} {cs rest : List Char} {lexeme : Lexeme}
    (h : next? start cs = some (lexeme, rest)) :
    segment start cs =
      { segment lexeme.stop rest with lexemes := lexeme :: (segment lexeme.stop rest).lexemes } := by
  rw [segment, segmentOnto]
  split
  · simp_all
  · rename_i heq
    obtain ⟨rfl, rfl⟩ : _ = lexeme ∧ _ = rest := by simpa [h, eq_comm] using heq
    rw [segmentOnto_eq]
    simp

end Lexeme

/-- The name of a source that comes without one, as one that was typed in does. -/
def defaultFile : String := "shell"

namespace Token

/-- The tokens among the lexemes of `file` and an end token, or, where the lexemes do not reach the end, a
complaint about the first character that is left. -/
def ofSegmentation (file : String) (segmentation : Segmentation) : Except Diagnostic (List Token) :=
  match segmentation.rest with
  | [] =>
    .ok (segmentation.lexemes.filterMap (Lexeme.token? file)
      ++ [ending (.covering file segmentation.stop 0)])
  | c :: _ => .error ⟨.unrecognised (String.singleton c), .ofBytes file segmentation.stop⟩

end Token

/-- The tokens of `source`, whose name is `file`, or a complaint about the first character that no lexeme
starts with. -/
def tokenize (source file : String) : Except Diagnostic (List Token) :=
  Token.ofSegmentation file (Lexeme.segment 0 source.toList)

end BraceLang
