import BraceLang.Position

/-!
# Tokens

A token is a kind, a value and the span it was read from. Words that look like names but belong to the
language are reserved: `Kind.ofWord?` gives each its kind. Two texts of a token, one short and one long,
are for people who look at a token stream.
-/

set_option autoImplicit false

namespace BraceLang

/-- What a token is to the grammar, which decides by this alone wherever it can. -/
inductive Kind where
  /-- The end of the input. -/
  | endOfInput
  | identifier
  | literal
  /-- The name of a data type. -/
  | typeKeyword
  /-- The colon between a type and a name. -/
  | confirm
  | assignment
  | mathOp
  | compareOp
  | openParen
  | closeParen
  | openCurly
  | closeCurly
  | comma
  | semicolon
  | ifWord
  | elseWord
  | whileWord
  | forWord
  | returnWord
  | importWord
  | entryWord
deriving DecidableEq, Inhabited

namespace Kind

/-- The name of a kind, as messages and the two texts of a token show it. -/
def name : Kind → String
  | endOfInput => "EOF"
  | identifier => "Identifier"
  | literal => "Literal"
  | typeKeyword => "TypeKeyword"
  | confirm => "Confirm"
  | assignment => "Assignment"
  | mathOp => "MathOp"
  | compareOp => "CompareOp"
  | openParen => "OpenParen"
  | closeParen => "CloseParen"
  | openCurly => "OpenCurly"
  | closeCurly => "CloseCurly"
  | comma => "Comma"
  | semicolon => "Semicolon"
  | ifWord => "If"
  | elseWord => "Else"
  | whileWord => "While"
  | forWord => "For"
  | returnWord => "Return"
  | importWord => "Import"
  | entryWord => "Entry"

/-- Every kind there is, each once. -/
def all : List Kind :=
  [endOfInput, identifier, literal, typeKeyword, confirm, assignment, mathOp, compareOp, openParen,
   closeParen, openCurly, closeCurly, comma, semicolon, ifWord, elseWord, whileWord, forWord,
   returnWord, importWord, entryWord]

/-- The kind with the given name, if one has it. -/
def ofName? (name : String) : Option Kind :=
  all.find? fun kind => kind.name = name

/-- A kind is found by its name, as no kind before it in the list has the same one. -/
@[simp]
theorem ofName?_name (kind : Kind) : ofName? kind.name = some kind := by
  cases kind <;> decide

/-- Kinds are told apart by their names, so a message that names one says which it is. -/
theorem name_inj {kind other : Kind} (h : kind.name = other.name) : kind = other := by
  have hsome : some kind = some other := by rw [← ofName?_name kind, h, ofName?_name]
  exact Option.some.inj hsome

/-- The reserved words and their kinds. A word that is not in this table is a name. -/
def reserved : List (String × Kind) :=
  [("int", typeKeyword), ("char", typeKeyword), ("bool", typeKeyword), ("byte", typeKeyword),
   ("true", literal), ("false", literal), ("if", ifWord), ("else", elseWord), ("while", whileWord),
   ("for", forWord), ("return", returnWord), ("import", importWord), ("entry", entryWord)]

/-- The kind of a reserved word, and none for a word that is a name. -/
def ofWord? (word : String) : Option Kind :=
  reserved.lookup word

/-- Whether tokens of one kind differ in their values. A bracket or a reserved word has only one. -/
def hasValue (kind : Kind) : Bool :=
  kind ∈ [identifier, literal, typeKeyword, mathOp, compareOp]

end Kind

/-- A token of a source, or one made up without a source. -/
structure Token where
  kind : Kind
  /-- The text the token stands for: its spelling or, for a quoted literal, what the spelling denotes. -/
  value : String
  span : Span
deriving DecidableEq, Inhabited

namespace Token

/-- A token that no source holds, made from its kind and its value alone. -/
def synthetic (kind : Kind) (value : String) : Token :=
  ⟨kind, value, .nowhere⟩

/-- The token that ends a stream, at the given span. It has a value too, though it is read from nothing. -/
def ending (span : Span) : Token :=
  ⟨.endOfInput, "EOF", span⟩

/-- The kind and, where it tells tokens apart, the value, in brackets that are empty if not. -/
def brief (token : Token) : String :=
  if token.kind.hasValue then token.kind.name ++ " (" ++ token.value ++ ")"
  else token.kind.name ++ " ()"

/-- The kind and the value, on lines of their own, whether or not the value tells more than the kind. -/
def describe (token : Token) : String :=
  "Token \x7b\nkind: " ++ token.kind.name ++ ",\nvalue: " ++ token.value ++ "\x7d"

end Token

end BraceLang
