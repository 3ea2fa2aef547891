import BraceLang.Position
import BraceLang.Text.Bytes

/-!
# Reading positions

A reader is a source with a byte offset into it. The offset may be moved to any place, also past the end or
into the middle of a character; there the reader has a position but nothing to read. Offsets are counted in
words of 64 bits: a move or a span that would reach beyond the greatest word is refused.
-/

set_option autoImplicit false

namespace BraceLang

/-- A named source and a byte offset into it, which need not be one that a character starts at. -/
structure Reader where
  source : String
  file : String
  /-- The number of bytes that have been read. -/
  offset : Nat
deriving DecidableEq, Inhabited

namespace Reader

/-- A reader at the start of `source`, where nothing has been read. -/
def ofSource (source file : String) : Reader :=
  ⟨source, file, 0⟩

/-- The offset `n` bytes on, if a word can hold it. -/
def offsetAfter? (reader : Reader) (n : Nat) : Option Nat :=
  if reader.offset + n < UInt64.size then some (reader.offset + n) else none

/-- Moves on by `n` bytes, also past the end, unless the offset would outgrow a word. -/
def advance? (reader : Reader) (n : Nat) : Option Reader :=
  (reader.offsetAfter? n).map fun offset => { reader with offset }

/-- Where the reader stands, as an offset of 32 bits in the named file. -/
def position (reader : Reader) : Position :=
  .ofBytes reader.file reader.offset

/-- The next `length` bytes, whether or not the source has so many, unless their end would outgrow a
word. -/
def span? (reader : Reader) (length : Nat) : Option Span :=
  (reader.offsetAfter? length).map fun _ => .covering reader.file reader.offset length

/-- Whether no byte is left, at the end of the source and anywhere past it. -/
def atEnd (reader : Reader) : Bool :=
  reader.source.utf8ByteSize ≤ reader.offset

/-- What is still to be read, unless the reader stands past the end or inside a character. -/
def remainder? (reader : Reader) : Option (List Char) :=
  Text.dropBytes? reader.offset reader.source.toList

/-- The next character, or nothing at the end, as a list of at most one. There is no answer past the end or
inside a character. -/
def char? (reader : Reader) : Option (List Char) :=
  reader.remainder?.map (List.take 1)

end Reader

end BraceLang
