/-!
# Positions and spans

A position is a byte offset together with the name of the file it counts in. Offsets are words of 32 bits:
a larger number of bytes is taken modulo `2 ^ 32`. A span is a pair of positions.
-/

set_option autoImplicit false

namespace BraceLang

/-- A place in a named source, which may be one that no source has. -/
structure Position where
  /-- The number of bytes before the place. -/
  offset : UInt32
  /-- The name of the source. -/
  file : String
deriving DecidableEq, Inhabited

namespace Position

/-- The file name of a token that no source holds, by which it is known. -/
def noFile : String := "<null>"

/-- The position of a token that no source holds, which is at offset zero of no file. -/
def nowhere : Position := ⟨0, noFile⟩

/-- The place after `bytes` bytes of `file`, with the offset cut to the size of a word. -/
def ofBytes (file : String) (bytes : Nat) : Position :=
  ⟨UInt32.ofNat bytes, file⟩

/-- Offsets below the word size are kept as they are, so places in a source of up to that size are told
apart. -/
theorem toNat_offset_ofBytes {bytes : Nat} (file : String) (h : bytes < UInt32.size) :
    (ofBytes file bytes).offset.toNat = bytes :=
  UInt32.toNat_ofNat_of_lt' h

/-- The position with its file named `file` if it names none. -/
def orIn (position : Position) (file : String) : Position :=
  if position.file = noFile then { position with file } else position

end Position

/-- A stretch of a source, from `start` up to but without `stop`. -/
structure Span where
  start : Position
  stop : Position
deriving DecidableEq, Inhabited

namespace Span

/-- The span of a token that no source holds, which starts and stops nowhere. -/
def nowhere : Span := ⟨.nowhere, .nowhere⟩

/-- The `length` bytes of `file` that follow its first `start` bytes. -/
def covering (file : String) (start length : Nat) : Span :=
  ⟨.ofBytes file start, .ofBytes file (start + length)⟩

end Span

end BraceLang
