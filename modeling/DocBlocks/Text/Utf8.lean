import DocBlocks.Text.Basic

/-!
# Texts as Bytes

Files and paths are bytes; texts are characters. `utf8` writes a text as bytes and
`decode?` reads bytes that a text can be written as.

Reading goes byte by byte. A leading byte says how many bytes follow it and which values
the first of them may have, which rules out overlong forms, surrogates and code points
that do not exist; the later ones are any continuation bytes. A byte that may not stand
where it stands ends the character begun before it, which is then unreadable, and is read
once more as a leading byte. So the input falls into units, each a character or an
unreadable piece, and there are two ways to make a text of them: refuse if any is
unreadable (`decode?`), or put the replacement character in its place (`decodeLossy`).
-/

namespace DocBlocks

/-- A string of bytes. -/
abbrev Bytes := List UInt8

namespace Text

/-- A text as bytes. -/
def utf8 (s : Text) : Bytes := s.flatMap String.utf8EncodeChar

/-- A character whose leading byte has been read. -/
structure Pending where
  /-- The bits of the code point read so far. -/
  code : Nat
  /-- How many bytes belong to the character after the next one. -/
  more : Nat
  /-- The least value that the next byte may have. -/
  low : UInt8
  /-- The greatest value that the next byte may have. -/
  high : UInt8

/-- The bytes read so far. -/
structure Decoded where
  /-- The units that are complete, the last one first; `none` is an unreadable piece. -/
  units : List (Option Char)
  /-- The character that is not complete. -/
  pending : Option Pending

namespace Decoded

/-- Reads a byte at the start of a unit. -/
def lead (units : List (Option Char)) (b : UInt8) : Decoded :=
  if b < 0x80 then ⟨some (Char.ofNat b.toNat) :: units, none⟩
  else if b < 0xC2 then ⟨none :: units, none⟩
  else if b < 0xE0 then ⟨units, some ⟨b.toNat % 32, 0, 0x80, 0xBF⟩⟩
  else if b == 0xE0 then ⟨units, some ⟨b.toNat % 16, 1, 0xA0, 0xBF⟩⟩
  else if b == 0xED then ⟨units, some ⟨b.toNat % 16, 1, 0x80, 0x9F⟩⟩
  else if b < 0xF0 then ⟨units, some ⟨b.toNat % 16, 1, 0x80, 0xBF⟩⟩
  else if b == 0xF0 then ⟨units, some ⟨b.toNat % 8, 2, 0x90, 0xBF⟩⟩
  else if b < 0xF4 then ⟨units, some ⟨b.toNat % 8, 2, 0x80, 0xBF⟩⟩
  else if b == 0xF4 then ⟨units, some ⟨b.toNat % 8, 2, 0x80, 0x8F⟩⟩
  else ⟨none :: units, none⟩

/-- Reads a byte. -/
def feed (d : Decoded) (b : UInt8) : Decoded :=
  match d.pending with
  | none => lead d.units b
  | some p =>
    if p.low ≤ b && b ≤ p.high then
      let code := p.code * 64 + b.toNat % 64
      match p.more with
      | 0 => ⟨some (Char.ofNat code) :: d.units, none⟩
      | more + 1 => ⟨d.units, some ⟨code, more, 0x80, 0xBF⟩⟩
    else lead (none :: d.units) b

/-- The units read, first to last; a character that is not complete at the end of the
input is an unreadable piece. -/
def finish (d : Decoded) : List (Option Char) :=
  match d.pending with
  | none => d.units.reverse
  | some _ => (none :: d.units).reverse

end Decoded

/-- The units that bytes fall into. -/
def units (bytes : Bytes) : List (Option Char) := (bytes.foldl Decoded.feed ⟨[], none⟩).finish

/-- The text that is written as the given bytes, if there is one. -/
def decode? (bytes : Bytes) : Option Text :=
  let read := units bytes
  if read.all Option.isSome then some (read.filterMap id) else none

/-- The bytes as a text, with U+FFFD for each unreadable piece. -/
def decodeLossy (bytes : Bytes) : Text := (units bytes).map (·.getD '\uFFFD')

end Text

end DocBlocks
