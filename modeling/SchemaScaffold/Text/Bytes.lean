/-!
# Texts as bytes

A letter is written in one to four bytes, and a text in those of its letters
(`bytes`). What the system calls a text, the name of a file above all, is
bytes that need not be the bytes of any text. Where a text is to be shown for
them, they are read **with loss** (`lossy`): the letters they spell are kept,
and a **malformed piece** is shown as one mark of replacement.

A malformed piece is as long as a letter could still have come of it, and
never empty. So a byte that no letter has is a piece by itself, and so is the
first byte of a letter of which the next is missing; but when a letter of
three or four bytes breaks off behind the second or the third, those in front
go together. Which bytes may stand second depends on the first one: not every
byte that continues a letter does, since a letter is written as shortly as it
can be and surrogates are not letters (`Lossy.secondRange?`).
-/

namespace SchemaScaffold

/-- **The bytes of a text** in a file. -/
def bytes (text : String) : List UInt8 := text.toUTF8.data.toList

namespace Lossy

/-- What a malformed piece is shown as. -/
def replacement : Char := '\uFFFD'

/-- The letter that bytes start with. -/
def letter? (data : List UInt8) : Option Char := data.toByteArray.utf8DecodeChar? 0

/-- The first and the last byte that may stand second in a letter of three or
four bytes. -/
def secondRange? (first : UInt8) : Option (UInt8 × UInt8) :=
  if first = 0xe0 then some (0xa0, 0xbf)
  else if first = 0xed then some (0x80, 0x9f)
  else if 0xe1 ≤ first ∧ first ≤ 0xef then some (0x80, 0xbf)
  else if first = 0xf0 then some (0x90, 0xbf)
  else if 0xf1 ≤ first ∧ first ≤ 0xf3 then some (0x80, 0xbf)
  else if first = 0xf4 then some (0x80, 0x8f)
  else none

/-- Whether the first of the given bytes is in a range. -/
def startsWithin (range : UInt8 × UInt8) (data : List UInt8) : Bool :=
  data.head?.any fun b => range.1 ≤ b && b ≤ range.2

/-- How many bytes behind the first one are in the same malformed piece. -/
def strayBytes (first : UInt8) (rest : List UInt8) : Nat :=
  match secondRange? first with
  | none => 0
  | some range =>
    if startsWithin range rest then
      if 0xf0 ≤ first && startsWithin (0x80, 0xbf) rest.tail then 2 else 1
    else 0

/-- **Reads bytes with loss**, those at the front apart that have been read
already. -/
def readFrom : Nat → List UInt8 → List Char
  | _, [] => []
  | skipped + 1, _ :: rest => readFrom skipped rest
  | 0, first :: rest =>
    match letter? (first :: rest) with
    | some c => c :: readFrom (c.utf8Size - 1) rest
    | none => replacement :: readFrom (strayBytes first rest) rest

end Lossy

/-- **The text shown for bytes**, read with loss. -/
def lossy (data : List UInt8) : String := String.ofList (Lossy.readFrom 0 data)

end SchemaScaffold
