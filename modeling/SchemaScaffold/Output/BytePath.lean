import SchemaScaffold.Output.Path
import SchemaScaffold.Text.Bytes

/-!
# Paths in bytes

To the system a path is bytes. A slash and a point are one byte each, and no
other letter has one of these among its bytes, so a path can be taken apart
without knowing which letters the bytes spell, or whether they spell any. It
is taken apart as a text with **a letter for each byte** would be
(`BytePath.spelled`): the letters up to 255 are numbered like the bytes, and
the slash and the point are among those that are their own byte.

A path that is given as a text is the bytes of the text (`BytePath.ofPath`).
The way back may be closed, and for the name at the end of a path there is
only the text that is shown for it (`BytePath.shownName?`).
-/

namespace SchemaScaffold

/-- A letter for each byte. -/
def spell (data : List UInt8) : String := String.ofList (data.map Char.ofUInt8)

/-- The bytes that a text has a letter for. -/
def unspell (text : String) : List UInt8 := text.toList.map Char.toUInt8

/-- **A path**, as the system has it. -/
structure BytePath where
  /-- The bytes of the path. -/
  data : List UInt8
  deriving DecidableEq, Repr, Inhabited

namespace BytePath

/-- The path with a letter for each byte. -/
def spelled (path : BytePath) : Path := ⟨spell path.data⟩

/-- The path that has a letter for each byte. -/
def ofSpelled (path : Path) : BytePath := ⟨unspell path.text⟩

/-- A path that is given as a text. -/
def ofPath (path : Path) : BytePath := ⟨bytes path.text⟩

/-- **The path without its last step**, if it has one. -/
def parent? (path : BytePath) : Option BytePath := path.spelled.parent?.map ofSpelled

/-- **The name at the end of a path**, if its last step is a name. -/
def fileName? (path : BytePath) : Option (List UInt8) := path.spelled.fileName?.map unspell

/-- The text shown for the name at the end of a path. -/
def shownName? (path : BytePath) : Option String := path.fileName?.map lossy

/-- **The path of something inside** what a path names. -/
def inside (path : BytePath) (inner : String) : BytePath :=
  ofSpelled (path.spelled.inside (spell (bytes inner)))

end BytePath

end SchemaScaffold
