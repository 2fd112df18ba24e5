import SchemaScaffold.TypeExpr.Basic

/-!
# Blocks

A generated module is made of **blocks**, each a piece of text that
stands by itself. A block comes with the types its text uses, from which
the imports of the module are put together, and with a weight: lighter
blocks come first. Most blocks have no reason to be anywhere in
particular and are as heavy as can be.
-/

namespace SchemaScaffold

/-- **A piece of a generated module.** -/
structure Block where
  /-- The text, without a line end behind it. -/
  body : String
  /-- The types the text uses. -/
  usedTypes : List TypeExpr
  /-- Where the block belongs among the others. -/
  weight : UInt32 := 0xFFFFFFFF
  deriving DecidableEq, Repr, Inhabited

namespace Block

/-- The weight of a union. -/
def unionWeight : UInt32 := 0

/-- The weight of an enumeration. -/
def enumerationWeight : UInt32 := 1

/-- The weight of a protocol. -/
def protocolWeight : UInt32 := 2

/-- The weight of a record. -/
def recordWeight : UInt32 := 3

/-- The line that stands for a body with nothing in it. -/
def emptyBody : String := "    ..."

/-- **The imports of a block**: those of the types it uses, in order. -/
def imports (block : Block) : List Import := block.usedTypes.flatMap TypeExpr.imports

end Block

end SchemaScaffold
