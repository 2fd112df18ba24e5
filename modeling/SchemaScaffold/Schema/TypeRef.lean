/-!
# Type references

A schema writes `[Person!]!` where it needs a type: a name, a list of a
reference, or a reference that excludes null. A reference is nullable
unless it says otherwise, so what is recorded is the exclusion.

A reference has one text (`TypeRef.text`) and one **leaf**, the name at
its core. Only the leaf has to be looked up anywhere: the levels around
it say how many lists there are and where null may stand.
-/

namespace SchemaScaffold

/-- **A type reference** of a schema. -/
inductive TypeRef where
  /-- The type of the given name, or null. -/
  | named (name : String)
  /-- What the inner reference allows, except null. -/
  | nonNull (inner : TypeRef)
  /-- A list of what the inner reference allows, or null. -/
  | list (inner : TypeRef)
  deriving DecidableEq, Repr, Inhabited

namespace TypeRef

/-- The reference as a schema writes it. -/
def text : TypeRef → String
  | named name => name
  | nonNull inner => inner.text ++ "!"
  | list inner => "[" ++ inner.text ++ "]"

instance : ToString TypeRef := ⟨text⟩

/-- **The name at the core** of a reference. -/
def leaf : TypeRef → String
  | named name => name
  | nonNull inner => inner.leaf
  | list inner => inner.leaf

/-- Whether the reference excludes null at its outermost level. -/
def isNonNull : TypeRef → Bool
  | nonNull _ => true
  | named _ => false
  | list _ => false

end TypeRef

end SchemaScaffold
