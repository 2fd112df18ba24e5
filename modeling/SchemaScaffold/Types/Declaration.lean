import SchemaScaffold.Block
import SchemaScaffold.Stage
import SchemaScaffold.Text.SnakeCase

/-!
# Declarations of types

The module of types declares four things: **records** for objects and
input objects, **protocols** for interfaces, **enumerations**, and
**unions**, which are names for one of several types. A declaration is
kept as what it says; its text, the types that text uses and its weight
are read off it, so they cannot disagree.

The attributes of a record or protocol are kept in the order of the
schema and written in another: those without a default first, because the
generated class would be refused otherwise, and by name within each
group. The types used are listed in the order of the schema.
-/

namespace SchemaScaffold

/-- **An attribute** of a record or protocol. -/
structure Attribute where
  /-- Its name in the generated text. -/
  name : String
  /-- Its type. -/
  type : TypeExpr
  deriving DecidableEq, Repr, Inhabited

namespace Attribute

/-- Whether the attribute may be left out. -/
def hasDefault (a : Attribute) : Bool := a.type.default?.isSome

/-- Whether one attribute may stand before another: attributes that may
not be left out come first, and then the names decide. -/
def le (a b : Attribute) : Bool :=
  if a.hasDefault == b.hasDefault then decide (a.name ≤ b.name) else !a.hasDefault

/-- The line of an attribute. -/
def line (a : Attribute) : String :=
  "    " ++ a.name ++ ": " ++ a.type.text Stage.types.module
    ++ (match a.type.default? with
      | some value => " = " ++ value
      | none => "")

end Attribute

/-- **A declaration** of the module of types. -/
inductive Declaration where
  /-- A record with its bases, for an object or input object. -/
  | record (name : String) (bases : List String) (attributes : List Attribute)
  /-- A protocol, for an interface. -/
  | protocol (name : String) (attributes : List Attribute)
  /-- An enumeration. -/
  | enumeration (name : String) (values : List String)
  /-- A name for one of several types, for a union. -/
  | union (name : String) (members : List TypeExpr)
  deriving Repr, Inhabited

namespace Declaration

/-- The name a declaration declares. -/
def name : Declaration → String
  | record name _ _ => name
  | protocol name _ => name
  | enumeration name _ => name
  | union name _ => name

/-- The types of the parts of a declaration, in the order of the schema. -/
def partTypes : Declaration → List TypeExpr
  | record _ _ attributes => attributes.map Attribute.type
  | protocol _ attributes => attributes.map Attribute.type
  | enumeration _ _ => []
  | union _ members => members

/-- What a declaration is made with. -/
def support : Declaration → TypeExpr
  | record _ _ _ => .imported "dataclass" "dataclasses"
  | protocol _ _ => .imported "Protocol" "typing"
  | enumeration _ _ => .imported "Enum" "enum"
  | union _ _ => .imported "Union" "typing"

/-- The type a declaration declares. -/
def self (declaration : Declaration) : TypeExpr :=
  .imported declaration.name Stage.types.module

/-- **The types the text of a declaration uses**, the declared one last. -/
def usedTypes (declaration : Declaration) : List TypeExpr :=
  declaration.partTypes ++ [declaration.support, declaration.self]

/-- Where a declaration belongs among the others. -/
def weight : Declaration → UInt32
  | record _ _ _ => Block.recordWeight
  | protocol _ _ => Block.protocolWeight
  | enumeration _ _ => Block.enumerationWeight
  | union _ _ => Block.unionWeight

/-- The bases of a class, if it has any. -/
def basesText : List String → String
  | [] => ""
  | bases => "(" ++ ", ".intercalate bases ++ ")"

/-- A header with the lines of its body. -/
def classText (header : String) (lines : List String) : String :=
  "\n".intercalate (header :: if lines.isEmpty then [Block.emptyBody] else lines)

/-- The lines of attributes, in the order they are written. -/
def attributeLines (attributes : List Attribute) : List String :=
  (attributes.mergeSort Attribute.le).map Attribute.line

/-- The line of a value of an enumeration. -/
def valueLine (value : String) : String := "    " ++ value ++ " = " ++ TypeExpr.quote value

/-- **The text of a declaration.** -/
def text : Declaration → String
  | record name bases attributes =>
    classText ("@dataclass(frozen=True)\nclass " ++ name ++ basesText bases ++ ":")
      (attributeLines attributes)
  | protocol name attributes =>
    classText ("class " ++ name ++ "(Protocol):") (attributeLines attributes)
  | enumeration name values => classText ("class " ++ name ++ "(Enum):") (values.map valueLine)
  | union name members =>
    name ++ " = Union[" ++ ", ".intercalate (members.map (TypeExpr.text Stage.types.module)) ++ "]"

/-- **The block of a declaration.** -/
def block (declaration : Declaration) : Block :=
  { body := declaration.text, usedTypes := declaration.usedTypes, weight := declaration.weight }

end Declaration

end SchemaScaffold
