import SchemaScaffold.Schema.TypeRef
import SchemaScaffold.Schema.Value

/-!
# Definitions

A schema is a sequence of definitions. Six kinds of them declare a
**type**; the others are the directives, whose names are apart from those
of the types, and the schema block, which names the root types and has no
name of its own. `Definition.name?` and `Definition.isType` are the two
readings everything else is built on: a definition competes for a name
with those of its own side only.
-/

namespace SchemaScaffold

/-- **An input value**: an argument, or a field of an input object. -/
structure InputValue where
  /-- Its name in the schema. -/
  name : String
  /-- The type it takes. -/
  type : TypeRef
  /-- What it is when nothing is given. -/
  default? : Option Value := none
  deriving Repr, Inhabited

/-- **A field** of an object or interface. -/
structure Field where
  /-- Its name in the schema. -/
  name : String
  /-- The arguments it takes, in order. -/
  arguments : List InputValue := []
  /-- The type of its values. -/
  type : TypeRef
  deriving Repr, Inhabited

/-- Whether a field takes arguments. -/
def Field.hasArguments (field : Field) : Bool := !field.arguments.isEmpty

/-- An object type. -/
structure ObjectType where
  /-- Its name. -/
  name : String
  /-- The interfaces it lists, in order. -/
  implements : List String := []
  /-- Its fields, in order. -/
  fields : List Field := []
  deriving Repr, Inhabited

/-- An interface type. -/
structure InterfaceType where
  /-- Its name. -/
  name : String
  /-- Its fields, in order. -/
  fields : List Field := []
  deriving Repr, Inhabited

/-- An enumeration type. -/
structure EnumType where
  /-- Its name. -/
  name : String
  /-- The names of its values, in order. -/
  values : List String := []
  deriving Repr, Inhabited

/-- A union type. -/
structure UnionType where
  /-- Its name. -/
  name : String
  /-- The names of its members, in order. -/
  members : List String := []
  deriving Repr, Inhabited

/-- An input object type. -/
structure InputObjectType where
  /-- Its name. -/
  name : String
  /-- Its fields, in order. -/
  fields : List InputValue := []
  deriving Repr, Inhabited

/-- A scalar type, of which a schema says no more than the name. -/
structure ScalarType where
  /-- Its name. -/
  name : String
  deriving Repr, Inhabited

/-- A schema block: the names of the root types. -/
structure SchemaBlock where
  /-- The type queries start from. -/
  query? : Option String := none
  /-- The type mutations start from. -/
  mutation? : Option String := none
  /-- The type subscriptions start from. -/
  subscription? : Option String := none
  deriving Repr, Inhabited

/-- A directive. -/
structure DirectiveType where
  /-- Its name. -/
  name : String
  /-- The arguments it takes, in order. -/
  arguments : List InputValue := []
  deriving Repr, Inhabited

/-- **A definition** of a schema. -/
inductive Definition where
  /-- An object type. -/
  | object (it : ObjectType)
  /-- An interface type. -/
  | interface (it : InterfaceType)
  /-- An enumeration type. -/
  | enumeration (it : EnumType)
  /-- A union type. -/
  | union (it : UnionType)
  /-- An input object type. -/
  | inputObject (it : InputObjectType)
  /-- A scalar type. -/
  | scalar (it : ScalarType)
  /-- A schema block. -/
  | schema (it : SchemaBlock)
  /-- A directive. -/
  | directive (it : DirectiveType)
  deriving Repr, Inhabited

namespace Definition

/-- The name a definition declares; a schema block declares none. -/
def name? : Definition → Option String
  | object it => some it.name
  | interface it => some it.name
  | enumeration it => some it.name
  | union it => some it.name
  | inputObject it => some it.name
  | scalar it => some it.name
  | schema _ => none
  | directive it => some it.name

/-- What a definition is called in messages. -/
def kind : Definition → String
  | object _ => "object"
  | interface _ => "interface"
  | enumeration _ => "enum"
  | union _ => "union"
  | inputObject _ => "input object"
  | scalar _ => "scalar"
  | schema _ => "schema"
  | directive _ => "directive"

/-- **Whether a definition declares a type.** -/
def isType : Definition → Bool
  | schema _ => false
  | directive _ => false
  | _ => true

/-- The name of the type a definition declares, if it declares one. -/
def typeName? (definition : Definition) : Option String :=
  if definition.isType then definition.name? else none

/-- The name of the directive a definition declares, if it declares one. -/
def directiveName? : Definition → Option String
  | directive it => some it.name
  | _ => none

end Definition

/-- **Whether a name is that of a root object** – the types queries and
mutations start from. They have resolvers and no values of their own. -/
def isRootName (name : String) : Bool := name == "Query" || name == "Mutation"

end SchemaScaffold
