import SchemaScaffold.Block
import SchemaScaffold.Stage
import SchemaScaffold.Text.SnakeCase

/-!
# Bindings

The module of resolvers binds each object and each enumeration of a
schema to a name, and lists the names in a registry. An object carries
with it a **stub** for each of its fields that takes arguments: a function
with the right signature and nothing in it.

As with the declarations of types, a binding is kept as what it says, and
its text and the types that text uses are read off it.
-/

namespace SchemaScaffold

/-- **What is bound**: objects, enumerations, and the two objects that
have no values. -/
inductive BindingKind where
  /-- An object with values. -/
  | object
  /-- An enumeration. -/
  | enumeration
  /-- The object that queries start from. -/
  | query
  /-- The object that mutations start from. -/
  | mutation
  deriving DecidableEq, Repr, Inhabited

namespace BindingKind

/-- The kind of an object by its name. -/
def ofObjectName (name : String) : BindingKind :=
  if name = "Query" then query else if name = "Mutation" then mutation else object

/-- The name of what makes a binding of the kind. -/
def maker : BindingKind → String
  | object => "ObjectType"
  | enumeration => "EnumType"
  | query => "QueryType"
  | mutation => "MutationType"

/-- Whether the object has no values, so that its resolvers get none. -/
def isRoot : BindingKind → Bool
  | query => true
  | mutation => true
  | object => false
  | enumeration => false

/-- What makes a binding of the kind, as a type. -/
def makerType (kind : BindingKind) : TypeExpr := .imported kind.maker "ariadne"

end BindingKind

/-- **The default of a parameter**: a value of the enumeration that is its
type. -/
structure EnumDefault where
  /-- The enumeration. -/
  type : TypeExpr
  /-- The name of the value. -/
  value : String
  deriving DecidableEq, Repr, Inhabited

/-- The default as an expression. -/
def EnumDefault.text (default : EnumDefault) : String := default.type.head ++ "." ++ default.value

/-- **A parameter** of a stub. -/
structure Parameter where
  /-- The name of the argument in the schema. -/
  schemaName : String
  /-- Its type. -/
  type : TypeExpr
  /-- Its default. -/
  default? : Option EnumDefault
  deriving DecidableEq, Repr, Inhabited

namespace Parameter

/-- The name of a parameter in the generated text. -/
def name (parameter : Parameter) : String := snakeCase parameter.schemaName

/-- **The text of a parameter.** -/
def text (parameter : Parameter) : String :=
  parameter.name ++ ": " ++ parameter.type.text Stage.resolvers.module
    ++ (match parameter.default? with
      | some default => " = " ++ default.text
      | none => "")

end Parameter

/-- **A stub**: a function to be filled in, for a field with arguments. -/
structure Stub where
  /-- The name of the field in the schema. -/
  schemaName : String
  /-- The type of what it returns. -/
  returnType : TypeExpr
  /-- Its parameters, in order. -/
  parameters : List Parameter
  deriving DecidableEq, Repr, Inhabited

namespace Stub

/-- The name of the field in the generated text. -/
def name (stub : Stub) : String := snakeCase stub.schemaName

/-- What every stub is told about the request. -/
def infoType : TypeExpr := .imported "GraphQLResolveInfo" "graphql"

/-- **The types the text of a stub uses.** -/
def usedTypes (stub : Stub) : List TypeExpr :=
  infoType :: (stub.parameters.map Parameter.type ++ [stub.returnType])

/-- The parameter that takes the value whose field is asked for; a root
object has none. -/
def parentText (owner : String) : Option TypeExpr → String
  | some parent => owner ++ "_: " ++ parent.text Stage.resolvers.module
  | none => "_: None"

/-- **The text of a stub** for an object that is bound to the name `owner`
and has values of the type `parent?`. -/
def text (owner : String) (parent? : Option TypeExpr) (stub : Stub) : String :=
  "def resolve_" ++ owner ++ "_" ++ stub.name ++ "("
    ++ ", ".intercalate
      (parentText owner parent? :: "info: GraphQLResolveInfo" :: stub.parameters.map Parameter.text)
    ++ ") -> " ++ stub.returnType.text Stage.resolvers.module ++ ":\n" ++ Block.emptyBody

end Stub

/-- **The binding of an object.** -/
structure ObjectBinding where
  /-- The name of the object in the schema. -/
  schemaName : String
  /-- The type of its values, unless it is a root object. -/
  parent? : Option TypeExpr
  /-- Its stubs, in order. -/
  stubs : List Stub
  deriving DecidableEq, Repr, Inhabited

namespace ObjectBinding

/-- The name the object is bound to. -/
def name (binding : ObjectBinding) : String := snakeCase binding.schemaName

/-- What is bound. -/
def kind (binding : ObjectBinding) : BindingKind := .ofObjectName binding.schemaName

/-- The line that binds the object. -/
def opening (binding : ObjectBinding) : String :=
  binding.name ++ " = " ++ binding.kind.maker ++ "("
    ++ (if binding.parent?.isSome then TypeExpr.quote binding.schemaName else "") ++ ")"

/-- A stub with the line that attaches it to the object. -/
def attached (binding : ObjectBinding) (stub : Stub) : String :=
  "@" ++ binding.name ++ ".field(" ++ TypeExpr.quote stub.schemaName ++ ")\n"
    ++ stub.text binding.name binding.parent?

/-- **The text of a binding.** -/
def text (binding : ObjectBinding) : String :=
  "\n".intercalate (binding.opening :: binding.stubs.map binding.attached)

/-- The types the text of a binding uses. -/
def usedTypes (binding : ObjectBinding) : List TypeExpr :=
  binding.kind.makerType :: (binding.parent?.toList ++ binding.stubs.flatMap Stub.usedTypes)

end ObjectBinding

/-- **The binding of an enumeration.** -/
structure EnumBinding where
  /-- The name of the enumeration in the schema. -/
  schemaName : String
  /-- The enumeration of the generated text. -/
  target : TypeExpr
  deriving DecidableEq, Repr, Inhabited

namespace EnumBinding

/-- The name the enumeration is bound to. -/
def name (binding : EnumBinding) : String := snakeCase binding.schemaName

/-- **The text of a binding.** -/
def text (binding : EnumBinding) : String :=
  binding.name ++ " = " ++ BindingKind.enumeration.maker ++ "("
    ++ TypeExpr.quote binding.schemaName ++ ", values=" ++ binding.target.head ++ ")"

/-- The types the text of a binding uses. -/
def usedTypes (binding : EnumBinding) : List TypeExpr :=
  [BindingKind.enumeration.makerType, binding.target]

end EnumBinding

/-- **A binding** of the module of resolvers. -/
inductive Binding where
  /-- The binding of an object. -/
  | object (it : ObjectBinding)
  /-- The binding of an enumeration. -/
  | enumeration (it : EnumBinding)
  deriving DecidableEq, Repr, Inhabited

namespace Binding

/-- **The name that is bound.** -/
def name : Binding → String
  | object it => it.name
  | enumeration it => it.name

/-- The text of a binding. -/
def text : Binding → String
  | object it => it.text
  | enumeration it => it.text

/-- The types the text of a binding uses. -/
def usedTypes : Binding → List TypeExpr
  | object it => it.usedTypes
  | enumeration it => it.usedTypes

/-- **The block of a binding.** -/
def block (binding : Binding) : Block := { body := binding.text, usedTypes := binding.usedTypes }

/-- **The registry**: a list of the names that are bound. -/
def registry (bindings : List Binding) : Block :=
  { body := "resolvers = [" ++ ", ".intercalate (bindings.map name) ++ "]", usedTypes := [] }

/-- The blocks of bindings, with the registry behind them unless there is
nothing to register. -/
def blocks : List Binding → List Block
  | [] => []
  | bindings => bindings.map block ++ [registry bindings]

end Binding

end SchemaScaffold
