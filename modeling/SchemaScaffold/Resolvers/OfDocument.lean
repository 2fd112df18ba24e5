import SchemaScaffold.Resolvers.Binding
import SchemaScaffold.Schema.Document
import SchemaScaffold.TypeExpr.Resolve

/-!
# The bindings of a document

Objects and enumerations are bound, and nothing else. Here the scope is
taken as it is: an object or enumeration that it does not provide has no
type to speak of, and cannot be bound.

A default is given an expression only where that is the name of a value
of an enumeration. A parameter with a default need not be optional, so
its type is the one without the option.
-/

namespace SchemaScaffold

/-- **The expression for a default** of an argument of the given type. -/
def EnumDefault.ofValue (argument : String) (value : Value) (type : TypeExpr) :
    Except GenerateError EnumDefault :=
  match value, type with
  | .enumValue name, .bare _ _ => .ok { type, value := name }
  | .enumValue _, _ =>
    .error (.unsupportedDefault argument (value.kind ++ " (for " ++ type.head ++ ")"))
  | _, _ => .error (.unsupportedDefault argument value.kind)

/-- **The parameter for an argument.** -/
def Parameter.ofInput (scope : Scope) (input : InputValue) : Except GenerateError Parameter := do
  let type ← input.type.resolve scope
  match input.default? with
  | none => return { schemaName := input.name, type, default? := none }
  | some value =>
    let default ← EnumDefault.ofValue input.name value type.required
    return { schemaName := input.name, type := type.required, default? := some default }

/-- **The stub for a field.** -/
def Stub.ofField (scope : Scope) (field : Field) : Except GenerateError Stub := do
  let returnType ← field.type.resolve scope
  let parameters ← field.arguments.mapM (Parameter.ofInput scope)
  return { schemaName := field.name, returnType, parameters }

/-- The type a scope provides under a name, as it is. -/
def Scope.provided (scope : Scope) (name : String) : Except GenerateError TypeExpr :=
  match scope.moduleOf? name with
  | some module => .ok (.imported name module)
  | none => .error (.unresolvedType name)

/-- The type of the values of an object; a root object has none. -/
def ObjectBinding.parentOf (scope : Scope) (object : ObjectType) :
    Except GenerateError (Option TypeExpr) :=
  if (BindingKind.ofObjectName object.name).isRoot then .ok none
  else some <$> scope.provided object.name

/-- **The binding of an object**, with a stub for each field that takes
arguments. -/
def ObjectBinding.ofObject (scope : Scope) (object : ObjectType) :
    Except GenerateError ObjectBinding := do
  let parent? ← parentOf scope object
  let stubs ← (object.fields.filter Field.hasArguments).mapM (Stub.ofField scope)
  return { schemaName := object.name, parent?, stubs }

/-- **The binding of an enumeration.** -/
def EnumBinding.ofEnum (scope : Scope) (enumeration : EnumType) :
    Except GenerateError EnumBinding := do
  let target ← scope.provided enumeration.name
  return { schemaName := enumeration.name, target }

/-- **The binding of a definition**, if it has one. -/
def Binding.ofDefinition? (scope : Scope) : Definition → Except GenerateError (Option Binding)
  | .object it => (some ∘ Binding.object) <$> ObjectBinding.ofObject scope it
  | .enumeration it => (some ∘ Binding.enumeration) <$> EnumBinding.ofEnum scope it
  | .interface _ => .ok none
  | .union _ => .ok none
  | .inputObject _ => .ok none
  | .scalar _ => .ok none
  | .schema _ => .ok none
  | .directive _ => .ok none

/-- **The bindings of a document**, in order of definition. -/
def Document.bindings (document : Document) (scope : Scope) :
    Except GenerateError (List Binding) := do
  let found ← document.definitions.toList.mapM (Binding.ofDefinition? scope)
  return found.filterMap id

/-- **The blocks of the module of resolvers.** -/
def Document.resolverBlocks (document : Document) (scope : Scope) :
    Except GenerateError (List Block) := do
  let bindings ← document.bindings scope
  return Binding.blocks bindings

end SchemaScaffold
