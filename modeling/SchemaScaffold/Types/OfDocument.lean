import SchemaScaffold.Schema.Document
import SchemaScaffold.Types.Declaration
import SchemaScaffold.TypeExpr.Resolve

/-!
# The declarations of a document

Each definition of a document has at most one declaration in the module
of types. Scalars have none, since a schema says nothing of them but the
name, and neither have the root objects, which are never values.

A field with arguments is no attribute: its value is computed on demand,
which is the work of a resolver. The fields of an input object are values
all of them.

The names of the document are in scope throughout (`Document.scope`), as
names of the module of types, unless the scope given says otherwise.
-/

namespace SchemaScaffold

/-- **The scope of a document**: its own types, provided by the module of
types, under what the given scope provides. -/
def Document.scope (document : Document) (given : Scope) : Scope :=
  (Scope.ofList (document.typeNames.map fun name => (name, Stage.types.module))).widen given.entries

namespace Attribute

/-- The attribute for a field of a type. -/
def ofField (scope : Scope) (field : Field) : Except GenerateError Attribute := do
  let type ← field.type.resolve scope
  return { name := snakeCase field.name, type }

/-- The attribute for a field of an input object. -/
def ofInput (scope : Scope) (input : InputValue) : Except GenerateError Attribute := do
  let type ← input.type.resolve scope
  return { name := snakeCase input.name, type }

/-- The attributes for those fields that take no arguments. -/
def ofFields (scope : Scope) (fields : List Field) : Except GenerateError (List Attribute) :=
  (fields.filter fun field => !field.hasArguments).mapM (ofField scope)

end Attribute

namespace Declaration

/-- **The declaration of a definition**, if it has one. -/
def ofDefinition? (scope : Scope) : Definition → Except GenerateError (Option Declaration)
  | .object it =>
    if isRootName it.name then .ok none
    else do
      let attributes ← Attribute.ofFields scope it.fields
      return some (.record it.name it.implements attributes)
  | .inputObject it =>
    if isRootName it.name then .ok none
    else do
      let attributes ← it.fields.mapM (Attribute.ofInput scope)
      return some (.record it.name [] attributes)
  | .interface it => do
    let attributes ← Attribute.ofFields scope it.fields
    return some (.protocol it.name attributes)
  | .enumeration it => .ok (some (.enumeration it.name it.values))
  | .union it => do
    let members ← it.members.mapM scope.resolveName
    return some (.union it.name members)
  | .scalar _ => .ok none
  | .schema _ => .ok none
  | .directive _ => .ok none

end Declaration

/-- **The declarations of a document**, in order of definition. -/
def Document.declarations (document : Document) (given : Scope) :
    Except GenerateError (List Declaration) := do
  let found ← document.definitions.toList.mapM
    (Declaration.ofDefinition? (document.scope given))
  return found.filterMap id

/-- **The blocks of the module of types.** -/
def Document.typeBlocks (document : Document) (given : Scope) :
    Except GenerateError (List Block) := do
  let declarations ← document.declarations given
  return declarations.map Declaration.block

end SchemaScaffold
