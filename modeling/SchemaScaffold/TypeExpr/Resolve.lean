import SchemaScaffold.GenerateError
import SchemaScaffold.Scope

/-!
# The expression for a type reference

A reference is turned into the expression that stands for it by looking
up the name at its core and putting the levels around it back on. What a
schema leaves unsaid – that a value may be null – an expression says, so
every level becomes optional, and a level that excludes null takes the
option off again (`TypeRef.resolve`).

A name means what the scope says before it means one of the five scalars
that every schema has.
-/

namespace SchemaScaffold

/-- **The scalars every schema has**, and what stands for them. -/
def builtinScalar? (name : String) : Option TypeExpr :=
  if name = "ID" then some (.imported "UUID" "uuid")
  else if name = "String" then some (.builtin "str")
  else if name = "Float" then some (.imported "Decimal" "decimal")
  else if name = "Int" then some (.builtin "int")
  else if name = "Boolean" then some (.builtin "bool")
  else none

/-- **The expression for a name**: what the scope provides, or else one of
the scalars. -/
def Scope.resolveName (scope : Scope) (name : String) : Except GenerateError TypeExpr :=
  match scope.moduleOf? name with
  | some module => .ok (.imported name module)
  | none =>
    match builtinScalar? name with
    | some type => .ok type
    | none => .error (.unresolvedType name)

/-- Takes the option off the expression for a reference that excludes
null. -/
def TypeRef.exclude (reference : TypeRef) (found : TypeExpr) : Except GenerateError TypeExpr :=
  match found.required? with
  | some type => .ok type
  | none => .error (.doubleExclusion reference found)

/-- **The expression for a type reference.** -/
def TypeRef.resolve (scope : Scope) : TypeRef → Except GenerateError TypeExpr
  | named name => do
    let type ← scope.resolveName name
    return .optional type
  | nonNull inner => do
    let found ← inner.resolve scope
    (TypeRef.nonNull inner).exclude found
  | list inner => do
    let type ← inner.resolve scope
    return .optional (.sequence type)

end SchemaScaffold
