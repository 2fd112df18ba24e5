import SchemaScaffold.Schema.TypeRef
import SchemaScaffold.TypeExpr.Basic

/-!
# Why generation fails

A document may be a proper schema and still have no modules: it may speak
of a type that nothing provides, or give an argument a default that the
generated text has no expression for. The third cause cannot come from a
schema text, only from a document put together otherwise: a reference
that excludes null twice at one level.
-/

namespace SchemaScaffold

/-- **Why a document has no modules.** -/
inductive GenerateError where
  /-- Nothing provides a type of this name. -/
  | unresolvedType (name : String)
  /-- There is no expression for a default of this kind. -/
  | unsupportedDefault (argument kind : String)
  /-- A reference excludes null from what is not optional. -/
  | doubleExclusion (reference : TypeRef) (found : TypeExpr)
  deriving DecidableEq, Repr, Inhabited

/-- The message for an error. The expression found is written as in a
module without a name. -/
def GenerateError.message : GenerateError → String
  | unresolvedType name => "unresolved type '" ++ name ++ "'"
  | unsupportedDefault argument kind =>
    "unsupported " ++ kind ++ " default value for argument '" ++ argument ++ "'"
  | doubleExclusion reference found =>
    "invariant violation: non-null '" ++ reference.text ++ "' wraps non-optional "
      ++ found.text ""

end SchemaScaffold
