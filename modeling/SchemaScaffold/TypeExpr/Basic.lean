/-!
# Type expressions

Generated text speaks of types by **type expressions**: a name, which a
module may have to provide, or another expression made optional or made
into a sequence. The two wrappers are names too, provided by `typing`.

Two readings of an expression go together. Its *imports* list the names
it mentions with the modules that provide them, and its *text* in a
module writes them down. A name that the module itself provides is
written in quotation marks, because it may be defined further down; it is
the one kind of name that needs no import there.
-/

namespace SchemaScaffold

/-- **A name and the module that provides it.** -/
structure Import where
  /-- The name. -/
  name : String
  /-- The module. -/
  module : String
  deriving DecidableEq, Repr, Inhabited

/-- **A type expression.** -/
inductive TypeExpr where
  /-- A name, and the module that provides it. A name that every module
  has is provided by none. -/
  | bare (name : String) (module? : Option String)
  /-- What the inner expression says, or no value. -/
  | optional (inner : TypeExpr)
  /-- A sequence of what the inner expression says. -/
  | sequence (inner : TypeExpr)
  deriving DecidableEq, Repr, Inhabited

namespace TypeExpr

/-- The module that provides the wrappers. -/
def typingModule : String := "typing"

/-- A name that every module has. -/
def builtin (name : String) : TypeExpr := .bare name none

/-- A name that a module provides. -/
def imported (name module : String) : TypeExpr := .bare name (some module)

/-- The name at the head of an expression. -/
def head : TypeExpr → String
  | bare name _ => name
  | optional _ => "Optional"
  | sequence _ => "Sequence"

/-- The module that provides the name at the head. -/
def module? : TypeExpr → Option String
  | bare _ module? => module?
  | optional _ => some typingModule
  | sequence _ => some typingModule

/-- The expressions the head is applied to. -/
def children : TypeExpr → List TypeExpr
  | bare _ _ => []
  | optional inner => [inner]
  | sequence inner => [inner]

/-- Whether the expression is optional at its outermost level. -/
def isOptional : TypeExpr → Bool
  | optional _ => true
  | bare _ _ => false
  | sequence _ => false

/-- **What an optional expression is without the option**; there is none
for the others. -/
def required? : TypeExpr → Option TypeExpr
  | optional inner => some inner
  | bare _ _ => none
  | sequence _ => none

/-- The expression without an option at its outermost level. -/
def required (type : TypeExpr) : TypeExpr := type.required?.getD type

/-- The value that stands for none given, where there is one. -/
def default? : TypeExpr → Option String
  | optional _ => some "None"
  | bare _ _ => none
  | sequence _ => none

/-- The import the head of an expression needs, if any. -/
def headImport? (type : TypeExpr) : Option Import := type.module?.map (Import.mk type.head)

/-- **The imports of an expression**: that of its head, and then those of
what it is applied to. -/
def imports (type : TypeExpr) : List Import :=
  match type with
  | bare _ _ => type.headImport?.toList
  | optional inner => type.headImport?.toList ++ inner.imports
  | sequence inner => type.headImport?.toList ++ inner.imports

/-- A name in quotation marks. -/
def quote (name : String) : String := "\"" ++ name ++ "\""

/-- **The text of an expression in a module.** -/
def text (module : String) : TypeExpr → String
  | bare name module? => if module? = some module then quote name else name
  | optional inner => "Optional[" ++ inner.text module ++ "]"
  | sequence inner => "Sequence[" ++ inner.text module ++ "]"

end TypeExpr

/-- The import as a line of its own. -/
def Import.text (i : Import) : String := "from " ++ i.module ++ " import " ++ i.name

end SchemaScaffold
