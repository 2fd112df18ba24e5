/-!
# Stages

A service is generated in two stages, each of which makes one module. The
second one uses names that the first declares, so the order is fixed.
-/

namespace SchemaScaffold

/-- **A stage of the generation.** -/
inductive Stage where
  /-- The module of the types. -/
  | types
  /-- The module of the resolvers. -/
  | resolvers
  deriving DecidableEq, Repr, Inhabited

namespace Stage

/-- The stages in order. -/
def all : List Stage := [types, resolvers]

/-- The name of a stage. -/
def name : Stage → String
  | types => "types"
  | resolvers => "resolvers"

/-- **The module a stage makes**, as its sibling modules call it. -/
def module (stage : Stage) : String := "." ++ stage.name

end Stage

end SchemaScaffold
