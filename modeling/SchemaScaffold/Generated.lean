import SchemaScaffold.Module
import SchemaScaffold.Resolvers.OfDocument
import SchemaScaffold.Types.OfDocument

/-!
# What is generated from a document

The two stages run one after the other, and between them the scope grows
by the names that the blocks of the finished stage use as their own. If a
stage fails there is no result at all: nothing of what the other one made
can be seen.
-/

namespace SchemaScaffold

/-- The blocks a stage makes of a document in a scope. -/
def Stage.run (stage : Stage) (document : Document) (scope : Scope) :
    Except GenerateError (List Block) :=
  match stage with
  | types => document.typeBlocks scope
  | resolvers => document.resolverBlocks scope

/-- A scope with the names that the blocks of a stage use as their own. -/
def Scope.afterStage (scope : Scope) (stage : Stage) (blocks : List Block) : Scope :=
  scope.widen (Module.ownNames stage.module blocks)

/-- **The modules of a service**, as the blocks of each. -/
structure Generated where
  /-- The blocks of the module of types. -/
  typeBlocks : List Block
  /-- The blocks of the module of resolvers. -/
  resolverBlocks : List Block
  /-- The scope after both stages. -/
  scope : Scope

namespace Generated

/-- The blocks that a stage made. -/
def blocks (generated : Generated) : Stage → List Block
  | .types => generated.typeBlocks
  | .resolvers => generated.resolverBlocks

/-- **The text of the module that a stage made.** -/
def text (generated : Generated) (stage : Stage) : String :=
  Module.text stage.module (generated.blocks stage)

end Generated

/-- **Generates the modules of a document**, with the names that the given
scope provides. -/
def Document.generate (document : Document) (given : Scope) : Except GenerateError Generated := do
  let scope := document.scope given
  let typeBlocks ← Stage.types.run document scope
  let scope := scope.afterStage .types typeBlocks
  let resolverBlocks ← Stage.resolvers.run document scope
  let scope := scope.afterStage .resolvers resolverBlocks
  return { typeBlocks, resolverBlocks, scope }

end SchemaScaffold
