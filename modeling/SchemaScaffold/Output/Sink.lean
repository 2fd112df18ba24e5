import SchemaScaffold.Failure
import SchemaScaffold.Output.Application

/-!
# Where modules go

A **sink** takes the text of the module of a stage. There are two: a
shelf in memory, which keeps the last text of each stage, and a
directory, with a file for each stage that is created when the first text
comes.

Generating into a sink runs both stages before it hands over the first
text. So if the generation fails, the sink is as it was.
-/

namespace SchemaScaffold

/-- **What takes the text of a stage's module.** -/
structure Sink (m : Type → Type) where
  /-- Takes the text of the module of a stage. -/
  put : Stage → String → ExceptT IoError m Unit

/-! ## A shelf in memory -/

/-- **The modules kept in memory.** -/
structure Shelf where
  /-- The module of types. -/
  types? : Option String := none
  /-- The module of resolvers. -/
  resolvers? : Option String := none
  deriving DecidableEq, Repr, Inhabited

namespace Shelf

/-- The shelf with nothing on it. -/
def empty : Shelf := {}

/-- **The text kept for a stage.** -/
def get? (shelf : Shelf) : Stage → Option String
  | .types => shelf.types?
  | .resolvers => shelf.resolvers?

/-- Keeps a text for a stage. -/
def set (shelf : Shelf) (stage : Stage) (text : String) : Shelf :=
  match stage with
  | .types => { shelf with types? := some text }
  | .resolvers => { shelf with resolvers? := some text }

/-- Whether nothing is kept. -/
def isEmpty (shelf : Shelf) : Bool := shelf.types?.isNone && shelf.resolvers?.isNone

/-- What was kept for a stage last is what is there. -/
theorem get?_set (shelf : Shelf) (stage other : Stage) (text : String) :
    (shelf.set stage text).get? other = if other = stage then some text else shelf.get? other := by
  cases stage <;> cases other <;> rfl

end Shelf

/-- **The sink that keeps texts on a shelf.** -/
def Sink.shelf : Sink (StateM Shelf) where
  put stage text := fun shelf => (.ok (), shelf.set stage text)

/-! ## A directory -/

section Directory

variable {m : Type → Type} [Monad m] [FileSystem m]

/-- The path of the file for a stage in a directory. -/
def Stage.pathIn (stage : Stage) (directory : Path) : Path := directory.inside (stage.name ++ ".py")

/-- Writes a file into a directory, which is created if it is missing. -/
def writeInto (directory path : Path) (text : String) : ExceptT IoError m Unit := do
  FileSystem.createDirectories directory
  FileSystem.writeText path text

/-- **The sink that writes files into a directory.** -/
def Sink.directory (directory : Path) : Sink m where
  put stage text := writeInto directory (stage.pathIn directory) text

/-- **Writes the application module** into a directory, and says where. -/
def Application.write (directory : Path) (schemaFile : String) : ExceptT IoError m Path := do
  let path := directory.inside fileName
  writeInto directory path (text schemaFile)
  return path

end Directory

/-! ## Generating into a sink -/

section Generate

variable {m : Type → Type} [Monad m]

/-- Puts blocks of a stage into a sink, as the text of its module. -/
def Sink.putBlocks (sink : Sink m) (stage : Stage) (blocks : List Block) :
    ExceptT IoError m Unit :=
  sink.put stage (Module.text stage.module blocks)

/-- Puts generated modules into a sink, stage by stage. -/
def Generated.putInto (generated : Generated) (sink : Sink m) : ExceptT IoError m Unit :=
  Stage.all.forM fun stage => sink.putBlocks stage (generated.blocks stage)

/-- **Generates the modules of a document into a sink.** -/
def Document.generateInto (document : Document) (given : Scope) (sink : Sink m) :
    ExceptT Failure m Generated := do
  match document.generate given with
  | .error error => throw (.generate error)
  | .ok generated =>
    (generated.putInto sink).adapt Failure.io
    return generated

end Generate

end SchemaScaffold
