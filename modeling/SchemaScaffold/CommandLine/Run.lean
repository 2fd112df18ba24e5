import SchemaScaffold.CommandLine.Arguments
import SchemaScaffold.Output.Sink

/-!
# The command

A run of the command reads the schema, generates the modules into the
directory asked for, and writes the application module if that is asked
for too. How a run ends is an `Outcome`, from which both the exit code and
what is reported are read off. The report names what was being done and
then the causes, numbered if there are several.
-/

namespace SchemaScaffold.CommandLine

/-- **How a run ends.** -/
inductive Outcome where
  /-- The command line asked for nothing to be done, or was at fault. -/
  | stopped (stop : Stop)
  /-- There is no document in the file. -/
  | rejected (error : LoadError)
  /-- Something failed in the course of the given work. -/
  | failed (work : String) (failure : Failure)
  /-- Everything was written. -/
  | finished
  deriving DecidableEq, Repr, Inhabited

namespace Outcome

/-- **The exit code of a run.** -/
def exitCode : Outcome → Nat
  | stopped stop => if stop.isFault then 2 else 0
  | rejected _ => 1
  | failed _ _ => 1
  | finished => 0

/-- The lines of the causes of a failure. -/
def causeLines : List String → List String
  | [cause] => ["    " ++ cause]
  | causes => causes.mapIdx fun i cause => "    " ++ toString i ++ ": " ++ cause

/-- **What a run reports** on its way out. What to say of a command line
at fault is left to whoever shows it. -/
def report? : Outcome → Option String
  | stopped stop => if stop.isFault then none else some ""
  | rejected error => some ("Failed to parse schema - " ++ error.message ++ "\n")
  | failed work failure =>
    some ("Error: " ++ work ++ "\n\nCaused by:\n"
      ++ "\n".intercalate (causeLines failure.causes) ++ "\n")
  | finished => some ""

end Outcome

variable {m : Type → Type} [Monad m] [FileSystem m]

/-- Writes what the arguments ask for, from a document. -/
def write (arguments : Arguments) (document : Document) : m Outcome := do
  let directory := arguments.outputDirectory
  match ← document.generateInto .empty (Sink.directory directory) with
  | .error failure => return .failed ("generating modules into " ++ directory.text) failure
  | .ok _ =>
    if arguments.app then
      match ← Application.write directory arguments.schemaFileName with
      | .error error => return .failed "writing app.py" (.io error)
      | .ok _ => return .finished
    else return .finished

/-- Does what the arguments ask for. -/
def perform (arguments : Arguments) : m Outcome := do
  match ← Document.load arguments.schema with
  | .error error => return .rejected error
  | .ok document => write arguments document

/-- **Runs the command** on the words of a command line. -/
def run (words : List String) : m Outcome :=
  match Arguments.ofWords words with
  | .error stop => return .stopped stop
  | .ok arguments => perform arguments

end SchemaScaffold.CommandLine
