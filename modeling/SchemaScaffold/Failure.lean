import SchemaScaffold.Generated
import SchemaScaffold.Output.FileSystem
import SchemaScaffold.Sdl.Parse

/-!
# From a text to modules

The way from the text of a schema to the modules of a service has three
places where it can end early: the text may not be accepted, the modules
may not be generated, and a file may not be read or written. A
**failure** says which, and why.

A schema may be wanted for its own sake, too. Then it is only the first
and the last that can happen (`LoadError`), and they are told in their
own words.
-/

namespace SchemaScaffold

/-- **Why a file yields no document.** -/
inductive LoadError where
  /-- The file cannot be read. -/
  | io (error : IoError)
  /-- The text in it is not accepted. -/
  | parse (error : ParseError)
  deriving DecidableEq, Repr, Inhabited

/-- The message for an error. -/
def LoadError.message : LoadError → String
  | io error => error.message
  | parse error => error.message

/-- **Why there are no modules**, or why they are not all written. -/
inductive Failure where
  /-- The text of the schema is not accepted. -/
  | parse (error : ParseError)
  /-- A file cannot be read or written. -/
  | io (error : IoError)
  /-- The modules cannot be generated. -/
  | generate (error : GenerateError)
  deriving DecidableEq, Repr, Inhabited

/-- The message for a failure. -/
def Failure.message : Failure → String
  | parse error => "schema parse error: " ++ error.message
  | io error => error.message
  | generate error => error.message

/-- **The messages for a failure and what caused it**, the outermost
first. -/
def Failure.causes : Failure → List String
  | parse error => [(parse error).message, error.message]
  | io error => [(io error).message, error.text]
  | generate error => [error.message]

/-- **The modules for the text of a schema.** -/
def Generated.ofText (text : String) : Except Failure Generated :=
  match Document.parse text with
  | .error error => .error (.parse error)
  | .ok document =>
    match document.generate .empty with
    | .error error => .error (.generate error)
    | .ok generated => .ok generated

variable {m : Type → Type} [Monad m] [FileSystem m]

/-- **The document of a file.** -/
def Document.load (path : Path) : ExceptT LoadError m Document := do
  let text ← (FileSystem.readText path : ExceptT IoError m String).adapt LoadError.io
  match parse text with
  | .ok document => return document
  | .error error => throw (.parse error)

/-- **The modules for the schema in a file.** -/
def Generated.ofFile (path : Path) : ExceptT Failure m Generated := do
  let text ← (FileSystem.readText path : ExceptT IoError m String).adapt Failure.io
  match ofText text with
  | .ok generated => return generated
  | .error failure => throw failure

end SchemaScaffold
