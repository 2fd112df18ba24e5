import SchemaScaffold.CommandLine.Run

/-!
# The program

The command on the files of the machine. All that there is to decide is
decided in `CommandLine.run`. Here are the file system it runs on, and
what is shown for a command line that asks for nothing to be done.
-/

namespace SchemaScaffold.Machine

open CommandLine

/-- The refusal that an error of the machine stands for. -/
def refusal : IO.Error → IoError
  | .noFileOrDirectory _ _ _ => .notFound
  | .alreadyExists _ _ _ => .alreadyThere
  | .invalidArgument _ 36 _ => .nameTooLong
  | .inappropriateType _ code _ => if code = 21 then .isDirectory else .notDirectory
  | error => .other (toString error)

/-- An action on the files of the machine, its errors as refusals. -/
def attempt {α : Type} (action : IO α) : ExceptT IoError IO α :=
  ExceptT.mk do
    match ← action.toBaseIO with
    | .ok result => return .ok result
    | .error error => return .error (refusal error)

/-- The text of a file of the machine. -/
def readText (path : Path) : ExceptT IoError IO String := do
  let bytes ← attempt do (← IO.FS.Handle.mk path.text .read).readBinToEnd
  match String.fromUTF8? bytes with
  | some text => return text
  | none => throw .notText

/-- Makes a directory of the machine. -/
def makeDirectory (path : Path) : ExceptT IoError IO Unit := attempt (IO.FS.createDir path.text)

/-- Whether there is a directory of the machine at a path. A directory has
itself inside it, under a point, so making that is refused because it is
there already; nothing else has an inside, and nothing is ever made. -/
def isDirectory (path : Path) : IO Bool := do
  match ← (makeDirectory (path.inside ".")).run with
  | .error .alreadyThere => return true
  | _ => return false

instance : FileSystem IO where
  readText := readText
  makeDirectory := makeDirectory
  isDirectory := isDirectory
  writeText path text := attempt (IO.FS.writeFile path.text text)

/-- How the command is used. -/
def usage : List String :=
  ["Usage: schema-scaffold [OPTIONS] <SCHEMA>",
    "",
    "Arguments:",
    "  <SCHEMA>             The schema to read",
    "",
    "Options:",
    "  -o, --out-dir <DIR>  Where to write, if not beside the schema",
    "      --app            Write the application module too",
    "      --debug          Say more while running",
    "  -h, --help           Show this help",
    "  -V, --version        Show the version"]

/-- What is wrong with a command line. -/
def complaint : Stop → String
  | .missingSchema => "the path of a schema is required"
  | .unknownArgument => "unexpected argument"
  | .invalidValue => "a value is missing or empty"
  | .repeatedOption => "an option cannot be used multiple times"
  | .unneededValue => "unexpected value for an option that takes none"
  | .help => ""
  | .version => ""

/-- Shows how a run ended. -/
def tell (outcome : Outcome) : IO Unit := do
  match outcome with
  | .stopped .help => usage.forM IO.println
  | .stopped .version => IO.println "schema-scaffold 0.1.0"
  | .stopped stop => (("error: " ++ complaint stop) :: "" :: usage).forM IO.eprintln
  | _ => IO.eprint (outcome.report?.getD "")

end SchemaScaffold.Machine

/-- The program. -/
def main (words : List String) : IO UInt32 := do
  let outcome ← SchemaScaffold.CommandLine.run (m := IO) words
  SchemaScaffold.Machine.tell outcome
  return UInt32.ofNat outcome.exitCode
