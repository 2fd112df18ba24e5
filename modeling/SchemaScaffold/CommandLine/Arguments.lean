import SchemaScaffold.Output.BytePath

/-!
# Command lines

The command takes the path of a schema, and options: `--out-dir` (`-o`)
with a directory, `--app`, `--debug`, and the two that ask for nothing to
be done, `--help` (`-h`) and `--version` (`-V`). Words are looked at one by
one from the left, and the first problem ends the reading.

A value is not judged when it is met. It stays **pending** until the next
argument that the command knows, or the end: the path of the schema,
because more could belong to it, and the directory, because it may still
be missing. An argument that the command does not know is refused at once,
whatever is pending. So where two things are wrong, it is not always the
first of them that is reported.

A value may be attached to its option, as in `-oDIR`, `-o=DIR` and
`--out-dir=DIR`; then it is judged at once. Letters of options may be run
together, the last one with its value behind it. A word of two dashes ends
the options, and every word behind it is a path.

A word is a text here. The paths that the system hands over are bytes, and
where it makes a difference – a name has to be shown for what may be none –
the arguments are those in bytes (`RawArguments`).
-/

namespace SchemaScaffold.CommandLine

/-- **The paths of a command line**, as the system has them. -/
structure RawArguments where
  /-- The path of the schema. -/
  schema : BytePath
  /-- The directory to write to, if one is named. -/
  outDir? : Option BytePath := none
  deriving DecidableEq, Repr, Inhabited

namespace RawArguments

/-- **The directory to write to**: the one named, or the one the schema is
in. -/
def outputDirectory (arguments : RawArguments) : BytePath :=
  match arguments.outDir? with
  | some directory => directory
  | none => arguments.schema.parent?.getD (.ofPath ⟨"."⟩)

/-- **The name of the file of the schema**, as it is shown. -/
def schemaFileName (arguments : RawArguments) : String :=
  arguments.schema.shownName?.getD "schema.graphql"

end RawArguments

/-- **What the command is asked to do.** -/
structure Arguments where
  /-- The path of the schema. -/
  schema : Path
  /-- The directory to write to, if one is named. -/
  outDir? : Option Path := none
  /-- Whether to write the application module too. -/
  app : Bool := false
  /-- Whether to say more than usual. -/
  debug : Bool := false
  deriving DecidableEq, Repr, Inhabited

namespace Arguments

/-- **The directory to write to**: the one named, or the one the schema is
in. -/
def outputDirectory (arguments : Arguments) : Path :=
  match arguments.outDir? with
  | some directory => directory
  | none => arguments.schema.parent?.getD ⟨"."⟩

/-- The paths as the system has them. -/
def raw (arguments : Arguments) : RawArguments :=
  { schema := .ofPath arguments.schema, outDir? := arguments.outDir?.map .ofPath }

/-- The name of the file of the schema. -/
def schemaFileName (arguments : Arguments) : String := arguments.raw.schemaFileName

/-- How much is said while the command runs. -/
def logLevel (arguments : Arguments) : String := if arguments.debug then "debug" else "info"

end Arguments

/-- **Why a command line is not a job to do.** -/
inductive Stop where
  /-- The path of the schema is missing. -/
  | missingSchema
  /-- An argument is not known, or is one too many. -/
  | unknownArgument
  /-- A value is missing or empty. -/
  | invalidValue
  /-- An option is given twice. -/
  | repeatedOption
  /-- An option that takes no value is given one. -/
  | unneededValue
  /-- Help is asked for. -/
  | help
  /-- The version is asked for. -/
  | version
  deriving DecidableEq, Repr, Inhabited

/-- Whether the command line is at fault. -/
def Stop.isFault : Stop → Bool
  | help => false
  | version => false
  | _ => true

/-- **A value that is still to be judged.** -/
inductive Pending where
  /-- Nothing is pending. -/
  | nothing
  /-- The path of the schema. -/
  | schema (value : String)
  /-- The directory, of which the value may still be missing. -/
  | directory (value? : Option String)
  deriving DecidableEq, Repr, Inhabited

/-- What is known of a command line so far. -/
structure Progress where
  /-- What is still to be judged. -/
  pending : Pending := .nothing
  /-- Whether a path for the schema has been met. -/
  metSchema : Bool := false
  /-- The path of the schema. -/
  schema? : Option Path := none
  /-- The directory. -/
  outDir? : Option Path := none
  /-- Whether the application module is wanted. -/
  app : Bool := false
  /-- Whether more is to be said. -/
  debug : Bool := false
  deriving DecidableEq, Repr, Inhabited

namespace Progress

/-- A path that is not empty. -/
def pathOf (value : String) : Except Stop Path :=
  if value = "" then .error .invalidValue else .ok ⟨value⟩

/-- Judges a directory. -/
def judgeDirectory (progress : Progress) (value : String) : Except Stop Progress :=
  match progress.outDir? with
  | some _ => .error .repeatedOption
  | none => do
    let path ← pathOf value
    return { progress with outDir? := some path }

/-- **Judges what is pending.** -/
def settle (progress : Progress) : Except Stop Progress :=
  let settled := { progress with pending := .nothing }
  match progress.pending with
  | .nothing => .ok settled
  | .schema value => do
    let path ← pathOf value
    return { settled with schema? := some path }
  | .directory none => .error .invalidValue
  | .directory (some value) => settled.judgeDirectory value

/-- Takes a word as a path. -/
def takePath (progress : Progress) (word : String) : Except Stop Progress :=
  if progress.metSchema then .error .unknownArgument
  else do
    let settled ← progress.settle
    return { settled with pending := .schema word, metSchema := true }

/-- Takes the option for the application module. -/
def takeApp (progress : Progress) : Except Stop Progress := do
  let settled ← progress.settle
  if settled.app then .error .repeatedOption else return { settled with app := true }

/-- Takes the option for saying more. -/
def takeDebug (progress : Progress) : Except Stop Progress := do
  let settled ← progress.settle
  if settled.debug then .error .repeatedOption else return { settled with debug := true }

/-- Takes the option for the directory, with its value if it is
attached. -/
def takeDirectory (progress : Progress) (attached? : Option String) : Except Stop Progress := do
  let settled ← progress.settle
  match attached? with
  | some value => settled.judgeDirectory value
  | none => return { settled with pending := .directory none }

/-- Takes an option that asks for nothing to be done. -/
def takeStop (progress : Progress) (stop : Stop) : Except Stop Progress := do
  let _ ← progress.settle
  .error stop

/-- Takes an option that has no value, unless it is given one. -/
def withoutValue (attached? : Option String) (take : Except Stop Progress) :
    Except Stop Progress :=
  if attached?.isSome then .error .unneededValue else take

/-- **Takes an option by its long name**, with the value attached to it. -/
def takeLong (progress : Progress) (name : String) (attached? : Option String) :
    Except Stop Progress :=
  if name = "out-dir" then progress.takeDirectory attached?
  else if name = "app" then withoutValue attached? progress.takeApp
  else if name = "debug" then withoutValue attached? progress.takeDebug
  else if name = "help" then withoutValue attached? (progress.takeStop .help)
  else if name = "version" then withoutValue attached? (progress.takeStop .version)
  else .error .unknownArgument

/-- The value attached to a letter: what is behind it, without an equals
sign in front. -/
def attachedTo : List Char → Option String
  | [] => none
  | '=' :: value => some (String.ofList value)
  | value => some (String.ofList value)

/-- **Takes options by their letters.** The letter for the directory has
what is behind it for its value; no other letter lets the reading go on. -/
def takeLetters (progress : Progress) : List Char → Except Stop Progress
  | [] => .ok progress
  | 'o' :: rest => progress.takeDirectory (attachedTo rest)
  | 'h' :: _ => progress.takeStop .help
  | 'V' :: _ => progress.takeStop .version
  | _ :: _ => .error .unknownArgument

/-- The name and the value of a long option: the parts in front of and
behind the first equals sign. -/
def splitLong (option : List Char) : String × Option String :=
  let name := option.takeWhile (· != '=')
  match option.dropWhile (· != '=') with
  | [] => (String.ofList name, none)
  | _ :: value => (String.ofList name, some (String.ofList value))

/-- Takes a word that is no option: the value of the option in front, if
that still has none, or else a path. -/
def takeWord (progress : Progress) (word : String) : Except Stop Progress :=
  if progress.pending = .directory none then
    .ok { progress with pending := .directory (some word) }
  else progress.takePath word

/-- **Takes the words of a command line** one by one. -/
def takeAll (progress : Progress) : List String → Except Stop Progress
  | [] => .ok progress
  | word :: words =>
    match word.toList with
    | ['-', '-'] => words.foldlM takePath progress
    | '-' :: '-' :: option => do
      let (name, attached?) := splitLong option
      let progress ← progress.takeLong name attached?
      progress.takeAll words
    | '-' :: c :: letters => do
      let progress ← progress.takeLetters (c :: letters)
      progress.takeAll words
    | _ => do
      let progress ← progress.takeWord word
      progress.takeAll words

end Progress

/-- **The arguments of a command line**, or why there is nothing to do. -/
def Arguments.ofWords (words : List String) : Except Stop Arguments := do
  let progress ← ({} : Progress).takeAll words
  let settled ← progress.settle
  match settled.schema? with
  | none => .error .missingSchema
  | some schema =>
    return { schema, outDir? := settled.outDir?, app := settled.app, debug := settled.debug }

end SchemaScaffold.CommandLine
