import SchemaScaffold.Output.FileSystem

/-!
# Trees of files

A **tree of files** says what is at each location. A location is the list
of names from the root to it; there is a directory at the root, and every
other location has a file, a directory or nothing. Paths are walked from
the root or from the working directory, one segment at a time, and each
step is taken from a directory.

Names and paths have a limit, and no NUL in them. A name over the limit is
found out by the step that takes it, a path by itself, before the walk.

The tree is a file system. Reading leaves it as it is. Making a directory
adds one node where nothing was, and writing sets the file at one
location; the directory either belongs into must be there.
-/

namespace SchemaScaffold

/-- A place in a tree: the names from the root to it. -/
abbrev Location : Type := List String

/-- **What is at a location.** -/
inductive Node where
  /-- A directory. -/
  | directory
  /-- A file with its bytes. -/
  | file (bytes : ByteArray)
  deriving Inhabited

/-- Files are compared by their bytes. -/
instance : DecidableEq Node
  | .directory, .directory => isTrue rfl
  | .directory, .file _ => isFalse nofun
  | .file _, .directory => isFalse nofun
  | .file a, .file b =>
    match ByteArray.instDecidableEq a b with
    | isTrue h => isTrue (congrArg Node.file h)
    | isFalse h => isFalse fun hfile => h (Node.file.inj hfile)

/-- **A tree of files**, and the directory that relative paths start from.
The first node of a location counts. -/
structure FileTree where
  /-- What is where. -/
  nodes : List (Location × Node)
  /-- Where relative paths start. -/
  workingDirectory : Location

namespace FileTree

/-- **What is at a location**, if anything is. -/
def node? (tree : FileTree) (location : Location) : Option Node :=
  if location = [] then some .directory else tree.nodes.lookup location

/-- The tree with a node set. -/
def setNode (tree : FileTree) (location : Location) (node : Node) : FileTree :=
  { tree with nodes := (location, node) :: tree.nodes.filter fun n => n.fst != location }

/-- The files of a tree with their locations. -/
def files (tree : FileTree) : List (Location × ByteArray) :=
  tree.nodes.filterMap fun n =>
    match n.snd with
    | .file bytes => some (n.fst, bytes)
    | .directory => none

/-- Where the walk along a path starts. -/
def start (tree : FileTree) (path : Path) : Location :=
  if path.isAbsolute then [] else tree.workingDirectory

/-- The location one segment further. -/
def step (location : Location) (segment : List Char) : Location :=
  if Path.stays segment then location
  else if segment = ['.', '.'] then location.dropLast
  else location ++ [String.ofList segment]

/-- How many bytes a name can have. -/
def nameLimit : Nat := 255

/-- How many bytes a path can have. -/
def pathLimit : Nat := 4095

/-- **The location a walk leads to.** Every step is from a directory; what
is at the end need not be there. -/
def walk (tree : FileTree) (location : Location) : List (List Char) → Except IoError Location
  | [] => .ok location
  | segment :: rest =>
    match tree.node? location with
    | none => .error .notFound
    | some (.file _) => .error .notDirectory
    | some .directory =>
      if nameLimit < (String.ofList segment).utf8ByteSize then .error .nameTooLong
      else walk tree (step location segment) rest

/-- What is wrong with a path, whatever is in the tree. -/
def fault? (path : Path) : Option IoError :=
  if path.text.toList.contains '\x00' then some .nulInPath
  else if path.text = "" then some .notFound
  else if pathLimit < path.text.utf8ByteSize then some .nameTooLong
  else none

/-- The location that segments of a path lead to. -/
def follow (tree : FileTree) (path : Path) (segments : List (List Char)) :
    Except IoError Location :=
  match fault? path with
  | some error => .error error
  | none => tree.walk (tree.start path) segments

/-- **The location of a path.** -/
def locate (tree : FileTree) (path : Path) : Except IoError Location :=
  tree.follow path path.segments

/-- Whether there is a directory at a path. -/
def isDirectory (tree : FileTree) (path : Path) : Bool :=
  match tree.locate path with
  | .ok location => tree.node? location == some .directory
  | .error _ => false

/-- The bytes of the file at a path. -/
def readBytes (tree : FileTree) (path : Path) : Except IoError ByteArray := do
  let location ← tree.locate path
  match tree.node? location with
  | none => .error .notFound
  | some .directory => .error .isDirectory
  | some (.file bytes) => .ok bytes

/-- **The text of the file at a path.** -/
def readText (tree : FileTree) (path : Path) : Except IoError String := do
  let bytes ← tree.readBytes path
  match String.fromUTF8? bytes with
  | some text => .ok text
  | none => .error .notText

/-- The segments of a path without the empty ones at its end. What is not
there yet may be named with slashes behind it, if it is to be a
directory. -/
def directorySegments (path : Path) : List (List Char) :=
  (path.segments.reverse.dropWhile List.isEmpty).reverse

/-- **Makes a directory** where nothing is, inside a directory. -/
def makeDirectory (tree : FileTree) (path : Path) : Except IoError FileTree := do
  let location ← tree.follow path (directorySegments path)
  match tree.node? location with
  | some _ => .error .alreadyThere
  | none => .ok (tree.setNode location .directory)

/-- **Sets the file at a path.** -/
def writeText (tree : FileTree) (path : Path) (text : String) : Except IoError FileTree := do
  let location ← tree.locate path
  match tree.node? location with
  | some .directory => .error .isDirectory
  | _ => .ok (tree.setNode location (.file text.toUTF8))

/-- The tree after a change, which is none if the change was refused. -/
def change (tree : FileTree) : Except IoError FileTree → Except IoError Unit × FileTree
  | .ok changed => (.ok (), changed)
  | .error error => (.error error, tree)

instance : FileSystem (StateM FileTree) where
  readText path := fun tree => (tree.readText path, tree)
  makeDirectory path := fun tree => tree.change (tree.makeDirectory path)
  isDirectory path := fun tree => (tree.isDirectory path, tree)
  writeText path text := fun tree => tree.change (tree.writeText path text)

/-! ## Directories with their parents

What making directories comes to on a tree: the refusals that count, and
the tree that is left behind, also after a refusal. -/

/-- A refusal to make a directory passes where there is one. -/
theorem orThere_run (tree : FileTree) (path : Path) (refusal : IoError) :
    (FileSystem.orThere path refusal : ExceptT IoError (StateM FileTree) Unit) tree
      = (if tree.isDirectory path then .ok () else .error refusal, tree) := by
  unfold FileSystem.orThere
  simp only [FileSystem.isDirectory, bind, ExceptT.bind, ExceptT.mk, ExceptT.bindCont, StateT.bind,
    ExceptT.lift, liftM, monadLift, MonadLift.monadLift, Functor.map, StateT.map]
  cases tree.isDirectory path <;> rfl

/-- **The parents are made only if the directory they hold is not to be
had without them**, and then the directory is tried once more. -/
theorem makeWithParents_cons_run (tree : FileTree) (path : Path) (parents : List Path) :
    (FileSystem.makeWithParents (path :: parents) : ExceptT IoError (StateM FileTree) Unit) tree
      = match tree.makeDirectory path with
        | .ok made => (.ok (), made)
        | .error .notFound =>
          match (FileSystem.makeWithParents parents :
              ExceptT IoError (StateM FileTree) Unit) tree with
          | (.error error, made) => (.error error, made)
          | (.ok (), made) =>
            match made.makeDirectory path with
            | .ok whole => (.ok (), whole)
            | .error error => (if made.isDirectory path then .ok () else .error error, made)
        | .error error => (if tree.isDirectory path then .ok () else .error error, tree) := by
  rw [FileSystem.makeWithParents]
  simp only [tryCatch, tryCatchThe, MonadExceptOf.tryCatch, ExceptT.tryCatch, ExceptT.mk, bind,
    StateT.bind, ExceptT.bind, FileSystem.makeDirectory]
  cases tree.makeDirectory path with
  | ok made => rfl
  | error error =>
    cases error <;> simp only [change, orThere_run]
    simp only [StateT.bind, ExceptT.bindCont, bind]
    match (FileSystem.makeWithParents parents : ExceptT IoError (StateM FileTree) Unit) tree with
    | (.error _, _) => rfl
    | (.ok (), made) =>
      simp only [StateT.bind, bind]
      cases made.makeDirectory path with
      | ok whole => rfl
      | error error => simp only [orThere_run]

end FileTree

end SchemaScaffold
