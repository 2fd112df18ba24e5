import SchemaScaffold.Output.Path

/-!
# File systems

What the program asks of the place it reads from and writes to are four
things: the text of a file, a directory to be made, whether there is one,
and a file to hold a text. A **file system** is whatever can answer these
in some monad, so the program is written once, and runs on the files of a
machine as on a tree of files that is a plain value.

Directories are made one at a time, each inside one that is there.
`createDirectories` makes those that are missing on the way to a path, and
goes by paths in doing so and not by places: it tries the path itself,
its parents if there is nothing to make it in, and then the path once
more. So a path with a point at its end names a directory that must be
there already, because its parent lies one step further up.
-/

namespace SchemaScaffold

/-- **Why a file system refuses.** -/
inductive IoError where
  /-- There is nothing at the path. -/
  | notFound
  /-- There is something at the path already. -/
  | alreadyThere
  /-- A step of the path leads through what is no directory. -/
  | notDirectory
  /-- There is a directory at the path. -/
  | isDirectory
  /-- A name in the path, or the path, is longer than names can be. -/
  | nameTooLong
  /-- The path has a NUL in it, which ends paths. -/
  | nulInPath
  /-- What is in the file is no text. -/
  | notText
  /-- Any other cause, in the words of the system. -/
  | other (text : String)
  deriving DecidableEq, Repr, Inhabited

/-- The text for a refusal, with the number the system has for it. -/
def IoError.text : IoError → String
  | notFound => "No such file or directory (os error 2)"
  | alreadyThere => "File exists (os error 17)"
  | notDirectory => "Not a directory (os error 20)"
  | isDirectory => "Is a directory (os error 21)"
  | nameTooLong => "File name too long (os error 36)"
  | nulInPath => "file name contained an unexpected NUL byte"
  | notText => "stream did not contain valid UTF-8"
  | other text => text

/-- The message for a refusal. -/
def IoError.message (error : IoError) : String := "IO error: " ++ error.text

/-- **A file system** in a monad. -/
class FileSystem (m : Type → Type) where
  /-- The text of a file. -/
  readText : Path → ExceptT IoError m String
  /-- Makes a directory, inside one that is there. -/
  makeDirectory : Path → ExceptT IoError m Unit
  /-- Whether there is a directory at a path. -/
  isDirectory : Path → m Bool
  /-- Makes a file hold a text, and nothing else. -/
  writeText : Path → String → ExceptT IoError m Unit

namespace FileSystem

variable {m : Type → Type} [Monad m] [FileSystem m]

/-- Lets a refusal to make a directory pass if there is one already. -/
def orThere (path : Path) (refusal : IoError) : ExceptT IoError m Unit := do
  unless ← (isDirectory path : m Bool) do throw refusal

/-- Makes the directory of the first path. The others are its parents, made
first if the directory it belongs into is missing. -/
def makeWithParents : List Path → ExceptT IoError m Unit
  | [] => return ()
  | path :: parents =>
    tryCatch (makeDirectory path) fun
      | .notFound => do
        makeWithParents parents
        tryCatch (makeDirectory path) (orThere path)
      | refusal => orThere path refusal

/-- **Sees to it that a directory is there**, and those on the way to it.
A path without a step names a directory that is always there. -/
def createDirectories (path : Path) : ExceptT IoError m Unit := makeWithParents path.withParents

end FileSystem

end SchemaScaffold
