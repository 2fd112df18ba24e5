import SchemaScaffold.Schema.Document
import SchemaScaffold.Sdl.Grammar

/-!
# From a text to a document

Reading a schema goes in three steps, and each looks at the whole text
before the next begins. The text is cut into clauses by the grammar; the
clauses are turned into entries, which is where a number or a schema
block may be at fault; and the entries are put together into a document
(`Document.ofEntries`), one at a time. The last step refuses two things:
an extension, which is not supported, and a second definition of a name.
An extension is refused as such even if its name is taken.
-/

namespace SchemaScaffold

open Sdl (Entry Fault)

/-- **Why a text is not accepted as a schema.** -/
inductive ParseError where
  /-- The text itself is at fault. -/
  | fault (fault : Fault)
  /-- It extends what is declared elsewhere. -/
  | extension (name : String)
  /-- It defines a name for the second time. -/
  | duplicate (kind name : String)
  deriving DecidableEq, Repr, Inhabited

/-- The message for an error. -/
def ParseError.message : ParseError → String
  | fault f => f.message
  | extension name => "extensions are not supported: 'extend " ++ name ++ "'"
  | duplicate kind name => "duplicate " ++ kind ++ " definition: '" ++ name ++ "'"

namespace Document

/-- **Adds one entry** to a document, if it is a definition of a name that
is still free. -/
def addEntry (document : Document) : Entry → Except ParseError Document
  | .extension name => .error (.extension name)
  | .declared definition =>
    if document.conflictsWith definition then
      .error (.duplicate definition.kind (definition.name?.getD ""))
    else .ok (document.add definition)

/-- The document of a sequence of entries. -/
def ofEntries (entries : List Entry) : Except ParseError Document :=
  entries.foldlM addEntry empty

end Document

/-- **The entries of a text**, or what is wrong with it. -/
def Sdl.entries (text : String) : Except Fault (List Entry) :=
  match clauses text.toList with
  | none => .error .grammar
  | some (read, _) => read.mapM Clause.entry

/-- **The document a text declares**, or why it is not accepted. -/
def Document.parse (text : String) : Except ParseError Document :=
  match Sdl.entries text with
  | .error fault => .error (.fault fault)
  | .ok entries => ofEntries entries

end SchemaScaffold
