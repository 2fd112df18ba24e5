import SchemaScaffold.Block
import SchemaScaffold.Table

/-!
# Modules

A module's text is its blocks, lightest first, under a header of imports.
The header is a set and not a list: it has one line for each module that
something is imported from, with the names from it in ascending order, so
neither the order of the blocks nor how often they name a type can be
seen in it. Modules with a name that starts with a point are given
relative to the module itself, and their lines come last.

The header is kept as what its lines say (`ImportHeader`): two tables
from modules to sets of names.
-/

namespace SchemaScaffold

/-- The names imported from each module: a table of sets. -/
abbrev ImportTable : Type := Table (Table Unit)

namespace ImportTable

/-- Adds a name to those imported from a module. -/
def add (table : ImportTable) (i : Import) : ImportTable :=
  table.insert i.module (((table.get? i.module).getD .empty).insert i.name ())

/-- A line for each module. -/
def lines (table : ImportTable) : List String :=
  table.rows.map fun row => "from " ++ row.fst ++ " import " ++ ", ".intercalate row.snd.keys

end ImportTable

/-- Whether a module is given relative to the one that imports it. -/
def isRelative (module : String) : Bool := module.toList.head? == some '.'

/-- **The header of a module**: what it imports. -/
structure ImportHeader where
  /-- What is imported from modules given by their full name. -/
  absolute : ImportTable
  /-- What is imported from modules given relative to this one. -/
  relative : ImportTable

namespace ImportHeader

/-- The header without imports. -/
def empty : ImportHeader := ⟨Table.empty, Table.empty⟩

/-- Adds one import. -/
def add (header : ImportHeader) (i : Import) : ImportHeader :=
  if isRelative i.module then { header with relative := ImportTable.add header.relative i }
  else { header with absolute := ImportTable.add header.absolute i }

/-- The header of the imports of a module, its own names left out. -/
def ofImports (module : String) (imports : List Import) : ImportHeader :=
  (imports.filter fun i => i.module != module).foldl add empty

/-- The lines of a header. -/
def lines (header : ImportHeader) : List String :=
  ImportTable.lines header.absolute ++ ImportTable.lines header.relative

end ImportHeader

namespace Module

/-- The blocks of a module in their order: lighter ones first, blocks of
one weight as given. -/
def sorted (blocks : List Block) : List Block :=
  blocks.mergeSort fun a b => a.weight ≤ b.weight

/-- The imports of the blocks of a module. -/
def imports (blocks : List Block) : List Import := blocks.flatMap Block.imports

/-- The header of a module with the given blocks. -/
def header (module : String) (blocks : List Block) : ImportHeader :=
  .ofImports module (imports blocks)

/-- The sections of a module: the header, unless it is empty, and the
blocks. -/
def sections (module : String) (blocks : List Block) : List String :=
  let bodies := (sorted blocks).map Block.body
  match (header module blocks).lines with
  | [] => bodies
  | lines => "\n".intercalate lines :: bodies

/-- What stands between two sections: the end of a line and two blank
ones. -/
def separator : String := "\n\n\n"

/-- **The text of a module.** Without a section it is empty. -/
def text (module : String) (blocks : List Block) : String :=
  match sections module blocks with
  | [] => ""
  | sections => separator.intercalate sections ++ "\n"

/-- **The names that blocks of a module use as its own**, with the
module. -/
def ownNames (module : String) (blocks : List Block) : List (String × String) :=
  ((imports blocks).filter fun i => i.module == module).map fun i => (i.name, i.module)

end Module

end SchemaScaffold
