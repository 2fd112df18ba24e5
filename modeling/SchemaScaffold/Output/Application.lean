/-!
# The application module

A service needs one more module than is generated from its schema: the
one that starts it. It loads the schema from the file beside it and ties
it to the registry of resolvers. Nothing in it depends on what the schema
says, only on the name of the file.
-/

namespace SchemaScaffold.Application

/-- The name of the file of the module. -/
def fileName : String := "app.py"

/-- The lines of the module for a schema in the given file. -/
def lines (schemaFile : String) : List String :=
  ["from pathlib import Path",
    "",
    "from ariadne import load_schema_from_path",
    "from ariadne import make_executable_schema",
    "from ariadne.asgi import GraphQL",
    "",
    "from .resolvers import resolvers",
    "",
    "type_defs = load_schema_from_path(Path(__file__).parent / \"" ++ schemaFile ++ "\")",
    "",
    "schema = make_executable_schema(type_defs, resolvers)",
    "app = GraphQL(schema, debug=True)"]

/-- **The text of the module** for a schema in the given file. -/
def text (schemaFile : String) : String := "\n".intercalate (lines schemaFile) ++ "\n"

end SchemaScaffold.Application
