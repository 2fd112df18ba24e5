import SchemaScaffold.Sdl.Statement

/-!
# The grammar of schema texts

One reader for each construct of a schema text, from the parts of fields
up to the sequence of clauses that a text is (`Sdl.clauses`). Two habits
of the grammar are visible in how the readers are put together.

An alternative is taken as soon as it applies, and what follows cannot
undo that. So an extension that may end after the interfaces it adds is
read with the longer form first, and the shorter one stands in for the
whole of it.

A description may stand in front of a declaration and of most of its
parts. It is read where it may stand, and nothing is kept of it.
-/

namespace SchemaScaffold.Sdl

/-- A description, if there is one. -/
def description : Reader Unit := .withDefault () (quoted *> pure ())

/-- What stands between an opening and a closing mark. -/
def between {α : Type} (opening closing : Char) (p : Reader α) : Reader α :=
  mark opening *> p <* mark closing

/-- What stands between braces. -/
def braced {α : Type} (p : Reader α) : Reader α := between '\x7b' '\x7d' p

/-- A mark that may be left out. -/
def optionalMark (c : Char) : Reader Unit := .withDefault () (mark c)

/-! ## Directives as they are applied -/

/-- One applied directive. -/
def appliedDirective : Reader Applied := do
  mark '@'
  let directiveName ← name
  let arguments ← .withDefault [] (between '(' ')' (Reader.many1 (Literal.field Literal.read)))
  return { name := directiveName, arguments }

/-- **One or more applied directives.** -/
def directives : Reader (List Applied) := Reader.many1 appliedDirective

/-- Any number of applied directives. -/
def anyDirectives : Reader (List Applied) := .withDefault [] directives

/-! ## Parts of declarations -/

/-- An argument or an input field. -/
def inputClause : Reader InputClause := do
  description
  let inputName ← name
  mark ':'
  let type ← typeRef
  let default? ← optional (mark '=' *> Literal.read)
  let applied ← anyDirectives
  return { name := inputName, type, default?, applied }

/-- The arguments of a field or directive, if there are any. -/
def arguments : Reader (List InputClause) :=
  .withDefault [] (between '(' ')' (Reader.many1 inputClause))

/-- A field. -/
def fieldClause : Reader FieldClause := do
  description
  let fieldName ← name
  let arguments ← arguments
  mark ':'
  let type ← typeRef
  let applied ← anyDirectives
  return { name := fieldName, arguments, type, applied }

/-- A value of an enumeration. -/
def enumClause : Reader EnumClause := do
  description
  let valueName ← enumName
  let applied ← anyDirectives
  return { name := valueName, applied }

/-- The fields of an object or interface. -/
def fields : Reader (List FieldClause) := braced (Reader.many1 fieldClause)

/-- The values of an enumeration. -/
def enumValues : Reader (List EnumClause) := braced (Reader.many1 enumClause)

/-- The fields of an input object. -/
def inputFields : Reader (List InputClause) := braced (Reader.many1 inputClause)

/-- The members of a union. -/
def members : Reader (List String) := do
  mark '='
  optionalMark '|'
  Reader.sepBy1 name (mark '|')

/-- The interfaces a type lists. -/
def implements : Reader (List String) := do
  keyword "implements"
  optionalMark '&'
  Reader.sepBy1 name (mark '&')

/-! ## Statements

What a declaration and an extension of one kind have in common is the
keyword and the name. A declaration may stop there; an extension has to
add something. -/

/-- A part that may be left out of a declaration. -/
def orNone {α : Type} (p : Reader (List α)) : Reader (List α) := .withDefault [] p

/-- **A declaration**: a description, the keyword, the name, and the rest. -/
def declaration (word : String) (rest : String → Reader Statement) : Reader Clause := do
  description
  keyword word
  let declared ← name
  let statement ← rest declared
  return { extends? := false, statement }

/-- **An extension**: the keyword behind the word for extensions, the
name, and the rest. -/
def extension (word : String) (rest : String → Reader Statement) : Reader Clause := do
  keyword "extend"
  keyword word
  let extended ← name
  let statement ← rest extended
  return { extends? := true, statement }

/-- Directives and a body, of which one may be left out. -/
def directivesAndBody {α : Type} (body : Reader (List α)) : Reader (List Applied × List α) :=
  (do return (← anyDirectives, ← body)) <|> (do return (← directives, []))

/-- One root of a schema block. -/
def root : Reader (Operation × String) := do
  let operation ← (keyword "query" *> pure Operation.query)
    <|> (keyword "mutation" *> pure Operation.mutation)
    <|> (keyword "subscription" *> pure Operation.subscription)
  mark ':'
  let type ← name
  return (operation, type)

/-- The roots of a schema block. -/
def roots : Reader (List (Operation × String)) := braced (Reader.many1 root)

/-- A schema block. -/
def schemaClause : Reader Clause :=
  (do
    keyword "schema"
    let applied ← anyDirectives
    let roots ← roots
    return { extends? := false, statement := .schema applied roots })
  <|> (do
    keyword "extend"
    keyword "schema"
    let (applied, roots) ← directivesAndBody roots
    return { extends? := true, statement := .schema applied roots })

/-- A scalar type. -/
def scalarClause : Reader Clause :=
  (declaration "scalar" fun n => .scalar n <$> anyDirectives)
  <|> (extension "scalar" fun n => .scalar n <$> directives)

/-- An object type. -/
def objectClause : Reader Clause :=
  (declaration "type" fun n => do
    let implements ← orNone implements
    let applied ← anyDirectives
    let fields ← orNone fields
    return .object n implements applied fields)
  <|> (extension "type" fun n =>
    (do
      let implements ← orNone implements
      let (applied, fields) ← directivesAndBody fields
      return .object n implements applied fields)
    <|> (do
      let implements ← implements
      return .object n implements [] []))

/-- An interface type. -/
def interfaceClause : Reader Clause :=
  (declaration "interface" fun n => do
    let _ ← orNone implements
    let applied ← anyDirectives
    let fields ← orNone fields
    return .interface n applied fields)
  <|> (extension "interface" fun n => do
    let _ ← orNone implements
    let (applied, fields) ← directivesAndBody fields
    return .interface n applied fields)

/-- A union type. -/
def unionClause : Reader Clause :=
  (declaration "union" fun n => do
    let applied ← anyDirectives
    let members ← orNone members
    return .union n applied members)
  <|> (extension "union" fun n => do
    let (applied, members) ← directivesAndBody members
    return .union n applied members)

/-- An enumeration type. -/
def enumerationClause : Reader Clause :=
  (declaration "enum" fun n => do
    let applied ← anyDirectives
    let values ← orNone enumValues
    return .enumeration n applied values)
  <|> (extension "enum" fun n => do
    let (applied, values) ← directivesAndBody enumValues
    return .enumeration n applied values)

/-- An input object type. -/
def inputObjectClause : Reader Clause :=
  (declaration "input" fun n => do
    let applied ← anyDirectives
    let fields ← orNone inputFields
    return .inputObject n applied fields)
  <|> (extension "input" fun n => do
    let (applied, fields) ← directivesAndBody inputFields
    return .inputObject n applied fields)

/-- The places a directive may be applied at. A place whose word starts
with the word for another one comes first. -/
def places : List String :=
  ["QUERY", "MUTATION", "SUBSCRIPTION", "FIELD_DEFINITION", "FIELD", "FRAGMENT_DEFINITION",
    "FRAGMENT_SPREAD", "INLINE_FRAGMENT", "VARIABLE_DEFINITION", "SCHEMA", "SCALAR", "OBJECT",
    "ARGUMENT_DEFINITION", "INTERFACE", "UNION", "ENUM_VALUE", "ENUM", "INPUT_OBJECT",
    "INPUT_FIELD_DEFINITION"]

/-- One of the places. -/
def place : Reader Unit := (places.map keyword).foldr (· <|> ·) failure

/-- A directive. -/
def directiveClause : Reader Clause := do
  description
  keyword "directive"
  mark '@'
  let directiveName ← name
  let arguments ← arguments
  .withDefault () (keyword "repeatable")
  keyword "on"
  optionalMark '|'
  let _ ← Reader.sepBy1 place (mark '|')
  return { extends? := false, statement := .directive directiveName arguments }

/-- **A clause** of any kind. -/
def clause : Reader Clause :=
  schemaClause <|> scalarClause <|> objectClause <|> interfaceClause <|> unionClause
    <|> enumerationClause <|> inputObjectClause <|> directiveClause

/-- **A whole text**: at least one clause, and nothing behind the last. -/
def clauses : Reader (List Clause) := Reader.many1 clause <* lexeme Reader.atEnd

end SchemaScaffold.Sdl
