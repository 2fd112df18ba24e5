import SchemaScaffold.Schema.Definition
import SchemaScaffold.Sdl.Literal

/-!
# Statements

A schema text is a sequence of **statements**. A statement says more than
a definition keeps: directives may be applied almost anywhere, and their
arguments are literals that have to denote values even though nothing
looks at them afterwards. So a statement carries the applied directives,
and its definition (`Statement.definition`) is what is left of it once
all its literals have been given their values.

A statement may also be an extension of what another one declares. An
extension declares nothing of its own, and what it comes to is the name
it extends (`Clause.entry`).
-/

namespace SchemaScaffold.Sdl

/-- **A directive as it is applied**: its name and the arguments given. -/
structure Applied where
  /-- The name of the directive. -/
  name : String
  /-- The arguments given, in order. -/
  arguments : List (String × Literal)
  deriving Repr, Inhabited

/-- An argument or an input field, as it is written. -/
structure InputClause where
  /-- Its name. -/
  name : String
  /-- Its type. -/
  type : TypeRef
  /-- Its default. -/
  default? : Option Literal
  /-- The directives applied to it. -/
  applied : List Applied
  deriving Repr, Inhabited

/-- A field of an object or interface, as it is written. -/
structure FieldClause where
  /-- Its name. -/
  name : String
  /-- Its arguments, in order. -/
  arguments : List InputClause
  /-- Its type. -/
  type : TypeRef
  /-- The directives applied to it. -/
  applied : List Applied
  deriving Repr, Inhabited

/-- A value of an enumeration, as it is written. -/
structure EnumClause where
  /-- Its name. -/
  name : String
  /-- The directives applied to it. -/
  applied : List Applied
  deriving Repr, Inhabited

/-- **A statement** of a schema text. The interfaces that an interface
lists, the places a directive may be applied at, and all descriptions are
read over. -/
inductive Statement where
  /-- A schema block and its roots, in order. -/
  | schema (applied : List Applied) (roots : List (Operation × String))
  /-- A scalar type. -/
  | scalar (name : String) (applied : List Applied)
  /-- An object type. -/
  | object (name : String) (implements : List String) (applied : List Applied)
      (fields : List FieldClause)
  /-- An interface type. -/
  | interface (name : String) (applied : List Applied) (fields : List FieldClause)
  /-- A union type. -/
  | union (name : String) (applied : List Applied) (members : List String)
  /-- An enumeration type. -/
  | enumeration (name : String) (applied : List Applied) (values : List EnumClause)
  /-- An input object type. -/
  | inputObject (name : String) (applied : List Applied) (fields : List InputClause)
  /-- A directive. -/
  | directive (name : String) (arguments : List InputClause)
  deriving Repr, Inhabited

/-- **A clause** of a schema text: a statement, and whether it extends
what is declared elsewhere. -/
structure Clause where
  /-- Whether the statement is an extension. -/
  extends? : Bool
  /-- What is stated. -/
  statement : Statement
  deriving Repr, Inhabited

/-- **What a clause comes to**: a definition, or the name of what it
extends. -/
inductive Entry where
  /-- A definition. -/
  | declared (definition : Definition)
  /-- An extension of the given name. -/
  | extension (name : String)
  deriving Repr, Inhabited

/-! ## Values for the literals -/

/-- Checks that the literals given to directives denote values. -/
def Applied.check (applied : List Applied) : Except Fault Unit :=
  applied.forM fun a => discard (Literal.settings a.arguments)

/-- The input value a clause declares. -/
def InputClause.inputValue (clause : InputClause) : Except Fault InputValue := do
  let default? ← clause.default?.mapM Literal.value
  Applied.check clause.applied
  return { name := clause.name, type := clause.type, default? }

/-- The field a clause declares. -/
def FieldClause.field (clause : FieldClause) : Except Fault Field := do
  let arguments ← clause.arguments.mapM InputClause.inputValue
  Applied.check clause.applied
  return { name := clause.name, arguments, type := clause.type }

/-- The name of the enumeration value a clause declares. -/
def EnumClause.value (clause : EnumClause) : Except Fault String := do
  Applied.check clause.applied
  return clause.name

/-! ## Root types -/

/-- The type a block names for an operation. -/
def root? (block : SchemaBlock) : Operation → Option String
  | .query => block.query?
  | .mutation => block.mutation?
  | .subscription => block.subscription?

/-- A block with the type of an operation named. -/
def setRoot (block : SchemaBlock) (operation : Operation) (name : String) : SchemaBlock :=
  match operation with
  | .query => { block with query? := some name }
  | .mutation => { block with mutation? := some name }
  | .subscription => { block with subscription? := some name }

/-- Names one more root type, unless its operation has one. -/
def addRoot (block : SchemaBlock) (root : Operation × String) : Except Fault SchemaBlock :=
  match root? block root.fst with
  | some _ => .error (.repeatedRoot root.fst)
  | none => .ok (setRoot block root.fst root.snd)

/-- **The block of the roots in order.** Only a block that extends another
may do without a type for queries. -/
def schemaBlock (extending : Bool) (roots : List (Operation × String)) :
    Except Fault SchemaBlock := do
  let block ← roots.foldlM addRoot {}
  if block.query?.isNone ∧ ¬ extending then .error .missingQuery else .ok block

/-! ## Definitions -/

/-- **The definition a statement makes**, once its literals have values. -/
def Statement.definition (extending : Bool) : Statement → Except Fault Definition
  | schema applied roots => do
    Applied.check applied
    let block ← schemaBlock extending roots
    return .schema block
  | scalar name applied => do
    Applied.check applied
    return .scalar { name }
  | object name implements applied fields => do
    Applied.check applied
    let fields ← fields.mapM FieldClause.field
    return .object { name, implements, fields }
  | interface name applied fields => do
    Applied.check applied
    let fields ← fields.mapM FieldClause.field
    return .interface { name, fields }
  | union name applied members => do
    Applied.check applied
    return .union { name, members }
  | enumeration name applied values => do
    Applied.check applied
    let values ← values.mapM EnumClause.value
    return .enumeration { name, values }
  | inputObject name applied fields => do
    Applied.check applied
    let fields ← fields.mapM InputClause.inputValue
    return .inputObject { name, fields }
  | directive name arguments => do
    let arguments ← arguments.mapM InputClause.inputValue
    return .directive { name, arguments }

/-- **The entry of a clause.** A schema block has no name, so what extends
one is called by the word for it. -/
def Clause.entry (clause : Clause) : Except Fault Entry := do
  let definition ← clause.statement.definition clause.extends?
  if clause.extends? then return .extension (definition.name?.getD "schema")
  else return .declared definition

end SchemaScaffold.Sdl
