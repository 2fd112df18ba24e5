import SchemaScaffold.Schema.Definition
import SchemaScaffold.Table

/-!
# Schema documents

A **document** is the sequence of definitions of a schema together with
two indexes into it, one for the types and one for the directives. An
index says at which position a name was last defined, so a lookup reads
one definition and not the sequence.

Documents grow by one definition at a time (`Document.add`), and nothing
stops a name from being defined again: the later definition takes the
name over, the earlier one stays in the sequence. Whoever wants no
duplicates asks `Document.conflictsWith` first.
-/

namespace SchemaScaffold

/-- **A schema document**: the definitions in order, with the position of
the last definition of each type name and of each directive name. -/
structure Document where
  /-- The definitions in order. -/
  definitions : Array Definition
  /-- Where each type name was last defined. -/
  typeIndex : Table Nat
  /-- Where each directive name was last defined. -/
  directiveIndex : Table Nat

namespace Document

/-- The document without definitions. -/
def empty : Document := ⟨#[], .empty, .empty⟩

instance : Inhabited Document := ⟨empty⟩

/-- Enters a name into an index at a position, if there is a name. -/
def enter (index : Table Nat) (name? : Option String) (position : Nat) : Table Nat :=
  match name? with
  | some name => index.insert name position
  | none => index

/-- **Adds a definition** at the end, where it takes its name over. -/
def add (document : Document) (definition : Definition) : Document :=
  let position := document.definitions.size
  { definitions := document.definitions.push definition
    typeIndex := enter document.typeIndex definition.typeName? position
    directiveIndex := enter document.directiveIndex definition.directiveName? position }

/-- The document of the given definitions, in order. -/
def ofList (definitions : List Definition) : Document := definitions.foldl add empty

/-- The definition at the position an index has for a name. -/
def at? (document : Document) (index : Table Nat) (name : String) : Option Definition :=
  (index.get? name).bind fun position => document.definitions[position]?

/-- **The type of the given name**: the definition that declared it last. -/
def type? (document : Document) (name : String) : Option Definition :=
  document.at? document.typeIndex name

/-- The directive of the given name: the one defined last. What is found is
looked at again, and nothing else than a directive is given. -/
def directive? (document : Document) (name : String) : Option Definition :=
  (document.at? document.directiveIndex name).filter fun definition =>
    definition.directiveName?.isSome

/-- Whether a type of the given name is declared. -/
def hasType (document : Document) (name : String) : Bool := document.typeIndex.contains name

/-- Whether a directive of the given name is declared. -/
def hasDirective (document : Document) (name : String) : Bool :=
  document.directiveIndex.contains name

/-- **Whether a definition would take over a name** that the document
already has on its side. -/
def conflictsWith (document : Document) (definition : Definition) : Bool :=
  definition.typeName?.any document.hasType || definition.directiveName?.any document.hasDirective

/-- The names of the declared types, in order and as often as declared. -/
def typeNames (document : Document) : List String :=
  document.definitions.toList.filterMap Definition.typeName?

/-! ## Growth -/

@[simp] theorem definitions_empty : empty.definitions = #[] := rfl

@[simp] theorem definitions_add (document : Document) (definition : Definition) :
    (document.add definition).definitions = document.definitions.push definition := rfl

/-- Adding keeps the definitions of a list in order behind those there. -/
theorem definitions_foldl_add (definitions : List Definition) (document : Document) :
    (definitions.foldl add document).definitions.toList
      = document.definitions.toList ++ definitions := by
  induction definitions generalizing document with
  | nil => simp
  | cons d ds ih => simp [ih]

/-- **The document of a list has the definitions of the list.** -/
@[simp] theorem definitions_ofList (definitions : List Definition) :
    (ofList definitions).definitions.toList = definitions := by
  simp [ofList, definitions_foldl_add]

end Document

end SchemaScaffold
