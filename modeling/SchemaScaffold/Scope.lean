import SchemaScaffold.Table

/-!
# Scopes

A **scope** says which module provides each name. It is what a type
reference is looked up in, and it grows as the generation goes on: a name
entered again is provided by the module entered last.

A scope never changes in place. Widening gives a new one, and everything
that holds the old one goes on seeing it as it was.
-/

namespace SchemaScaffold

/-- **The modules that provide names.** -/
structure Scope where
  /-- The module of each name. -/
  modules : Table String
  deriving DecidableEq

namespace Scope

/-- The scope without names. -/
def empty : Scope := ⟨.empty⟩

instance : Inhabited Scope := ⟨empty⟩

/-- **The module that provides a name**, if one does. -/
def moduleOf? (scope : Scope) (name : String) : Option String := scope.modules.get? name

/-- Whether a name is provided. -/
def contains (scope : Scope) (name : String) : Bool := scope.modules.contains name

/-- The number of names. -/
def size (scope : Scope) : Nat := scope.modules.size

/-- Whether no name is provided. -/
def isEmpty (scope : Scope) : Bool := scope.modules.isEmpty

/-- The names with their modules, in ascending order of name. -/
def entries (scope : Scope) : List (String × String) := scope.modules.rows

/-- **The scope with more entries**, which win over those there. -/
def widen (scope : Scope) (entries : List (String × String)) : Scope :=
  ⟨scope.modules.insertMany entries⟩

/-- The scope of the given entries, of which later ones win. -/
def ofList (entries : List (String × String)) : Scope := empty.widen entries

@[simp] theorem moduleOf?_empty (name : String) : empty.moduleOf? name = none := rfl

/-- **The last entry of a name decides**, and a name without an entry
keeps its module. -/
theorem moduleOf?_widen (scope : Scope) (entries : List (String × String)) (name : String) :
    (scope.widen entries).moduleOf? name
      = (Table.find? name entries.reverse).or (scope.moduleOf? name) :=
  Table.get?_insertMany scope.modules entries name

/-- Scopes that provide the same names are equal. -/
theorem ext {a b : Scope} (h : ∀ name, a.moduleOf? name = b.moduleOf? name) : a = b := by
  cases a
  cases b
  exact congrArg Scope.mk (Table.ext h)

end Scope

end SchemaScaffold
