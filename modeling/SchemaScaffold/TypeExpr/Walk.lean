import SchemaScaffold.TypeExpr.Basic

/-!
# The imports of a type expression, one at a time

A header is put together from imports as they come, so the imports of an
expression need not be listed first. They can be had one by one on a
**walk** over the expression: what has not been visited yet waits on a
stack, a visit takes the expression on top and puts what it is applied to
in its place, and a name that no module has to provide is passed over.

The stack is all that a walk remembers. It gets smaller by a name with
every visit, so the search for the next import comes to an end.
-/

namespace SchemaScaffold

/-- The number of names in an expression. -/
def TypeExpr.size : TypeExpr → Nat
  | bare _ _ => 1
  | optional inner => inner.size + 1
  | sequence inner => inner.size + 1

/-- **A walk over type expressions**: those that have not been visited, the
next one first. -/
structure ImportWalk where
  /-- The stack, its top first. -/
  pending : List TypeExpr

namespace ImportWalk

/-- The walk over one expression. -/
def ofType (type : TypeExpr) : ImportWalk := ⟨[type]⟩

/-- The number of names that are left. -/
def size (walk : ImportWalk) : Nat := walk.pending.foldr (fun type n => type.size + n) 0

/-- The walk behind a visit: what the expression is applied to comes next. -/
def visit (type : TypeExpr) (pending : List TypeExpr) : ImportWalk := ⟨type.children ++ pending⟩

/-- **A visit makes the walk shorter** by the name at the head. -/
theorem size_visit (type : TypeExpr) (pending : List TypeExpr) :
    (visit type pending).size < size ⟨type :: pending⟩ := by
  cases type <;> simp [visit, size, TypeExpr.children, TypeExpr.size]

/-- **The next import** of a walk, and the walk behind it. -/
def next? : ImportWalk → Option (Import × ImportWalk)
  | ⟨[]⟩ => none
  | ⟨type :: pending⟩ =>
    match type.headImport? with
    | some i => some (i, visit type pending)
    | none => (visit type pending).next?
termination_by walk => walk.size
decreasing_by exact size_visit type pending

end ImportWalk

end SchemaScaffold
