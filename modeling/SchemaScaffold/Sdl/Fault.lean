/-!
# What can be wrong with a schema text

A text fails as a whole before anything in it is looked at: if it is not
of the grammar, nothing else is reported. In a text of the grammar two
things can still be wrong with what is written, in the order of the
text – a number that no double can hold, and a schema block that does
not name its root types properly.
-/

namespace SchemaScaffold.Sdl

/-- **The operations** a schema block names root types for. -/
inductive Operation where
  /-- Reading. -/
  | query
  /-- Changing. -/
  | mutation
  /-- Watching. -/
  | subscription
  deriving DecidableEq, Repr, Inhabited

/-- The word for an operation, in schemas and in messages. -/
def Operation.text : Operation → String
  | query => "query"
  | mutation => "mutation"
  | subscription => "subscription"

/-- **A fault of a schema text.** -/
inductive Fault where
  /-- The text is not of the grammar. -/
  | grammar
  /-- A number is beyond the finite doubles. -/
  | number
  /-- A schema block names two types for one operation. -/
  | repeatedRoot (operation : Operation)
  /-- A schema block names no type for queries. -/
  | missingQuery
  deriving DecidableEq, Repr, Inhabited

/-- The message for a fault. The first two stand for a position in the
text, which is not part of the message. -/
def Fault.message : Fault → String
  | grammar => "<grammar>"
  | number => "<number>"
  | repeatedRoot operation => "multiple " ++ operation.text ++ " roots in schema definition"
  | missingQuery => "schema definition is missing query root"

end SchemaScaffold.Sdl
