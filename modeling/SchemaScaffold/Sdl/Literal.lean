import SchemaScaffold.Sdl.Fault
import SchemaScaffold.Sdl.Numeral
import SchemaScaffold.Sdl.Quoted

/-!
# Literals

A **literal** is a constant as it is written. It differs from the value
it denotes in two places: its numbers are numerals, which may be too big
for a value, and its objects may set a field more than once. The value of
a literal (`Literal.value`) keeps the place of the first setting and the
value of the last.
-/

namespace SchemaScaffold.Sdl

/-- **A literal**: a constant as it is written. -/
inductive Literal where
  /-- A number. -/
  | number (numeral : Numeral)
  /-- A quoted text. -/
  | string (value : String)
  /-- One of the two truth values. -/
  | boolean (value : Bool)
  /-- The word `null`. -/
  | null
  /-- A value of an enumeration. -/
  | enumValue (name : String)
  /-- A list. -/
  | list (items : List Literal)
  /-- An object, with every setting of a field. -/
  | object (fields : List (String × Literal))
  deriving Repr, Inhabited

namespace Literal

/-- A field of an object: its name and its literal. -/
def field (literal : Reader Literal) : Reader (String × Literal) := do
  let fieldName ← name
  mark ':'
  let value ← literal
  return (fieldName, value)

/-- **A literal.** The order of the alternatives decides: a word for a
constant is taken before a name that starts with it. -/
def read : Reader Literal := Reader.recursive fun literal =>
  (number <$> Numeral.read)
    <|> (string <$> quoted)
    <|> (keyword "true" *> pure (boolean true))
    <|> (keyword "false" *> pure (boolean false))
    <|> (keyword "null" *> pure null)
    <|> (enumValue <$> enumName)
    <|> (list <$> (mark '[' *> Reader.many literal <* mark ']'))
    <|> (object <$> (mark '\x7b' *> Reader.many (field literal) <* mark '\x7d'))

/-! ## The value of a literal -/

/-- Sets a field: in its place if it is there, else at the end. -/
def setField (fields : List (String × Value)) (name : String) (value : Value) :
    List (String × Value) :=
  if fields.any (·.fst == name) then
    fields.map fun f => if f.fst == name then (name, value) else f
  else fields ++ [(name, value)]

/-- The fields that a sequence of settings leaves. -/
def settle (settings : List (String × Value)) : List (String × Value) :=
  settings.foldl (fun fields s => setField fields s.fst s.snd) []

mutual

/-- **The value a literal denotes**, if every numeral in it has one. -/
def value : Literal → Except Fault Value
  | number numeral => numeral.value?.elim (.error .number) .ok
  | string text => .ok (.string text)
  | boolean truth => .ok (.boolean truth)
  | null => .ok .null
  | enumValue name => .ok (.enumValue name)
  | list items => Value.list <$> values items
  | object fields => (Value.object ∘ settle) <$> settings fields

/-- The values of literals, in order. -/
def values : List Literal → Except Fault (List Value)
  | [] => .ok []
  | item :: items => do
    let v ← value item
    let vs ← values items
    return v :: vs

/-- The values of the settings of an object, in order. -/
def settings : List (String × Literal) → Except Fault (List (String × Value))
  | [] => .ok []
  | (name, item) :: items => do
    let v ← value item
    let vs ← settings items
    return (name, v) :: vs

end

end Literal

end SchemaScaffold.Sdl
