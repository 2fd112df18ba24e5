import SchemaScaffold.Number.Binary64

/-!
# Constant values

An argument or an input field may have a default, written as a constant.
A number is one of two things: an integer that fits 64 bits, kept as the
integer it is, or a double. Objects keep the order of their fields.
-/

namespace SchemaScaffold

/-- **A constant value** of a schema. -/
inductive Value where
  /-- The literal `null`. -/
  | null
  /-- An integer. -/
  | int (value : Int)
  /-- A number that is no 64-bit integer. -/
  | float (value : Binary64)
  /-- A text. -/
  | string (value : String)
  /-- A truth value. -/
  | boolean (value : Bool)
  /-- A value of an enumeration, by its name. -/
  | enumValue (name : String)
  /-- A list of values. -/
  | list (items : List Value)
  /-- An object, its fields in order. -/
  | object (fields : List (String × Value))
  deriving Repr, Inhabited

/-- What a value is called in messages. -/
def Value.kind : Value → String
  | null => "null"
  | int _ => "int"
  | float _ => "float"
  | string _ => "string"
  | boolean _ => "boolean"
  | enumValue _ => "enum"
  | list _ => "list"
  | object _ => "object"

end SchemaScaffold
