import SchemaScaffold.Number.Decimal
import SchemaScaffold.Schema.Value
import SchemaScaffold.Sdl.Lexeme

/-!
# Numerals

A numeral is read exactly as it stands, and only then given a value. An
**integer** numeral has no point and no exponent; it denotes the integer
it spells if that fits 64 bits, the negative zero excepted, which no
integer is. Every other numeral denotes the double it is read as, and where
that is not finite, nothing (`Numeral.value?`).

No letter may follow a numeral. A numeral that would be one without the
letters behind it is none, but a second numeral may follow at once: `01`
is `0` and `1`.
-/

namespace SchemaScaffold.Sdl

/-- **A numeral**, by what its digits say. -/
inductive Numeral where
  /-- Digits alone, perhaps behind a minus sign. -/
  | integer (negative : Bool) (magnitude : Nat)
  /-- An integer, the digits behind its point and a power of ten, of which the
  last two are not both missing. -/
  | decimal (negative : Bool) (whole : Nat) (fraction : List Char) (exponent : Int)
  deriving DecidableEq, Repr, Inhabited

namespace Numeral

/-- The number that a sequence of decimal digits spells. -/
def ofDigits (digits : List Char) : Nat :=
  digits.foldl (fun n c => 10 * n + (c.toNat - '0'.toNat)) 0

/-- Whether a minus sign is there. -/
def minus : Reader Bool := .withDefault false (Reader.char '-' *> pure true)

/-- The digits in front of the point: a zero, or digits without a leading
zero. -/
def whole : Reader (List Char) :=
  (Reader.char '0' *> pure ['0']) <|> Reader.takeWhile1 Char.isDigit

/-- The digits behind the point. -/
def fraction : Reader (List Char) := Reader.char '.' *> Reader.takeWhile1 Char.isDigit

/-- Whether a sign is there and says minus. -/
def sign : Reader Bool := (Reader.char '+' *> pure false) <|> minus

/-- The power of ten. -/
def exponent : Reader Int := do
  let _ ← Reader.satisfy fun c => c == 'e' || c == 'E'
  let negative ← sign
  let digits ← Reader.takeWhile1 Char.isDigit
  return if negative then -(ofDigits digits : Int) else ofDigits digits

/-- The numeral of its parts. -/
def ofParts (negative : Bool) (whole : List Char) (fraction? : Option (List Char))
    (exponent? : Option Int) : Numeral :=
  if fraction?.isNone ∧ exponent?.isNone then .integer negative (ofDigits whole)
  else .decimal negative (ofDigits whole) (fraction?.getD []) (exponent?.getD 0)

/-- A numeral, without ignored text in front. -/
def bare : Reader Numeral := do
  let negative ← minus
  let digits ← whole
  let fraction? ← optional fraction
  let exponent? ← optional exponent
  Reader.absent (Reader.satisfy isNameStart)
  return ofParts negative digits fraction? exponent?

/-- **A numeral.** -/
def read : Reader Numeral := lexeme bare

/-- Whether an integer fits 64 bits. -/
def fits (value : Int) : Bool := -Int.pow 2 63 ≤ value && value < Int.pow 2 63

/-- The double that a numeral is read as, if it is finite. -/
def double? : Numeral → Option Binary64
  | integer negative magnitude => Binary64.ofDecimal? negative magnitude [] 0
  | decimal negative whole fraction exponent =>
    Binary64.ofDecimal? negative whole fraction exponent

/-- **The value of a numeral**: an integer where the spelling and the size
allow one, else the double it is read as, if that is finite. -/
def value? (numeral : Numeral) : Option Value :=
  match numeral with
  | integer negative magnitude =>
    let value : Int := if negative then -magnitude else magnitude
    if fits value ∧ ¬ (negative ∧ magnitude = 0) then some (.int value)
    else numeral.double?.map .float
  | decimal .. => numeral.double?.map .float

end Numeral

end SchemaScaffold.Sdl
