import SchemaScaffold.Number.Binary64

/-!
# Decimals read as doubles

A decimal is read as a double in two steps, neither of which is exact. Its
digits are taken into a **significand** of 64 bits as long as they fit, and
the others are dropped: of those in front of the point only their number is
kept, as a power of ten. Then the double nearest to the significand is
multiplied by the double nearest to that power of ten, or divided by it.

So a decimal is rounded up to three times, and what is read need not be the
double nearest to it. In particular the greatest finite double, written out
as the integer it is, is too large to be read: its first 19 digits times
`10²⁹⁰` round to more than it.

Powers of ten are at hand up to `10³⁰⁸`. A larger one is an error, unless it
multiplies a zero; to divide by a larger one, the significand is divided by
`10³⁰⁸` as often as it takes, or until it is zero.
-/

namespace SchemaScaffold.Binary64

/-- **The leading digits of an integer**, as many as fit 64 bits, and the
number of the others. -/
def leading (m : Nat) : Nat × Nat :=
  if m < Nat.pow 2 64 then (m, 0)
  else
    let (significand, dropped) := leading (m / 10)
    (significand, dropped + 1)
termination_by m
decreasing_by
  have : 0 < Nat.pow 2 64 := Nat.two_pow_pos 64
  omega

/-- **The digits of a fraction taken into a significand**, as long as they
fit 64 bits, and their number. The first one that does not fit ends it. -/
def extend (significand : Nat) : List Char → Nat × Nat
  | [] => (significand, 0)
  | digit :: digits =>
    let next := 10 * significand + (digit.toNat - '0'.toNat)
    if next < Nat.pow 2 64 then
      let (extended, taken) := extend next digits
      (extended, taken + 1)
    else (significand, 0)

namespace Magnitude

/-- A magnitude multiplied by a power of ten, if that is finite. -/
def timesTenPow? (f : Magnitude) (k : Nat) : Option Magnitude :=
  if 308 < k then if f.digits = 0 then some f else none
  else
    let product := f.times (tenPow k)
    if product.isInfinite then none else some product

/-- A magnitude divided by a power of ten. -/
def overTenPow (f : Magnitude) (k : Nat) : Magnitude :=
  if 308 < k then
    if f.digits = 0 then f else (f.dividedBy (tenPow 308)).overTenPow (k - 308)
  else f.dividedBy (tenPow k)
termination_by k
decreasing_by omega

end Magnitude

/-- **The double of a significand and a power of ten**, if it is finite. -/
def ofParts? (negative : Bool) (significand : Nat) (exponent : Int) : Option Binary64 :=
  let f := Magnitude.nearest significand 1
  let scaled :=
    if 0 ≤ exponent then f.timesTenPow? exponent.toNat
    else some (f.overTenPow (-exponent).toNat)
  scaled.map (ofMagnitude negative)

/-- **The double that a decimal is read as**, of the number in front of its
point, the digits behind it and its power of ten. -/
def ofDecimal? (negative : Bool) (whole : Nat) (fraction : List Char) (exponent : Int) :
    Option Binary64 :=
  let (front, dropped) := leading whole
  let (significand, taken) := extend front fraction
  ofParts? negative significand (dropped - taken + exponent)

end SchemaScaffold.Binary64
