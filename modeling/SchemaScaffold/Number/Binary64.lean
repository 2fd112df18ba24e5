/-!
# Doubles and their arithmetic

A **double** is handled as its 64 bits, and its arithmetic is done on
magnitudes, in exact integers that are rounded once.

Every finite magnitude is a *scaled integer*, `n · 2ᵘ` with `n ≤ 2⁵³` and
`u ≥ -1074`, and its bits are `(u + 1074) · 2⁵² + n` as long as `u` is the
least exponent for which `n` fits. So rounding a positive ratio takes two
steps: find that exponent (`Binary64.scaleOf`), and divide to the nearest
integer with a half going to the even neighbour (`Binary64.divRound`). A
quotient that rounds up to `2⁵³` needs no care: the bits then name the next
power of two, which is what it stands for.

Magnitudes are not bounded above. One at or beyond `2¹⁰²⁴` is infinite, and
whoever computes it has to look (`Binary64.Magnitude.isInfinite`).
-/

namespace SchemaScaffold

/-- **A double**, as its sign, exponent and fraction bits. -/
structure Binary64 where
  /-- The 64 bits, the sign first. -/
  bits : UInt64
  deriving DecidableEq, Repr, Inhabited

namespace Binary64

/-! ## Rounding -/

/-- The nearest integer to `num / den`, a half going to the even
neighbour. -/
def divRound (num den : Nat) : Nat :=
  let quotient := num / den
  let twice := 2 * (num % den)
  if twice < den then quotient
  else if den < twice then quotient + 1
  else quotient + quotient % 2

/-- The ratio `num / den` divided by `2ᵘ`, as a ratio again. -/
def unscale (num den : Nat) (u : Int) : Nat × Nat :=
  (num * Nat.pow 2 (-u).toNat, den * Nat.pow 2 u.toNat)

/-- **The exponent of the scale** on which a positive ratio has 53 binary
digits before the point, but no finer than that of the least double. -/
def scaleOf (num den : Nat) : Int :=
  let estimate : Int := (Nat.log2 num : Int) - (Nat.log2 den : Int)
  let scaled := unscale num den estimate
  let magnitude := if scaled.fst < scaled.snd then estimate - 1 else estimate
  max (magnitude - 52) (-1074)

/-- The bits of infinity, the first that are no finite magnitude. -/
def infinityBits : Nat := 2047 * Nat.pow 2 52

/-- **A magnitude**, the number `digits · 2^exponent`. -/
structure Magnitude where
  /-- The binary digits, at most 53 of them or the next power of two. -/
  digits : Nat
  /-- The exponent of the last digit. -/
  exponent : Int
  deriving DecidableEq, Repr, Inhabited

namespace Magnitude

/-- Zero. -/
def zero : Magnitude := ⟨0, -1074⟩

/-- **The magnitude nearest to a ratio**, without bound above. -/
def nearest (num den : Nat) : Magnitude :=
  if num = 0 then zero
  else
    let u := scaleOf num den
    let scaled := unscale num den u
    ⟨divRound scaled.fst scaled.snd, u⟩

/-- The bits of a magnitude. -/
def bits (f : Magnitude) : Nat := (f.exponent + 1074).toNat * Nat.pow 2 52 + f.digits

/-- Whether a magnitude is beyond the finite ones. -/
def isInfinite (f : Magnitude) : Bool := infinityBits ≤ f.bits

/-- The product of two magnitudes, rounded. -/
def times (f g : Magnitude) : Magnitude :=
  let product := unscale (f.digits * g.digits) 1 (-(f.exponent + g.exponent))
  nearest product.fst product.snd

/-- The quotient of two magnitudes, rounded. -/
def dividedBy (f g : Magnitude) : Magnitude :=
  let quotient := unscale f.digits g.digits (g.exponent - f.exponent)
  nearest quotient.fst quotient.snd

/-- The magnitude nearest to a power of ten. -/
def tenPow (k : Nat) : Magnitude := nearest (Nat.pow 10 k) 1

end Magnitude

/-- The double of a sign and a magnitude. -/
def ofMagnitude (negative : Bool) (f : Magnitude) : Binary64 :=
  ⟨UInt64.ofNat (if negative then Nat.pow 2 63 + f.bits else f.bits)⟩

end Binary64

end SchemaScaffold
