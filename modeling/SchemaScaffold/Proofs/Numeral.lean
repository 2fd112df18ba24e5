import Mathlib.Algebra.Group.Int.Defs
import Mathlib.Data.List.TakeWhile
import SchemaScaffold.Proofs.Budget
import SchemaScaffold.Proofs.Decimal
import SchemaScaffold.Proofs.ReferenceText

/-!
# Integers from their text to their value

An integer of a schema is spelled in one way only: a minus sign if it is
negative, and its decimal digits, with no zero in front of them
(`Numeral.integerText`). Where the spelling stops is less plain, since a
numeral goes on with a fraction or an exponent, and no letter may follow it.
What may follow an integer is `Numeral.EndsInteger`. It depends on the integer
in one respect: a zero is not continued by a digit, so that `01` is the two
numerals `0` and `1`.

The value of an integer is that integer if it fits 64 bits, else a double.
There is one exception, and it is no number: the spelling `-0` is that of a
negative zero, and no integer is one, but a double is (`Numeral.Denotes`).

A double is read by rounding, so an integer has none as soon as it is rounded
beyond the doubles, and only then. That is from `17976931348623156225 · 10²⁸⁹` on
(`Binary64.ofDecimal?_eq_none_iff`). The greatest finite double is a little above
it, so the integer that this double is has no value, while every integer that is
greater than all doubles has none either.
-/

namespace SchemaScaffold

/-! ## Digits -/

namespace Sdl.Numeral

theorem ofDigits_toDigits (m : Nat) : ofDigits (Nat.toDigits 10 m) = m :=
  Nat.ofDigitChars_toDigits (by decide) (by decide)

/-- The one digit of a number below ten. -/
theorem toDigits_of_isDigit {c : Char} (hc : c.isDigit = true) :
    Nat.toDigits 10 (c.toNat - '0'.toNat) = [c] ∧ c.toNat - '0'.toNat < 10 := by
  have hall : ∀ n < 128, (Char.ofNat n).isDigit = true →
      Nat.toDigits 10 ((Char.ofNat n).toNat - '0'.toNat) = [Char.ofNat n] ∧
        (Char.ofNat n).toNat - '0'.toNat < 10 := by
    decide
  have hname : isNameChar c = true := by simp [isNameChar, Char.isAlphanum, hc]
  obtain ⟨n, hn, rfl⟩ := exists_eq_ofNat (toNat_lt_of_isNameChar hname)
  exact hall n hn hc

/-- The digits of a positive number do not start with a zero. -/
theorem head?_toDigits {m : Nat} (hm : m ≠ 0) : (Nat.toDigits 10 m).head? ≠ some '0' := by
  induction m using Nat.strongRecOn with
  | ind m ih =>
    obtain hlt | hle := Nat.lt_or_ge m 10
    · have hall : ∀ n < 10, n ≠ 0 → [Nat.digitChar n].head? ≠ some '0' := by decide
      rw [Nat.toDigits_of_lt_base hlt]
      exact hall m hlt hm
    · rw [Nat.toDigits_of_base_le (by decide) hle,
        List.head?_append_of_ne_nil _ Nat.toDigits_ne_nil]
      exact ih (m / 10) (by omega) (by omega)

/-- **Digits without a zero in front** are the digits of the number they
spell. By induction from the end, where a digit is the remainder. -/
theorem toDigits_ofDigits {digits : List Char} (hsome : digits ≠ [])
    (hall : ∀ c ∈ digits, c.isDigit = true) (hzero : digits.head? ≠ some '0') :
    Nat.toDigits 10 (ofDigits digits) = digits ∧ ofDigits digits ≠ 0 := by
  induction digits using List.reverseRecOn with
  | nil => exact absurd rfl hsome
  | append_singleton digits c ih =>
    obtain ⟨hlast, hlt⟩ := toDigits_of_isDigit (hall c (by simp))
    have hspelled : ofDigits (digits ++ [c]) = 10 * ofDigits digits + (c.toNat - '0'.toNat) :=
      List.foldl_concat ..
    by_cases hdigits : digits = []
    · subst hdigits
      have hc : c.toNat - '0'.toNat ≠ 0 := by
        intro h
        rw [h] at hlast
        exact hzero (congrArg List.head? hlast.symm)
      have hempty : ofDigits [] = 0 := rfl
      rw [hspelled, hempty, Nat.mul_zero, Nat.zero_add]
      exact ⟨hlast, hc⟩
    · obtain ⟨hfront, hpos⟩ := ih hdigits (fun d hd => hall d (List.mem_append_left _ hd))
        (by rwa [List.head?_append_of_ne_nil _ hdigits] at hzero)
      rw [hspelled, ← Nat.toDigits_append_toDigits (by decide) (Nat.pos_of_ne_zero hpos) hlt,
        hfront, hlast]
      exact ⟨rfl, by omega⟩

end Sdl.Numeral

/-! ## Readers, by what they take off -/

namespace Reader

variable {p : Reader α} {text rest digits : List Char} {accepts : Char → Bool}

/-- Where a reader that may be left out takes nothing off, it does not
apply. -/
theorem optional_eq_none : optional p text = some (none, rest) ↔ p text = none ∧ text = rest := by
  show ((some <$> p) <|> pure none : Reader (Option α)) text = _ ↔ _
  cases hread : p text with
  | none =>
    rw [orElse_of_eq_none (map_of_eq_none hread)]
    exact ⟨fun h => ⟨rfl, congrArg Prod.snd (Option.some.inj h)⟩, fun h => h.2 ▸ rfl⟩
  | some result =>
    rw [orElse_of_eq_some (map_eq_some.mpr ⟨result.1, hread, rfl⟩)]
    constructor
    · intro h
      cases h
    · rintro ⟨h, -⟩
      cases h

theorem char_eq_some {c : Char} : char c text = some ((), rest) ↔ text = c :: rest := by
  cases text with
  | nil => exact ⟨nofun, nofun⟩
  | cons d text =>
    rw [char]
    split
    · next heq => simp [heq]
    · next hne => simp [hne]

theorem char_eq_none {c : Char} : char c text = none ↔ text.head? ≠ some c := by
  cases text with
  | nil => exact ⟨fun _ => nofun, fun _ => rfl⟩
  | cons d text =>
    rw [char]
    split
    · next heq => simp [heq]
    · next hne => simp [hne]

theorem satisfy_eq_none : satisfy accepts text = none ↔ ∀ c ∈ text.head?, accepts c = false := by
  cases text with
  | nil => exact ⟨fun _ => nofun, fun _ => rfl⟩
  | cons c text =>
    rw [satisfy]
    split
    · next h => simp [h]
    · next h => simp [h]

/-- **A run** is what stands in front of the first character of another
class. -/
theorem takeWhile1_eq_some :
    takeWhile1 accepts text = some (digits, rest) ↔
      digits ≠ [] ∧ text = digits ++ rest ∧ (∀ c ∈ digits, accepts c = true) ∧
        ∀ c ∈ rest.head?, accepts c = false := by
  constructor
  · intro h
    obtain ⟨c, others, hfirst, h⟩ := bind_eq_some.mp h
    obtain ⟨more, middle, hmore, h⟩ := bind_eq_some.mp h
    obtain ⟨rfl, rfl⟩ := Prod.mk.inj (Option.some.inj h)
    obtain ⟨rfl, rfl⟩ := Prod.mk.inj (Option.some.inj hmore)
    cases text with
    | nil => cases hfirst
    | cons d text =>
      obtain ⟨hd, heq⟩ := Option.ite_none_right_eq_some.mp hfirst
      obtain ⟨rfl, rfl⟩ := Prod.mk.inj (Option.some.inj heq)
      refine ⟨List.cons_ne_nil _ _, ?_, ?_, ?_⟩
      · rw [List.cons_append, List.takeWhile_append_dropWhile]
      · exact List.forall_mem_cons.mpr ⟨hd, fun c hc => List.mem_takeWhile_imp hc⟩
      · intro c hc
        have hhead := List.head?_dropWhile_not accepts text
        rw [Option.mem_def.mp hc] at hhead
        exact hhead
  · rintro ⟨hsome, rfl, hall, hrest⟩
    obtain ⟨c, more, rfl⟩ := List.exists_cons_of_ne_nil hsome
    obtain ⟨hc, hmore⟩ := List.forall_mem_cons.mp hall
    have hnone : rest.takeWhile accepts = [] ∧ rest.dropWhile accepts = rest := by
      cases rest with
      | nil => exact ⟨rfl, rfl⟩
      | cons d rest => simp [hrest d rfl]
    have hfirst : satisfy accepts (c :: (more ++ rest)) = some (c, more ++ rest) := if_pos hc
    have hmore : Reader.takeWhile accepts (more ++ rest) = some (more, rest) := by
      rw [Reader.takeWhile, List.takeWhile_append_of_pos hmore, List.dropWhile_append_of_pos hmore,
        hnone.1, hnone.2, List.append_nil]
    rw [List.cons_append, takeWhile1, bind_of_eq_some hfirst, bind_of_eq_some hmore]
    rfl

end Reader

/-! ## The text of an integer -/

namespace Sdl.Numeral

open Reader

variable {negative : Bool} {m : Nat} {text rest digits : List Char}

/-- **The text of an integer**: a minus sign if it is negative, and its
digits. -/
def integerText (negative : Bool) (m : Nat) : List Char :=
  (if negative then ['-'] else []) ++ Nat.toDigits 10 m

/-- **Whether an integer ends in front of a text**: what follows is neither a
letter, nor more of its digits, nor a fraction. -/
structure EndsInteger (m : Nat) (rest : List Char) : Prop where
  /-- No letter follows, and so no exponent does. -/
  letter : ∀ c ∈ rest.head?, isNameStart c = false
  /-- No digit follows, unless the integer is zero. -/
  digit : m ≠ 0 → ∀ c ∈ rest.head?, c.isDigit = false
  /-- A point may follow, but no digit behind it. -/
  fraction : ∀ c others, rest = '.' :: c :: others → c.isDigit = false

theorem EndsInteger.cons {c : Char} (hletter : isNameStart c = false) (hdigit : c.isDigit = false)
    (hpoint : c ≠ '.') : EndsInteger m (c :: rest) where
  letter _ hd := Option.mem_some.mp hd ▸ hletter
  digit _ _ hd := Option.mem_some.mp hd ▸ hdigit
  fraction _ _ heq := absurd (List.cons.inj heq).1 hpoint

theorem minus_eq_some :
    minus text = some (negative, rest) ↔
      text = (if negative then ['-'] else []) ++ rest ∧
        (negative = false → rest.head? ≠ some '-') := by
  constructor
  · intro h
    obtain h | ⟨hnone, h⟩ := orElse_eq_some.mp h
    · obtain ⟨_, middle, hread, h⟩ := bind_eq_some.mp h
      obtain ⟨rfl, rfl⟩ := Prod.mk.inj (Option.some.inj h)
      exact ⟨char_eq_some.mp hread, nofun⟩
    · obtain ⟨rfl, rfl⟩ := Prod.mk.inj (Option.some.inj h)
      refine ⟨rfl, fun _ hhead => ?_⟩
      obtain ⟨others, rfl⟩ := List.head?_eq_some_iff.mp hhead
      cases hnone
  · rintro ⟨rfl, hrest⟩
    cases negative with
    | true => rfl
    | false => exact orElse_of_eq_none (bind_of_eq_none (char_eq_none.mpr (hrest rfl)))

/-- **The digits in front of the point** are those of a number, and are not
continued unless that is zero. -/
theorem whole_eq_some :
    whole text = some (digits, rest) ↔
      ∃ m, digits = Nat.toDigits 10 m ∧ text = digits ++ rest ∧
        (m ≠ 0 → ∀ c ∈ rest.head?, c.isDigit = false) := by
  constructor
  · intro h
    obtain h | ⟨hnone, h⟩ := orElse_eq_some.mp h
    · obtain ⟨_, middle, hread, h⟩ := bind_eq_some.mp h
      obtain ⟨rfl, rfl⟩ := Prod.mk.inj (Option.some.inj h)
      exact ⟨0, rfl, char_eq_some.mp hread, fun h => absurd rfl h⟩
    · obtain ⟨hsome, rfl, hall, hrest⟩ := takeWhile1_eq_some.mp h
      have hzero : digits.head? ≠ some '0' := by
        intro hhead
        obtain ⟨others, rfl⟩ := List.head?_eq_some_iff.mp hhead
        cases hnone
      exact ⟨_, (toDigits_ofDigits hsome hall hzero).1.symm, rfl, fun _ => hrest⟩
  · rintro ⟨m, rfl, rfl, hrest⟩
    by_cases hm : m = 0
    · subst hm
      rfl
    · have hzero : (Nat.toDigits 10 m ++ rest).head? ≠ some '0' := by
        rw [List.head?_append_of_ne_nil _ Nat.toDigits_ne_nil]
        exact head?_toDigits hm
      have hdigits : ∀ c ∈ Nat.toDigits 10 m, c.isDigit = true := fun c hc =>
        Nat.isDigit_of_mem_toDigits (by decide) (by decide) hc
      exact (orElse_of_eq_none (bind_of_eq_none (char_eq_none.mpr hzero))).trans
        (takeWhile1_eq_some.mpr ⟨Nat.toDigits_ne_nil, rfl, hdigits, hrest hm⟩)

theorem fraction_eq_none :
    fraction text = none ↔ ∀ c others, text = '.' :: c :: others → c.isDigit = false := by
  constructor
  · rintro h c others rfl
    cases hc : c.isDigit with
    | false => rfl
    | true =>
      have hread : satisfy Char.isDigit (c :: others) = some (c, others) := if_pos hc
      replace h : takeWhile1 Char.isDigit (c :: others) = none := h
      rw [takeWhile1, bind_of_eq_some hread] at h
      cases h
  · intro h
    by_cases hpoint : text.head? = some '.'
    · obtain ⟨others, rfl⟩ := List.head?_eq_some_iff.mp hpoint
      cases others with
      | nil => rfl
      | cons c others =>
        show takeWhile1 Char.isDigit (c :: others) = none
        exact bind_of_eq_none (if_neg (by rw [h c others rfl]; exact Bool.false_ne_true))
    · exact bind_of_eq_none (char_eq_none.mpr hpoint)

/-- An exponent starts with a letter. -/
theorem exponent_eq_none (h : ∀ c ∈ text.head?, isNameStart c = false) : exponent text = none := by
  refine bind_of_eq_none (satisfy_eq_none.mpr fun c hc => ?_)
  have hletter := h c hc
  by_contra hmark
  obtain rfl | rfl : c = 'e' ∨ c = 'E' := by simpa [or_iff_not_imp_left] using hmark
  all_goals cases hletter

theorem absent_letter :
    absent (satisfy isNameStart) text = some ((), rest) ↔
      text = rest ∧ ∀ c ∈ rest.head?, isNameStart c = false := by
  rw [absent_eq_some, satisfy_eq_none]
  constructor
  · rintro ⟨hletter, rfl⟩
    exact ⟨rfl, hletter⟩
  · rintro ⟨rfl, hletter⟩
    exact ⟨hletter, rfl⟩

theorem ofParts_eq_integer {minus : Bool} {fraction? : Option (List Char)}
    {exponent? : Option Int} :
    ofParts minus digits fraction? exponent? = .integer negative m ↔
      fraction? = none ∧ exponent? = none ∧ minus = negative ∧ ofDigits digits = m := by
  rw [ofParts]
  cases fraction? <;> cases exponent? <;> simp

/-- **An integer is read where its text stands**, and where it ends in front of
what follows. -/
theorem bare_eq_integer :
    bare text = some (.integer negative m, rest) ↔
      text = integerText negative m ++ rest ∧ EndsInteger m rest := by
  constructor
  · intro h
    obtain ⟨minus, behindMinus, hminus, h⟩ := bind_eq_some.mp h
    obtain ⟨digits, behindDigits, hwhole, h⟩ := bind_eq_some.mp h
    obtain ⟨fraction?, behindFraction, hfraction, h⟩ := bind_eq_some.mp h
    obtain ⟨exponent?, behindExponent, hexponent, h⟩ := bind_eq_some.mp h
    obtain ⟨_, final, habsent, h⟩ := bind_eq_some.mp h
    obtain ⟨hparts, rfl⟩ := Prod.mk.inj (Option.some.inj h)
    obtain ⟨rfl, rfl, rfl, hm⟩ := ofParts_eq_integer.mp hparts
    obtain ⟨hnofraction, rfl⟩ := optional_eq_none.mp hfraction
    obtain ⟨-, rfl⟩ := optional_eq_none.mp hexponent
    obtain ⟨rfl, hletter⟩ := absent_letter.mp habsent
    obtain ⟨m', rfl, rfl, hdigit⟩ := whole_eq_some.mp hwhole
    obtain ⟨rfl, -⟩ := minus_eq_some.mp hminus
    obtain rfl : m' = m := by rw [← hm, ofDigits_toDigits]
    exact ⟨(List.append_assoc ..).symm, hletter, hdigit, fraction_eq_none.mp hnofraction⟩
  · rintro ⟨rfl, hletter, hdigit, hfraction⟩
    have hminus : minus (integerText negative m ++ rest)
        = some (negative, Nat.toDigits 10 m ++ rest) := by
      refine minus_eq_some.mpr ⟨List.append_assoc .., fun _ hhead => ?_⟩
      rw [List.head?_append_of_ne_nil _ Nat.toDigits_ne_nil] at hhead
      have hdigit := Nat.isDigit_of_mem_toDigits (b := 10) (by decide) (by decide)
        (List.mem_of_mem_head? hhead)
      cases hdigit
    have hwhole := whole_eq_some.mpr ⟨m, rfl, rfl, hdigit⟩
    have hfraction := optional_eq_none.mpr ⟨fraction_eq_none.mpr hfraction, rfl⟩
    have hexponent := optional_eq_none.mpr ⟨exponent_eq_none hletter, rfl⟩
    rw [bare, bind_of_eq_some hminus, bind_of_eq_some hwhole, bind_of_eq_some hfraction,
      bind_of_eq_some hexponent, bind_of_eq_some (absent_letter.mpr ⟨rfl, hletter⟩)]
    exact congrArg (fun numeral => some (numeral, rest))
      (ofParts_eq_integer.mpr ⟨rfl, rfl, rfl, ofDigits_toDigits m⟩)

/-- Nothing is ignored in front of an integer. -/
theorem skipIgnored_integerText :
    skipIgnored false (integerText negative m ++ rest) = integerText negative m ++ rest := by
  have hall : ∀ n < 128, (Char.ofNat n).isDigit = true →
      isIgnored (Char.ofNat n) = false ∧ Char.ofNat n ≠ '#' := by
    decide
  cases negative with
  | true => rfl
  | false =>
    obtain ⟨c, others, hdigits⟩ :=
      List.exists_cons_of_ne_nil (Nat.toDigits_ne_nil (n := m) (b := 10))
    have hc : c.isDigit = true :=
      Nat.isDigit_of_mem_toDigits (by decide) (by decide) (hdigits ▸ List.mem_cons_self)
    have hname : isNameChar c = true := by simp [isNameChar, Char.isAlphanum, hc]
    obtain ⟨n, hn, rfl⟩ := exists_eq_ofNat (toNat_lt_of_isNameChar hname)
    obtain ⟨hignored, hcomment⟩ := hall n hn hc
    show skipIgnored false (Nat.toDigits 10 m ++ rest) = Nat.toDigits 10 m ++ rest
    rw [hdigits, List.cons_append, skipIgnored, if_neg Bool.false_ne_true, if_neg hcomment,
      hignored]
    rfl

/-! ## The value of an integer -/

/-- The integer of a sign and a magnitude. -/
def integerOf (negative : Bool) (m : Nat) : Int := if negative then -m else m

/-- The double that is a negative zero. -/
def negativeZero : Binary64 := ⟨0x8000000000000000⟩

/-- **The value an integer has**, by its sign and its magnitude. -/
inductive Denotes (negative : Bool) (m : Nat) : Value → Prop where
  /-- It fits 64 bits, and is kept as it is. -/
  | int (hlow : -2 ^ 63 ≤ integerOf negative m) (hhigh : integerOf negative m < 2 ^ 63)
      (hzero : ¬(negative = true ∧ m = 0)) : Denotes negative m (.int (integerOf negative m))
  /-- It is written as a negative zero. -/
  | negativeZero (hnegative : negative = true) (hzero : m = 0) :
      Denotes negative m (.float negativeZero)
  /-- It does not fit 64 bits. -/
  | float {double : Binary64}
      (hbeyond : integerOf negative m < -2 ^ 63 ∨ 2 ^ 63 ≤ integerOf negative m)
      (hdouble : (integer negative m).double? = some double) :
      Denotes negative m (.float double)

theorem fits_eq_true {z : Int} : fits z = true ↔ -2 ^ 63 ≤ z ∧ z < 2 ^ 63 := by
  rw [fits, Bool.and_eq_true, decide_eq_true_eq, decide_eq_true_eq]
  rfl

theorem value?_integer_eq :
    (integer negative m).value? =
      if (-2 ^ 63 ≤ integerOf negative m ∧ integerOf negative m < 2 ^ 63) ∧
          ¬(negative = true ∧ m = 0) then
        some (.int (integerOf negative m))
      else (integer negative m).double?.map .float := by
  simp only [← fits_eq_true]
  rfl

theorem double?_negativeZero : (integer true 0).double? = some negativeZero := by
  have hleading : Binary64.leading 0 = (0, 0) := Binary64.leading_of_lt (by decide)
  rw [double?, Binary64.ofDecimal?, hleading]
  decide +kernel

/-- **The value of an integer numeral** is what the integer denotes. -/
theorem value?_integer {value : Value} :
    (integer negative m).value? = some value ↔ Denotes negative m value := by
  rw [value?_integer_eq]
  split
  · next h =>
    constructor
    · intro hvalue
      obtain rfl := Option.some.inj hvalue
      exact .int h.1.1 h.1.2 h.2
    · intro hvalue
      cases hvalue with
      | int => rfl
      | negativeZero hnegative hzero => exact absurd ⟨hnegative, hzero⟩ h.2
      | float hbeyond => omega
  · next h =>
    constructor
    · intro hvalue
      obtain ⟨double, hdouble, rfl⟩ := Option.map_eq_some_iff.mp hvalue
      by_cases hzero : negative = true ∧ m = 0
      · obtain ⟨rfl, rfl⟩ := hzero
        obtain rfl := Option.some.inj (double?_negativeZero.symm.trans hdouble)
        exact .negativeZero rfl rfl
      · have hbeyond : integerOf negative m < -2 ^ 63 ∨ 2 ^ 63 ≤ integerOf negative m := by
          by_contra hfits
          exact h ⟨by omega, hzero⟩
        exact .float hbeyond hdouble
    · intro hvalue
      cases hvalue with
      | int hlow hhigh hzero => exact absurd ⟨⟨hlow, hhigh⟩, hzero⟩ h
      | negativeZero hnegative hzero =>
        subst hnegative hzero
        rw [double?_negativeZero]
        rfl
      | float hbeyond hdouble => rw [hdouble]; rfl

/-- **An integer has no value** just if it is too large to be read. -/
theorem value?_integer_eq_none :
    (integer negative m).value? = none ↔ 17976931348623156225 * 10 ^ 289 ≤ m := by
  rw [value?_integer_eq]
  split
  · next h =>
    have hbound : 2 ^ 63 < 17976931348623156225 * 10 ^ 289 := by decide +kernel
    have hsmall : m ≤ 2 ^ 63 := by
      obtain ⟨⟨hlow, hhigh⟩, -⟩ := h
      cases negative with
      | true =>
        have hlow : -2 ^ 63 ≤ -(m : Int) := hlow
        omega
      | false =>
        have hhigh : (m : Int) < 2 ^ 63 := hhigh
        omega
    exact ⟨nofun, fun hbeyond => absurd (Nat.lt_of_lt_of_le hbound hbeyond) (Nat.not_lt.mpr hsmall)⟩
  · rw [Option.map_eq_none_iff]
    exact Binary64.ofDecimal?_eq_none_iff

end Sdl.Numeral

end SchemaScaffold
