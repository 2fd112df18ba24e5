import Mathlib.Data.Char
import Mathlib.Data.List.Basic
import Mathlib.Tactic.NormNum
import SchemaScaffold.Text.Bytes

/-!
# The order of texts is that of their bytes

Names are sorted as texts here, letter by letter. Programs that read a file
of names compare bytes. The two agree because of how letters are written:
a letter with a smaller number is written with smaller bytes, and this is so
also for letters that take a different number of bytes
(`utf8EncodeChar_lt`), since the first byte of a longer one is larger. It is
the reason why the letters need not be compared one by one, and it fails for
other ways of writing them.

A letter is written in digits to base 64 with the most significant one in
front, so two letters are told apart by the first digit they differ in.
-/

namespace SchemaScaffold

/-- The bytes of a text are those of its letters. -/
theorem bytes_eq (text : String) : bytes text = text.toList.flatMap String.utf8EncodeChar := by
  unfold bytes
  conv_lhs => rw [← String.ofList_toList (s := text)]
  rw [String.toUTF8_eq_toByteArray, String.toByteArray_ofList, List.utf8Encode]
  simp

/-! ## One letter -/

/-- Of two numbers in order, either the digits in front are in order, or
those are the same and the next digit decides. -/
theorem digit_lt {m n : Nat} (k : Nat) (h : m / k < n / k) :
    m / (k * 64) < n / (k * 64) ∨ m / (k * 64) = n / (k * 64) ∧ m / k % 64 < n / k % 64 := by
  rw [← Nat.div_div_eq_div_mul, ← Nat.div_div_eq_div_mul]
  omega

/-- The number of a letter has a bound. -/
theorem val_toNat_lt (c : Char) : c.val.toNat < 0x110000 := by
  obtain h | ⟨-, h⟩ := c.valid
  · exact Nat.lt_trans h (by decide)
  · exact h

/-- A number below 256 is the number of its byte. The bound is written as a
numeral, so that it can be discharged by arithmetic. -/
theorem toNat_ofNat_byte {n : Nat} (h : n < 256) : (UInt8.ofNat n).toNat = n :=
  UInt8.toNat_ofNat_of_lt' h

/-- **A smaller letter is written with smaller bytes**, whatever comes
behind it. -/
theorem utf8EncodeChar_lt {c d : Char} (h : c < d) (s t : List UInt8) :
    String.utf8EncodeChar c ++ s < String.utf8EncodeChar d ++ t := by
  have hlt : c.val.toNat < d.val.toNat := h
  have hd := val_toNat_lt d
  unfold String.utf8EncodeChar
  generalize c.val.toNat = m at hlt
  generalize d.val.toNat = n at hlt hd
  have hlast := digit_lt 1 (m := m) (n := n) (by omega)
  have hthird := digit_lt 64 (m := m) (n := n)
  have hsecond := digit_lt 4096 (m := m) (n := n)
  norm_num at hlast hthird hsecond
  -- the first of four digits is at most 4, so that nothing is cut off from it
  have hm : m / 262144 % 8 = m / 262144 := Nat.mod_eq_of_lt (by omega)
  have hn : n / 262144 % 8 = n / 262144 := Nat.mod_eq_of_lt (by omega)
  dsimp only
  -- in each of the sixteen cases the first bytes that differ are the first digits that do
  split_ifs <;>
    simp (disch := omega) only [List.cons_append, List.nil_append, List.cons_lt_cons_iff,
      UInt8.lt_iff_toNat_lt, ← UInt8.toNat_inj, toNat_ofNat_byte] <;>
    omega

/-! ## Whole texts -/

theorem flatMap_utf8EncodeChar_lt {s t : List Char} (h : s < t) :
    s.flatMap String.utf8EncodeChar < t.flatMap String.utf8EncodeChar := by
  induction h with
  | nil =>
    next d t =>
    obtain ⟨first, rest, hfirst⟩ :=
      List.exists_cons_of_ne_nil (String.utf8EncodeChar_ne_nil (c := d))
    rw [List.flatMap_nil, List.flatMap_cons, hfirst, List.cons_append]
    exact List.nil_lt_cons _ _
  | cons _ ih =>
    rw [List.flatMap_cons, List.flatMap_cons]
    exact List.append_left_lt ih
  | rel h =>
    rw [List.flatMap_cons, List.flatMap_cons]
    exact utf8EncodeChar_lt h _ _

theorem bytes_lt_of_lt {a b : String} (h : a < b) : bytes a < bytes b := by
  rw [bytes_eq, bytes_eq]
  exact flatMap_utf8EncodeChar_lt h

/-- **Texts are ordered by their bytes.** -/
theorem bytes_lt_bytes {a b : String} : bytes a < bytes b ↔ a < b := by
  refine ⟨fun h => ?_, bytes_lt_of_lt⟩
  have hle : a ≤ b := String.not_lt.mp fun hba => List.lt_asymm h (bytes_lt_of_lt hba)
  refine String.not_le.mp fun hba => ?_
  obtain rfl : a = b := String.le_antisymm hle hba
  exact List.lt_irrefl _ h

theorem bytes_le_bytes {a b : String} : bytes a ≤ bytes b ↔ a ≤ b := by
  rw [← List.not_lt, ← String.not_lt, bytes_lt_bytes]

end SchemaScaffold
