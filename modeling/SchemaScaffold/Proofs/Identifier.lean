import Mathlib.Data.List.Basic
import SchemaScaffold.Sdl.Lexeme
import SchemaScaffold.Text.SnakeCase

/-!
# Identifiers

The names of a schema and the names of the generated text are spelled by
one rule: a letter or an underscore, and then letters, digits and
underscores, all of them ASCII (`IsIdentifier`). The first are rewritten
into the second, in passes that look at neighbouring letters and put
underscores between them. What matters here is what the passes leave alone.
Neither of them touches the first letter, and neither does anything but add
underscores (`SnakeCase.head?_part`, `SnakeCase.letters_part`). On ASCII the
lower-case form is that of the letters one by one
(`Text.lowercase_of_ascii`).

So the snake case of an identifier is an identifier
(`IsIdentifier.snakeCase`). That of any ASCII name has no capital letters
(`IsAscii.notUpper_of_mem_snakeCase`), and of the name it was made from it
still says everything but the case of the letters and where underscores stood
(`IsAscii.skeleton_eq`).
-/

namespace SchemaScaffold

/-! ## ASCII letters -/

/-- An ASCII character is one of the first 128. -/
theorem exists_eq_ofNat {c : Char} (h : c.toNat < 128) : ∃ n < 128, c = Char.ofNat n :=
  ⟨c.toNat, h, (Char.ofNat_toNat c).symm⟩

namespace Sdl

variable {c : Char}

theorem toNat_lt_of_isNameChar (h : isNameChar c = true) : c.toNat < 128 := by
  have hupper (h : c.isUpper = true) : c.toNat ≤ 'Z'.toNat :=
    UInt32.le_iff_toNat_le.mp (of_decide_eq_true h).2
  have hlower (h : c.isLower = true) : c.toNat ≤ 'z'.toNat :=
    UInt32.le_iff_toNat_le.mp (of_decide_eq_true (Bool.and_eq_true_iff.mp h).2)
  have hdigit (h : c.isDigit = true) : c.toNat ≤ '9'.toNat :=
    UInt32.le_iff_toNat_le.mp (of_decide_eq_true (Bool.and_eq_true_iff.mp h).2)
  have hkind : ((c.isUpper || c.isLower) || c.isDigit || c == '_') = true := h
  simp only [Bool.or_eq_true, beq_iff_eq] at hkind
  obtain ((h | h) | h) | rfl := hkind
  · exact Nat.lt_of_le_of_lt (hupper h) (by decide)
  · exact Nat.lt_of_le_of_lt (hlower h) (by decide)
  · exact Nat.lt_of_le_of_lt (hdigit h) (by decide)
  · decide

/-- A character that a name starts with may stand in it. -/
theorem isNameChar_of_isNameStart (h : isNameStart c = true) : isNameChar c = true := by
  rw [isNameStart, Bool.or_eq_true] at h
  rw [isNameChar, Bool.or_eq_true, Char.isAlphanum, Bool.or_eq_true]
  exact h.imp_left .inl

theorem isNameStart_toLower (h : isNameStart c = true) : isNameStart c.toLower = true := by
  have hall : ∀ n < 128, isNameStart (Char.ofNat n) = true →
      isNameStart (Char.ofNat n).toLower = true := by
    decide
  obtain ⟨n, hn, rfl⟩ :=
    exists_eq_ofNat (toNat_lt_of_isNameChar (isNameChar_of_isNameStart h))
  exact hall n hn h

theorem isNameChar_toLower (h : isNameChar c = true) : isNameChar c.toLower = true := by
  have hall : ∀ n < 128, isNameChar (Char.ofNat n) = true →
      isNameChar (Char.ofNat n).toLower = true := by
    decide
  obtain ⟨n, hn, rfl⟩ := exists_eq_ofNat (toNat_lt_of_isNameChar h)
  exact hall n hn h

end Sdl

/-! ## Lower case -/

/-- **On ASCII the lower-case form is that of the letters one by one.** -/
theorem Text.lowercase_of_ascii {text : List Char} (h : ∀ c ∈ text, c.toNat < 128) :
    Text.lowercase text = text.map Char.toLower := by
  have hfrom (before : List Char) : lowerFrom before text = text.map Char.toLower := by
    induction text generalizing before with
    | nil => rfl
    | cons c text ih =>
      obtain ⟨hc, htext⟩ := List.forall_mem_cons.mp h
      have hsigma : c ≠ 'Σ' := by
        rintro rfl
        exact absurd hc (by decide)
      rw [lowerFrom, if_neg hsigma, lowerChar, if_pos hc, ih htext]
      rfl
  exact hfrom []

/-! ## The two passes -/

namespace SnakeCase

/-- The letters of a text without underscores. -/
def letters (text : List Char) : List Char := text.filter fun c => c != '_'

@[simp] theorem letters_append (xs ys : List Char) :
    letters (xs ++ ys) = letters xs ++ letters ys :=
  List.filter_append xs ys

theorem head?_partWords (text : List Char) : (partWords text).head? = text.head? := by
  unfold partWords
  split
  · split <;> rfl
  · rfl

theorem head?_partCapitals (text : List Char) : (partCapitals text).head? = text.head? := by
  unfold partCapitals
  split
  · split <;> rfl
  · rfl

/-- The first pass adds underscores and nothing else. -/
theorem letters_partWords (text : List Char) : letters (partWords text) = letters text := by
  fun_induction partWords text with
  | case1 c capital rest hword ih =>
    have hrest : letters rest
        = letters (rest.takeWhile Char.isLower) ++ letters (rest.dropWhile Char.isLower) := by
      rw [← letters_append, List.takeWhile_append_dropWhile]
    show letters ([c] ++ ['_'] ++ [capital] ++ rest.takeWhile Char.isLower ++ partWords _)
      = letters ([c] ++ [capital] ++ rest)
    simp only [letters_append, ih, hrest, List.append_assoc]
    rfl
  | case2 c capital rest hword ih =>
    show letters ([c] ++ partWords (capital :: rest)) = letters ([c] ++ (capital :: rest))
    rw [letters_append, letters_append, ih]
  | case3 text hshort => rfl

/-- So does the second. -/
theorem letters_partCapitals (text : List Char) : letters (partCapitals text) = letters text := by
  fun_induction partCapitals text with
  | case1 c capital rest hcapital ih =>
    show letters ([c] ++ ['_'] ++ [capital] ++ partCapitals rest)
      = letters ([c] ++ [capital] ++ rest)
    simp only [letters_append, ih, List.append_assoc]
    rfl
  | case2 c capital rest hcapital ih =>
    show letters ([c] ++ partCapitals (capital :: rest)) = letters ([c] ++ (capital :: rest))
    rw [letters_append, letters_append, ih]
  | case3 text hshort => rfl

/-- Both passes. -/
def part (text : List Char) : List Char := partCapitals (partWords text)

/-- **The passes leave the first letter where it is.** -/
theorem head?_part (text : List Char) : (part text).head? = text.head? := by
  rw [part, head?_partCapitals, head?_partWords]

/-- **The passes add underscores and nothing else.** -/
theorem letters_part (text : List Char) : letters (part text) = letters text := by
  rw [part, letters_partCapitals, letters_partWords]

/-- A character behind the passes is an underscore or was there before. -/
theorem mem_part {text : List Char} {c : Char} (h : c ∈ part text) : c = '_' ∨ c ∈ text := by
  by_cases hc : c = '_'
  · exact .inl hc
  · have hletter : c ∈ letters (part text) := List.mem_filter.mpr ⟨h, bne_iff_ne.mpr hc⟩
    rw [letters_part] at hletter
    exact .inr (List.mem_of_mem_filter hletter)

end SnakeCase

/-! ## Identifiers -/

/-- **Whether a text is an identifier**: an ASCII letter or an underscore,
and then such characters and digits. -/
structure IsIdentifier (text : String) : Prop where
  /-- The first character is a letter or an underscore. -/
  starts : text.toList.head?.any Sdl.isNameStart = true
  /-- Every character is a letter, a digit or an underscore. -/
  consists : ∀ c ∈ text.toList, Sdl.isNameChar c = true

instance (text : String) : Decidable (IsIdentifier text) :=
  decidable_of_iff (text.toList.head?.any Sdl.isNameStart = true ∧
    text.toList.all Sdl.isNameChar = true)
    ⟨fun ⟨h, h'⟩ => ⟨h, List.all_eq_true.mp h'⟩, fun ⟨h, h'⟩ => ⟨h, List.all_eq_true.mpr h'⟩⟩

/-- **An identifier is its first character and others.** -/
theorem IsIdentifier.exists_toList_eq_cons {name : String} (hname : IsIdentifier name) :
    ∃ first others, name.toList = first :: others ∧ Sdl.isNameStart first = true ∧
      ∀ c ∈ others, Sdl.isNameChar c = true := by
  obtain ⟨first, hfirst, hstart⟩ := (Option.any_eq_true _ _).mp hname.starts
  obtain ⟨others, hothers⟩ := List.head?_eq_some_iff.mp hfirst
  exact ⟨first, others, hothers, hstart, fun c hc =>
    hname.consists c (hothers ▸ List.mem_cons_of_mem first hc)⟩

/-- A name without regard to the case of its letters and to underscores. -/
def skeleton (name : String) : String :=
  .ofList ((SnakeCase.letters name.toList).map Char.toLower)

section SnakeCase

variable {name other : String} {c : Char}

/-! ### Snake case of ASCII names -/

/-- **Whether all characters of a text are ASCII.** -/
def IsAscii (text : String) : Prop := ∀ c ∈ text.toList, c.toNat < 128

instance (text : String) : Decidable (IsAscii text) :=
  decidable_of_iff ((text.toList.all fun c => decide (c.toNat < 128)) = true)
    (List.all_eq_true.trans (forall₂_congr fun _ _ => decide_eq_true_iff))

/-- Identifiers are ASCII. -/
theorem IsIdentifier.isAscii (h : IsIdentifier name) : IsAscii name :=
  fun c hc => Sdl.toNat_lt_of_isNameChar (h.consists c hc)

namespace IsAscii

/-- The passes leave ASCII. -/
theorem toNat_lt_of_mem_part (h : IsAscii name) (hc : c ∈ SnakeCase.part name.toList) :
    c.toNat < 128 := by
  obtain rfl | hc := SnakeCase.mem_part hc
  · decide
  · exact h c hc

/-- **The snake case of a name, letter by letter.** -/
theorem toList_snakeCase (h : IsAscii name) :
    (SchemaScaffold.snakeCase name).toList = (SnakeCase.part name.toList).map Char.toLower := by
  rw [SchemaScaffold.snakeCase, String.toList_ofList, SnakeCase.convert, ← SnakeCase.part,
    Text.lowercase_of_ascii fun c hc => h.toNat_lt_of_mem_part hc]

/-- A character of a snake case is the lower-case form of an ASCII one. -/
theorem exists_eq_toLower (h : IsAscii name) (hc : c ∈ (SchemaScaffold.snakeCase name).toList) :
    ∃ n < 128, c = (Char.ofNat n).toLower := by
  rw [h.toList_snakeCase] at hc
  obtain ⟨d, hd, rfl⟩ := List.mem_map.mp hc
  obtain ⟨n, hn, rfl⟩ := exists_eq_ofNat (h.toNat_lt_of_mem_part hd)
  exact ⟨n, hn, rfl⟩

/-- **Snake case has no capital letters.** -/
theorem notUpper_of_mem_snakeCase (h : IsAscii name)
    (hc : c ∈ (SchemaScaffold.snakeCase name).toList) : c.isUpper = false := by
  have hall : ∀ n < 128, (Char.ofNat n).toLower.isUpper = false := by decide
  obtain ⟨n, hn, rfl⟩ := h.exists_eq_toLower hc
  exact hall n hn

/-- The lower-case form of a character is an underscore just if the character
is. -/
theorem toLower_eq_underscore (h : c.toNat < 128) : c.toLower = '_' ↔ c = '_' := by
  have hall : ∀ n < 128, (Char.ofNat n).toLower = '_' ↔ Char.ofNat n = '_' := by decide
  obtain ⟨n, hn, rfl⟩ := exists_eq_ofNat h
  exact hall n hn

/-- Lower case has underscores where they were. -/
theorem letters_map_toLower {text : List Char} (h : ∀ c ∈ text, c.toNat < 128) :
    SnakeCase.letters (text.map Char.toLower) = (SnakeCase.letters text).map Char.toLower := by
  rw [SnakeCase.letters, SnakeCase.letters, List.filter_map]
  refine congrArg _ (List.filter_congr fun c hc => ?_)
  show (c.toLower != '_') = (c != '_')
  rw [Bool.eq_iff_iff, bne_iff_ne, bne_iff_ne]
  exact not_congr (toLower_eq_underscore (h c hc))

/-- **Of a name its snake case keeps the letters**, in lower case. -/
theorem letters_snakeCase (h : IsAscii name) :
    SnakeCase.letters (SchemaScaffold.snakeCase name).toList
      = (SnakeCase.letters name.toList).map Char.toLower := by
  rw [h.toList_snakeCase, letters_map_toLower fun c hc => h.toNat_lt_of_mem_part hc,
    SnakeCase.letters_part]

/-- **Names with the same snake case** differ in the case of their letters and in
underscores only. -/
theorem skeleton_eq (h : IsAscii name) (hother : IsAscii other)
    (heq : SchemaScaffold.snakeCase name = SchemaScaffold.snakeCase other) :
    skeleton name = skeleton other := by
  rw [skeleton, skeleton, ← h.letters_snakeCase, ← hother.letters_snakeCase, heq]

end IsAscii

/-! ### Snake case of identifiers -/

namespace IsIdentifier

/-- Behind the passes there are the characters of an identifier. -/
theorem isNameChar_of_mem_part (h : IsIdentifier name) (hc : c ∈ SnakeCase.part name.toList) :
    Sdl.isNameChar c = true := by
  obtain rfl | hc := SnakeCase.mem_part hc
  · decide
  · exact h.consists c hc

/-- **The snake case of an identifier is an identifier.** -/
theorem snakeCase (h : IsIdentifier name) : IsIdentifier (SchemaScaffold.snakeCase name) := by
  constructor
  · rw [h.isAscii.toList_snakeCase, List.head?_map, SnakeCase.head?_part]
    obtain ⟨first, hfirst, hstart⟩ := (Option.any_eq_true _ _).mp h.starts
    rw [hfirst]
    exact Sdl.isNameStart_toLower hstart
  · rw [h.isAscii.toList_snakeCase]
    refine List.forall_mem_map.mpr fun c hc => ?_
    exact Sdl.isNameChar_toLower (h.isNameChar_of_mem_part hc)

end IsIdentifier

/-- So it is for identifiers. -/
theorem skeleton_eq_of_snakeCase_eq (hname : IsIdentifier name) (hother : IsIdentifier other)
    (h : snakeCase name = snakeCase other) : skeleton name = skeleton other :=
  hname.isAscii.skeleton_eq hother.isAscii h

end SnakeCase

end SchemaScaffold
