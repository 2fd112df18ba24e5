import SchemaScaffold.Proofs.ByteOrder

/-!
# Reading bytes with loss

A text comes back from its bytes (`lossy_bytes`), and what comes back as the
same bytes was a text (`bytes_lossy`). This is all that is lost: where no mark
of replacement is put, the bytes are those of what is read
(`Lossy.Reads.eq_flatMap`). The other direction fails. A mark may be in the
text itself, and its bytes are then read as any letter is.

How long malformed pieces are does not matter for this, only that they are not
empty and that what is read is made of pieces that follow one another
(`Lossy.Reads`). Neither does it for the letters: a slash is read only where
one is among the bytes.
-/

namespace SchemaScaffold

namespace Lossy

variable {data rest : List UInt8} {text : List Char} {c : Char}

/-! ## One letter -/

/-- The bytes of a letter are read as this letter, whatever follows them. -/
theorem letter?_append (c : Char) (rest : List UInt8) :
    letter? (String.utf8EncodeChar c ++ rest) = some c := by
  rw [letter?, List.toByteArray_append]
  exact ByteArray.utf8DecodeChar?_utf8EncodeChar_append

theorem exists_of_letter? (h : letter? data = some c) :
    ∃ rest, data = String.utf8EncodeChar c ++ rest := by
  obtain ⟨rest, hrest⟩ := ByteArray.exists_of_utf8DecodeChar?_eq_some h
  have hbytes : rest.data.toList.toByteArray = rest := ByteArray.ext (by simp)
  refine ⟨rest.data.toList, List.toByteArray_inj.mp ?_⟩
  rw [hrest, List.toByteArray_append, hbytes]

/-- The slash is written in one byte. -/
theorem utf8EncodeChar_slash : String.utf8EncodeChar '/' = [0x2f] := by decide

/-! ## All letters -/

/-- **What bytes are read as**: a letter for the bytes of the letter, and a mark
for a piece that is not empty. -/
inductive Reads : List UInt8 → List Char → Prop where
  /-- Nothing is read as nothing. -/
  | nil : Reads [] []
  /-- The bytes of a letter are read as the letter. -/
  | letter (c : Char) {rest : List UInt8} {text : List Char} (h : Reads rest text) :
      Reads (String.utf8EncodeChar c ++ rest) (c :: text)
  /-- A piece is read as a mark. -/
  | piece {data rest : List UInt8} {text : List Char} (hne : data ≠ []) (h : Reads rest text) :
      Reads (data ++ rest) (replacement :: text)

/-- Bytes are read in this way, behind those that have been read already. -/
theorem reads_drop (skipped : ℕ) (data : List UInt8) :
    Reads (data.drop skipped) (readFrom skipped data) := by
  fun_induction readFrom skipped data with
  | case1 skipped =>
    rw [List.drop_nil]
    exact .nil
  | case2 skipped b rest ih => exact ih
  | case3 first rest c hletter ih =>
    obtain ⟨more, hmore⟩ := exists_of_letter? hletter
    -- the bytes of the letter are the first one and those that are skipped next
    have hdrop : rest.drop (c.utf8Size - 1) = more := by
      have htail := congrArg (List.drop c.utf8Size) hmore
      rw [List.drop_left' (String.length_utf8EncodeChar c)] at htail
      rw [← htail, ← Nat.sub_add_cancel c.utf8Size_pos, List.drop_succ_cons, Nat.add_sub_cancel]
    rw [List.drop_zero, hmore, ← hdrop]
    exact .letter c ih
  | case4 first rest hletter ih =>
    have hpiece : first :: rest
        = (first :: rest.take (strayBytes first rest)) ++ rest.drop (strayBytes first rest) := by
      rw [List.cons_append, List.take_append_drop]
    rw [List.drop_zero, hpiece]
    exact .piece (List.cons_ne_nil _ _) ih

/-- **Bytes are read** as letters and marks. -/
theorem reads (data : List UInt8) : Reads data (readFrom 0 data) := reads_drop 0 data

/-- A slash is read only where one is among the bytes. -/
theorem Reads.slash_mem (h : Reads data text) (hmem : '/' ∈ text) : 0x2f ∈ data := by
  induction h with
  | nil => cases hmem
  | letter c _ ih =>
    obtain rfl | hmem := List.mem_cons.mp hmem
    · rw [utf8EncodeChar_slash]
      exact List.mem_append_left _ List.mem_cons_self
    · exact List.mem_append_right _ (ih hmem)
  | piece _ _ ih =>
    obtain hmark | hmem := List.mem_cons.mp hmem
    · cases hmark
    · exact List.mem_append_right _ (ih hmem)

/-- **Without a mark nothing is lost.** -/
theorem Reads.eq_flatMap (h : Reads data text) (hmark : replacement ∉ text) :
    data = text.flatMap String.utf8EncodeChar := by
  induction h with
  | nil => rfl
  | letter c _ ih => rw [List.flatMap_cons, ← ih fun hmem => hmark (List.mem_cons_of_mem c hmem)]
  | piece _ _ _ => exact absurd List.mem_cons_self hmark

/-- Bytes that have been read already do not come into it. -/
theorem readFrom_append (front rest : List UInt8) :
    readFrom front.length (front ++ rest) = readFrom 0 rest := by
  induction front with
  | nil => rfl
  | cons b front ih => exact ih

/-- A letter is read off the front. -/
theorem readFrom_letter (c : Char) (rest : List UInt8) :
    readFrom 0 (String.utf8EncodeChar c ++ rest) = c :: readFrom 0 rest := by
  have hletter := letter?_append c rest
  obtain ⟨first, more, hfirst⟩ :=
    List.exists_cons_of_ne_nil (String.utf8EncodeChar_ne_nil (c := c))
  have hlength : c.utf8Size - 1 = more.length := by
    rw [← String.length_utf8EncodeChar, hfirst, List.length_cons, Nat.add_sub_cancel]
  rw [hfirst, List.cons_append] at hletter ⊢
  rw [readFrom, hletter]
  show c :: readFrom (c.utf8Size - 1) (more ++ rest) = c :: readFrom 0 rest
  rw [hlength, readFrom_append]

theorem readFrom_flatMap (text : List Char) :
    readFrom 0 (text.flatMap String.utf8EncodeChar) = text := by
  induction text with
  | nil => rfl
  | cons c text ih => rw [List.flatMap_cons, readFrom_letter, ih]

end Lossy

variable {data : List UInt8}

/-- **A text comes back from its bytes.** -/
theorem lossy_bytes (text : String) : lossy (bytes text) = text := by
  rw [lossy, bytes_eq, Lossy.readFrom_flatMap, String.ofList_toList]

/-- **The same bytes come back just if they are those of a text.** -/
theorem bytes_lossy : bytes (lossy data) = data ↔ data.toByteArray.IsValidUTF8 := by
  constructor
  · intro h
    refine ⟨(lossy data).toList, List.toByteArray_inj.mpr ?_⟩
    rw [← bytes_eq, h]
  · rintro ⟨letters, hletters⟩
    have hdata : data = bytes (String.ofList letters) := by
      rw [bytes_eq, String.toList_ofList]
      exact List.toByteArray_inj.mp hletters
    rw [hdata, lossy_bytes]

end SchemaScaffold
