import Mathlib.Data.List.Basic
import SchemaScaffold.Table

/-!
# Looking up in rows

A list of rows is read in two ways. As *entries* to be added it is read
from the end, because a later entry wins; as the rows of a table it is
read from the front. For the rows of a table the two readings agree, since
no key comes twice (`find?_reverse`), and so a table can be added to
another by its own listing.

Where all entries carry one value the order of reading does not matter
either, and a look-up only asks whether the key is there
(`find?_of_forall_snd`).
-/

namespace SchemaScaffold

namespace Table

variable {α : Type} {row : String × α} {rows : List (String × α)} {value : α} {k : String}

/-- The first row is the row of its key. -/
theorem find?_cons_of_eq (h : k = row.fst) : find? k (row :: rows) = some row.snd := if_pos h

/-- The first row says nothing of other keys. -/
theorem find?_cons_of_ne (h : k ≠ row.fst) : find? k (row :: rows) = find? k rows := if_neg h

/-- **Rows in ascending order can be read from either end.** -/
theorem find?_reverse (h : rows.Pairwise (fun a b => a.fst < b.fst)) (k : String) :
    find? k rows.reverse = find? k rows := by
  induction rows with
  | nil => rfl
  | cons r rs ih =>
    have hr := List.pairwise_cons.mp h
    rw [List.reverse_cons, find?_append, ih hr.2]
    by_cases hk : k = r.fst
    · -- the rows behind have greater keys
      rw [find?_cons_of_eq hk, find?_cons_of_eq hk, hk, find?_eq_none_of_lt hr.1]
      rfl
    · rw [find?_cons_of_ne hk, find?_cons_of_ne hk]
      exact Option.or_none

/-- **Where all rows have one value**, a key has it if it has a row. -/
theorem find?_of_forall_snd (h : ∀ row ∈ rows, row.snd = value) (k : String) :
    find? k rows = if k ∈ rows.map Prod.fst then some value else none := by
  induction rows with
  | nil => rfl
  | cons r rs ih =>
    have hrs : ∀ row ∈ rs, row.snd = value := fun row hrow => h row (List.mem_cons_of_mem r hrow)
    rw [List.map_cons]
    by_cases hk : k = r.fst
    · rw [find?_cons_of_eq hk, if_pos (hk ▸ List.mem_cons_self), h r List.mem_cons_self]
    · rw [find?_cons_of_ne hk, ih hrs]
      simp only [List.mem_cons, hk, false_or]

/-- A key is found just if it has a row. -/
theorem isSome_find? (k : String) (rows : List (String × α)) :
    (find? k rows).isSome = true ↔ k ∈ rows.map Prod.fst := by
  induction rows with
  | nil => simp [find?]
  | cons r rs ih =>
    rw [List.map_cons, List.mem_cons, ← ih]
    by_cases hk : k = r.fst
    · rw [find?_cons_of_eq hk]
      exact ⟨fun _ => .inl hk, fun _ => rfl⟩
    · rw [find?_cons_of_ne hk]
      exact ⟨.inr, fun h => h.resolve_left hk⟩

/-- **Rows can be set in either order**, unless they disagree on a key. -/
theorem insert_comm (t : Table α) {key other : String} {a b : α} (h : key = other → a = b) :
    (t.insert key a).insert other b = (t.insert other b).insert key a := by
  refine Table.ext fun k => ?_
  simp only [get?_insert]
  by_cases hkey : k = key
  · by_cases hother : k = other
    · simp [hkey, h (hkey.symm.trans hother)]
    · simp [hkey, hkey ▸ hother]
  · simp [hkey]

/-- **The keys of a table are the names it has a value for.** -/
theorem mem_keys (t : Table α) (k : String) : k ∈ t.keys ↔ ∃ a, t.get? k = some a := by
  rw [keys, ← isSome_find?, Option.isSome_iff_exists]
  rfl

/-- After setting a key it is one of the keys, beside those there were. -/
theorem mem_keys_insert (t : Table α) (key : String) (value : α) (k : String) :
    k ∈ (t.insert key value).keys ↔ k = key ∨ k ∈ t.keys := by
  rw [mem_keys, mem_keys, get?_insert]
  by_cases h : k = key
  · rw [if_pos h]
    exact ⟨fun _ => .inl h, fun _ => ⟨value, rfl⟩⟩
  · rw [if_neg h]
    exact ⟨.inr, fun hk => hk.resolve_left h⟩

/-- A row of a table holds the value of its key. -/
theorem get?_of_mem_rows {t : Table α} {row : String × α} (h : row ∈ t.rows) :
    t.get? row.fst = some row.snd := by
  have hascending := t.ascending
  unfold get?
  generalize t.rows = rows at h hascending
  induction rows with
  | nil => cases h
  | cons r rs ih =>
    have hr := List.pairwise_cons.mp hascending
    obtain rfl | h := List.mem_cons.mp h
    · exact find?_cons_of_eq rfl
    · have hne : row.fst ≠ r.fst := fun he => String.lt_irrefl r.fst (he ▸ hr.1 row h)
      rw [find?_cons_of_ne hne]
      exact ih h hr.2

/-- The value of a key stands in the row of the key. -/
theorem mem_rows_of_get? {t : Table α} {k : String} (h : t.get? k = some value) :
    (k, value) ∈ t.rows := by
  have hk : k ∈ t.rows.map Prod.fst := (mem_keys t k).mpr ⟨value, h⟩
  obtain ⟨row, hrow, rfl⟩ := List.mem_map.mp hk
  rw [get?_of_mem_rows hrow] at h
  rw [← Option.some.inj h]
  exact hrow

/-- No key of a table comes twice. -/
theorem nodup_keys (t : Table α) : t.keys.Nodup := by
  refine List.pairwise_map.mpr (t.ascending.imp fun {a b} hlt heq => ?_)
  exact String.lt_irrefl b.fst (heq ▸ hlt)

end Table

end SchemaScaffold
