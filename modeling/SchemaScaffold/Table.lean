/-!
# Tables sorted by key

A schema document, a scope and an import header all answer the same
question: *what goes with this name?* They also list their names in one
order, the order of strings by code point. Both are what a **table** is
for: its rows are kept in strictly ascending order of key, so a key has
at most one row and the rows are the table's own listing.

The order is stored as a proof beside the rows. That makes a table equal
to any other with the same answers (`Table.ext`), however the two were
built: what a table says is all that it is.

`Table.get?_insert` and `Table.get?_insertMany` say what the two ways of
adding do to the answers – the later row of a key replaces the earlier.
-/

namespace SchemaScaffold

/-- **A table from names to values**: its rows, in strictly ascending
order of key. -/
structure Table (α : Type) where
  /-- The rows, each a key and its value. -/
  rows : List (String × α)
  /-- No key comes twice, and the rows are sorted. -/
  ascending : rows.Pairwise (fun a b => a.fst < b.fst)

namespace Table

variable {α : Type}

/-- The table without rows. -/
def empty : Table α := ⟨[], .nil⟩

instance : Inhabited (Table α) := ⟨empty⟩

/-- The value of the first row with the given key. -/
def find? (key : String) : List (String × α) → Option α
  | [] => none
  | row :: rows => if key = row.fst then some row.snd else find? key rows

/-- **The value a key has**, if it has one. -/
def get? (t : Table α) (key : String) : Option α := find? key t.rows

/-- Whether a key has a row. -/
def contains (t : Table α) (key : String) : Bool := (t.get? key).isSome

/-- The keys in ascending order. -/
def keys (t : Table α) : List String := t.rows.map Prod.fst

/-- The number of rows. -/
def size (t : Table α) : Nat := t.rows.length

/-- Whether there are no rows. -/
def isEmpty (t : Table α) : Bool := t.rows.isEmpty

/-! ## Adding rows -/

/-- Sets the row of `key` in sorted rows, at the place its key has. -/
def insertRow (key : String) (value : α) : List (String × α) → List (String × α)
  | [] => [(key, value)]
  | row :: rows =>
    if key < row.fst then (key, value) :: row :: rows
    else if key = row.fst then (key, value) :: rows
    else row :: insertRow key value rows

/-- A row after the insertion is the new one or was there before. -/
theorem mem_insertRow {key : String} {value : α} {rows : List (String × α)}
    {row : String × α} (h : row ∈ insertRow key value rows) :
    row = (key, value) ∨ row ∈ rows := by
  induction rows with
  | nil => simpa [insertRow] using h
  | cons r rs ih =>
    unfold insertRow at h
    split at h
    · simpa using h
    · split at h
      · rcases List.mem_cons.mp h with h | h
        · exact .inl h
        · exact .inr (List.mem_cons_of_mem _ h)
      · rcases List.mem_cons.mp h with h | h
        · exact .inr (h ▸ List.mem_cons_self)
        · exact (ih h).imp id (List.mem_cons_of_mem _)

/-- Sorted rows stay sorted. -/
theorem ascending_insertRow (key : String) (value : α) {rows : List (String × α)}
    (h : rows.Pairwise (fun a b => a.fst < b.fst)) :
    (insertRow key value rows).Pairwise (fun a b => a.fst < b.fst) := by
  induction rows with
  | nil => simp [insertRow]
  | cons r rs ih =>
    have hr := List.pairwise_cons.mp h
    unfold insertRow
    split
    · next hlt =>
      refine List.pairwise_cons.mpr ⟨fun b hb => ?_, h⟩
      rcases List.mem_cons.mp hb with rfl | hb
      · exact hlt
      · exact String.lt_trans hlt (hr.1 b hb)
    · next hnlt =>
      split
      · next heq => exact List.pairwise_cons.mpr ⟨fun b hb => heq ▸ hr.1 b hb, hr.2⟩
      · next hne =>
        refine List.pairwise_cons.mpr ⟨fun b hb => ?_, ih hr.2⟩
        rcases mem_insertRow hb with rfl | hb
        · rcases String.le_total key r.fst with hle | hle
          · exact absurd (String.le_antisymm hle (String.not_lt.mp hnlt)) hne
          · exact String.not_le.mp fun hge => hne (String.le_antisymm hge hle)
        · exact hr.1 b hb

/-- **Sets the value of a key.** -/
def insert (t : Table α) (key : String) (value : α) : Table α :=
  ⟨insertRow key value t.rows, ascending_insertRow key value t.ascending⟩

/-- Sets the values of several keys, one after another. -/
def insertMany (t : Table α) (entries : List (String × α)) : Table α :=
  entries.foldl (fun t e => t.insert e.fst e.snd) t

/-- The table that holds the given entries, a later one replacing an
earlier one of the same key. -/
def ofList (entries : List (String × α)) : Table α := empty.insertMany entries

/-! ## What the additions say -/

@[simp] theorem get?_empty (key : String) : (empty : Table α).get? key = none := rfl

/-- Looking a key up in rows after an insertion. -/
theorem find?_insertRow (key : String) (value : α) (rows : List (String × α)) (k : String) :
    find? k (insertRow key value rows) = if k = key then some value else find? k rows := by
  induction rows with
  | nil => rfl
  | cons r rs ih =>
    unfold insertRow
    split
    · rfl
    · split
      · next heq => by_cases h : k = key <;> simp [find?, h, ← heq]
      · next hne =>
        by_cases h : k = r.fst
        · have hk : r.fst ≠ key := Ne.symm hne
          simp [find?, h, hk]
        · simp [find?, h, ih]

/-- Looking a key up in rows laid end to end. -/
theorem find?_append (k : String) (xs ys : List (String × α)) :
    find? k (xs ++ ys) = (find? k xs).or (find? k ys) := by
  induction xs with
  | nil => rfl
  | cons x xs ih => by_cases h : k = x.fst <;> simp [find?, h, ih]

/-- **After setting a key it has the new value, and the others keep
theirs.** -/
theorem get?_insert (t : Table α) (key : String) (value : α) (k : String) :
    (t.insert key value).get? k = if k = key then some value else t.get? k :=
  find?_insertRow key value t.rows k

@[simp] theorem insertMany_nil (t : Table α) : t.insertMany [] = t := rfl

@[simp] theorem insertMany_cons (t : Table α) (e : String × α) (es : List (String × α)) :
    t.insertMany (e :: es) = (t.insert e.fst e.snd).insertMany es := rfl

theorem insertMany_append (t : Table α) (xs ys : List (String × α)) :
    t.insertMany (xs ++ ys) = (t.insertMany xs).insertMany ys :=
  List.foldl_append

/-- **The last entry of a key decides its value**, and a key without an
entry keeps the one it had. -/
theorem get?_insertMany (t : Table α) (entries : List (String × α)) (k : String) :
    (t.insertMany entries).get? k = (find? k entries.reverse).or (t.get? k) := by
  induction entries generalizing t with
  | nil => rfl
  | cons e es ih =>
    rw [insertMany_cons, ih, get?_insert, List.reverse_cons, find?_append]
    by_cases h : k = e.fst <;> simp [find?, h]

/-! ## A table is what it answers -/

/-- A key below every key of sorted rows has no row there. -/
theorem find?_eq_none_of_lt {rows : List (String × α)} {key : String}
    (h : ∀ row ∈ rows, key < row.fst) : find? key rows = none := by
  induction rows with
  | nil => rfl
  | cons r rs ih =>
    have hne : key ≠ r.fst := fun e =>
      String.lt_irrefl r.fst (by simpa [e] using h r List.mem_cons_self)
    rw [find?, if_neg hne, ih fun row hr => h row (List.mem_cons_of_mem _ hr)]

/-- Sorted rows with the same answers are the same rows. -/
theorem rows_eq_of_find?_eq {xs ys : List (String × α)}
    (hx : xs.Pairwise (fun a b => a.fst < b.fst)) (hy : ys.Pairwise (fun a b => a.fst < b.fst))
    (h : ∀ k, find? k xs = find? k ys) : xs = ys := by
  induction xs generalizing ys with
  | nil =>
    cases ys with
    | nil => rfl
    | cons y ys => simpa [find?] using h y.fst
  | cons x xs ih =>
    have hx' := List.pairwise_cons.mp hx
    cases ys with
    | nil => simpa [find?] using h x.fst
    | cons y ys =>
      have hy' := List.pairwise_cons.mp hy
      have hkey : x.fst = y.fst := by
        apply Classical.byContradiction
        intro hne
        rcases String.le_total x.fst y.fst with hle | hle
        · have hlt : x.fst < y.fst := String.not_le.mp fun hge => hne (String.le_antisymm hle hge)
          have hnone : find? x.fst ys = none :=
            find?_eq_none_of_lt fun row hr => String.lt_trans hlt (hy'.1 row hr)
          simpa [find?, hne, hnone] using h x.fst
        · have hlt : y.fst < x.fst := String.not_le.mp fun hge => hne (String.le_antisymm hge hle)
          have hnone : find? y.fst xs = none :=
            find?_eq_none_of_lt fun row hr => String.lt_trans hlt (hx'.1 row hr)
          simpa [find?, Ne.symm hne, hnone] using h y.fst
      have hvalue : x.snd = y.snd := by simpa [find?, hkey] using h y.fst
      have hrest : xs = ys := by
        refine ih hx'.2 hy'.2 fun k => ?_
        by_cases hk : k = x.fst
        · rw [hk, find?_eq_none_of_lt hx'.1, hkey, find?_eq_none_of_lt hy'.1]
        · have hk' : k ≠ y.fst := hkey ▸ hk
          simpa [find?, hk, hk'] using h k
      rw [hrest, Prod.ext hkey hvalue]

/-- **Tables with the same answers are equal**, however they were built. -/
theorem ext {t u : Table α} (h : ∀ k, t.get? k = u.get? k) : t = u := by
  have hrows := rows_eq_of_find?_eq t.ascending u.ascending h
  cases t
  cases u
  cases hrows
  rfl

instance [DecidableEq α] : DecidableEq (Table α) := fun t u =>
  decidable_of_iff (t.rows = u.rows)
    ⟨fun h => by cases t; cases u; cases h; rfl, fun h => h ▸ rfl⟩

end Table

end SchemaScaffold
