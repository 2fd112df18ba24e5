import SchemaScaffold.Module
import SchemaScaffold.Proofs.Table

/-!
# What a header says

A header is made by adding imports one after another to two tables, and
is read as lines. What lies between is a listing: for each module the
names that are imported from it (`ImportHeader.rows`). The listing has a
module at most once (`ImportHeader.nodup_rows`), although the two tables
it is put together from know nothing of each other; it is the spelling of
a module that keeps them apart (`ImportHeader.Divided`).

An import is in the listing just if it was added
(`ImportHeader.lists_ofImports`). The names of the module itself are not,
so the line of a module is all there is to say of it.
-/

namespace SchemaScaffold

variable {i j : Import} {module : String}

/-! ## One table -/

namespace ImportTable

/-- What a table says, as a listing. -/
def listing (table : ImportTable) : List (String × List String) :=
  table.rows.map fun row => (row.fst, row.snd.keys)

/-- **Whether a table has an import.** -/
def Has (table : ImportTable) (i : Import) : Prop :=
  ∃ names, table.get? i.module = some names ∧ i.name ∈ names.keys

/-- **Adding an import adds that one and no other.** -/
theorem has_add (table : ImportTable) (i j : Import) :
    Has (add table j) i ↔ i = j ∨ Has table i := by
  unfold Has add
  rw [Table.get?_insert]
  by_cases hmodule : i.module = j.module
  · -- the row of the module is the one that changes, and in it only the new name
    have heq : i = j ↔ i.name = j.name := by
      refine ⟨congrArg Import.name, fun hname => ?_⟩
      cases i
      cases j
      simp_all
    rw [if_pos hmodule, heq, hmodule]
    constructor
    · rintro ⟨names, hnames, hname⟩
      rw [← Option.some.inj hnames, Table.mem_keys_insert] at hname
      refine hname.imp id fun hold => ?_
      cases hget : table.get? j.module with
      | none =>
        rw [hget] at hold
        cases hold
      | some found =>
        rw [hget] at hold
        exact ⟨found, rfl, hold⟩
    · intro h
      refine ⟨_, rfl, (Table.mem_keys_insert _ _ _ _).mpr (h.imp id ?_)⟩
      rintro ⟨names, hnames, hname⟩
      rw [hnames]
      exact hname
  · have hne : i ≠ j := fun h => hmodule (congrArg Import.module h)
    rw [if_neg hmodule, or_iff_right hne]

/-- The listing says which imports a table has. -/
theorem exists_mem_listing {table : ImportTable} :
    (∃ row ∈ table.listing, row.fst = i.module ∧ i.name ∈ row.snd) ↔ Has table i := by
  constructor
  · rintro ⟨row, hrow, hmodule, hname⟩
    obtain ⟨found, hfound, rfl⟩ := List.mem_map.mp hrow
    exact ⟨found.snd, hmodule ▸ Table.get?_of_mem_rows hfound, hname⟩
  · rintro ⟨names, hnames, hname⟩
    exact ⟨_, List.mem_map.mpr ⟨_, Table.mem_rows_of_get? hnames, rfl⟩, rfl, hname⟩

/-- **Imports can be added in either order**: the names from a module are a
set, and different modules have different rows. -/
theorem add_comm (table : ImportTable) (i j : Import) :
    add (add table i) j = add (add table j) i := by
  unfold add
  by_cases hmodule : i.module = j.module
  · refine Table.ext fun k => ?_
    simp only [hmodule, Table.get?_insert, if_true, Option.getD_some]
    rw [Table.insert_comm _ fun _ => rfl]
    by_cases hk : k = j.module <;> simp [hk]
  · simp only [Table.get?_insert, if_neg hmodule, if_neg (Ne.symm hmodule)]
    exact Table.insert_comm _ fun h => absurd h hmodule

theorem map_fst_listing (table : ImportTable) : table.listing.map Prod.fst = table.keys := by
  rw [listing, List.map_map]
  rfl

end ImportTable

/-! ## Both tables -/

namespace ImportHeader

/-- **What a header says**, as a listing: the modules and the names
imported from each. -/
def rows (header : ImportHeader) : List (String × List String) :=
  header.absolute.listing ++ header.relative.listing

/-- The line for a module and the names imported from it. -/
def line (row : String × List String) : String :=
  "from " ++ row.fst ++ " import " ++ ", ".intercalate row.snd

/-- **The lines of a header are those of its listing.** -/
theorem lines_eq (header : ImportHeader) : header.lines = header.rows.map line := by
  rw [lines, rows, List.map_append]
  unfold ImportTable.lines ImportTable.listing
  rw [List.map_map, List.map_map]
  rfl

/-- **Whether a header lists an import.** -/
def Lists (header : ImportHeader) (i : Import) : Prop :=
  ∃ row ∈ header.rows, row.fst = i.module ∧ i.name ∈ row.snd

instance (header : ImportHeader) (i : Import) : Decidable (header.Lists i) :=
  inferInstanceAs (Decidable (∃ row ∈ header.rows, row.fst = i.module ∧ i.name ∈ row.snd))

theorem lists_iff {header : ImportHeader} :
    header.Lists i ↔ header.absolute.Has i ∨ header.relative.Has i := by
  rw [← ImportTable.exists_mem_listing, ← ImportTable.exists_mem_listing, Lists, rows]
  simp only [List.mem_append, or_and_right, exists_or]

theorem lists_add (header : ImportHeader) (i j : Import) :
    (header.add j).Lists i ↔ i = j ∨ header.Lists i := by
  rw [lists_iff, lists_iff, add]
  split
  · show _ ∨ ImportTable.Has (ImportTable.add header.relative j) i ↔ _
    rw [ImportTable.has_add, or_left_comm]
  · show ImportTable.Has (ImportTable.add header.absolute j) i ∨ _ ↔ _
    rw [ImportTable.has_add, or_assoc]

theorem lists_foldl_add (imports : List Import) (header : ImportHeader) (i : Import) :
    (imports.foldl add header).Lists i ↔ i ∈ imports ∨ header.Lists i := by
  induction imports generalizing header with
  | nil => exact ⟨.inr, fun h => h.resolve_left (List.not_mem_nil)⟩
  | cons j imports ih => rw [List.foldl_cons, ih, lists_add, List.mem_cons, or_left_comm, or_assoc]

/-- **The header of a module lists the imports of the module**, except
those of its own names. -/
theorem lists_ofImports (module : String) (imports : List Import) (i : Import) :
    (ofImports module imports).Lists i ↔ i ∈ imports ∧ i.module ≠ module := by
  have hempty : ¬empty.Lists i := by
    rintro ⟨row, hrow, -⟩
    cases hrow
  rw [ofImports, lists_foldl_add, or_iff_left hempty, List.mem_filter, bne_iff_ne]

/-- **Imports can be added in either order.** -/
theorem add_comm (header : ImportHeader) (i j : Import) :
    (header.add i).add j = (header.add j).add i := by
  unfold add
  by_cases hi : isRelative i.module = true <;> by_cases hj : isRelative j.module = true <;>
    simp [hi, hj, ImportTable.add_comm _ i j]

/-- **The order of the imports cannot be seen** in a header. -/
theorem ofImports_perm {imports others : List Import} (h : imports.Perm others) (module : String) :
    ofImports module imports = ofImports module others :=
  (h.filter _).foldl_eq' (fun i _ j _ header => header.add_comm i j) empty

/-- **The spelling of a module decides** which table it is in. -/
def Divided (header : ImportHeader) : Prop :=
  (∀ module ∈ header.absolute.keys, isRelative module = false) ∧
  ∀ module ∈ header.relative.keys, isRelative module = true

theorem Divided.add {header : ImportHeader} (h : header.Divided) (i : Import) :
    (header.add i).Divided := by
  unfold ImportHeader.add
  split
  · next hrelative =>
    refine ⟨h.1, fun module hmodule => ?_⟩
    obtain rfl | hmodule := (Table.mem_keys_insert _ _ _ module).mp hmodule
    · exact hrelative
    · exact h.2 module hmodule
  · next habsolute =>
    refine ⟨fun module hmodule => ?_, h.2⟩
    obtain rfl | hmodule := (Table.mem_keys_insert _ _ _ module).mp hmodule
    · exact Bool.eq_false_iff.mpr habsolute
    · exact h.1 module hmodule

theorem divided_foldl_add (imports : List Import) {header : ImportHeader} (h : header.Divided) :
    (imports.foldl add header).Divided := by
  induction imports generalizing header with
  | nil => exact h
  | cons i imports ih => exact ih (h.add i)

theorem divided_ofImports (module : String) (imports : List Import) :
    (ofImports module imports).Divided :=
  divided_foldl_add _ ⟨fun _ h => absurd h List.not_mem_nil, fun _ h => absurd h List.not_mem_nil⟩

/-- **A header has one line for each module.** -/
theorem nodup_rows {header : ImportHeader} (h : header.Divided) :
    (header.rows.map Prod.fst).Nodup := by
  rw [rows, List.map_append, ImportTable.map_fst_listing, ImportTable.map_fst_listing]
  refine List.nodup_append.mpr ⟨Table.nodup_keys _, Table.nodup_keys _, ?_⟩
  -- a module in both tables would be spelled in both ways
  rintro module habsolute _ hrelative rfl
  exact Bool.false_ne_true ((h.1 module habsolute).symm.trans (h.2 module hrelative))

theorem mem_map_fst_rows {header : ImportHeader} {owner : String} :
    owner ∈ header.rows.map Prod.fst ↔
      owner ∈ header.absolute.keys ∨ owner ∈ header.relative.keys := by
  rw [rows, List.map_append, ImportTable.map_fst_listing, ImportTable.map_fst_listing,
    List.mem_append]

theorem mem_map_fst_rows_add (header : ImportHeader) (i : Import) (owner : String) :
    owner ∈ (header.add i).rows.map Prod.fst ↔
      owner = i.module ∨ owner ∈ header.rows.map Prod.fst := by
  rw [mem_map_fst_rows, mem_map_fst_rows, add]
  split
  · show _ ∨ owner ∈ (ImportTable.add header.relative i).keys ↔ _
    rw [ImportTable.add, Table.mem_keys_insert, or_left_comm]
  · show owner ∈ (ImportTable.add header.absolute i).keys ∨ _ ↔ _
    rw [ImportTable.add, Table.mem_keys_insert, or_assoc]

theorem mem_map_fst_rows_foldl_add (imports : List Import) (header : ImportHeader)
    (owner : String) : owner ∈ (imports.foldl add header).rows.map Prod.fst ↔
      (∃ i ∈ imports, i.module = owner) ∨ owner ∈ header.rows.map Prod.fst := by
  induction imports generalizing header with
  | nil => simp
  | cons i imports ih =>
    rw [List.foldl_cons, ih, mem_map_fst_rows_add, List.exists_mem_cons_iff, eq_comm (b := owner),
      or_left_comm, or_assoc]

/-- **A header has a line for a module** just if something is imported from
it, and so no line is without names. -/
theorem mem_map_fst_rows_ofImports (module : String) (imports : List Import) (owner : String) :
    owner ∈ (ofImports module imports).rows.map Prod.fst ↔
      owner ≠ module ∧ ∃ i ∈ imports, i.module = owner := by
  have hempty : owner ∉ empty.rows.map Prod.fst := List.not_mem_nil
  rw [ofImports, mem_map_fst_rows_foldl_add, or_iff_left hempty]
  constructor
  · rintro ⟨i, hi, rfl⟩
    obtain ⟨hmem, hne⟩ := List.mem_filter.mp hi
    exact ⟨bne_iff_ne.mp hne, i, hmem, rfl⟩
  · rintro ⟨hne, i, hi, rfl⟩
    exact ⟨i, List.mem_filter.mpr ⟨hi, bne_iff_ne.mpr hne⟩, rfl⟩

end ImportHeader

namespace Module

/-- **The order of the blocks cannot be seen** in the header of a module. -/
theorem header_perm {blocks others : List Block} (h : blocks.Perm others) (module : String) :
    header module blocks = header module others :=
  ImportHeader.ofImports_perm (h.flatMap_right Block.imports) module

/-- **The text of a module opens with the lines of its header.** -/
theorem exists_text_eq (module : String) (blocks : List Block) :
    ∃ rest, text module blocks
      = "\n".intercalate ((header module blocks).rows.map ImportHeader.line) ++ rest := by
  rw [← ImportHeader.lines_eq, text, sections]
  cases (header module blocks).lines with
  | nil => exact ⟨_, String.empty_append.symm⟩
  | cons line lines =>
    dsimp only
    cases (sorted blocks).map Block.body with
    | nil => exact ⟨"\n", by rw [String.intercalate_singleton]⟩
    | cons body bodies =>
      rw [String.intercalate_cons_cons, String.append_assoc, String.append_assoc]
      exact ⟨_, rfl⟩

end Module

end SchemaScaffold
