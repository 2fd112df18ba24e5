import Mathlib.Data.List.Nodup
import SchemaScaffold.Proofs.ByteOrder
import SchemaScaffold.Proofs.Scope

/-!
# Scopes as values

A scope is what it answers. Entries that come twice, entries that are
overwritten and the order in which names were entered leave no trace in it, and
this is what makes the scopes of two runs comparable. The reason is that its
rows are sorted and no name has two of them, so a scope can be told from its
answers (`Scope.ext`), and its own entries are one way among many to make it.

Order counts for one thing only, and that is which of several entries of one
name comes last. So entries can be added in two portions instead of one, but
the portions may not change places; without a name that comes twice they can be
added in any order (`Scope.widen_perm`).

Scopes are made of scopes all through a run, and none is used up by it. A
sequence of makings (`Scope.makeAll`) only ever puts new ones behind those that
are there.
-/

namespace SchemaScaffold

namespace Table

variable {α : Type}

/-- The first row of a key, among the rows of that key. -/
theorem find?_eq_head? (k : String) (rows : List (String × α)) :
    find? k rows = (rows.filter fun row => row.fst == k).head?.map Prod.snd := by
  induction rows with
  | nil => rfl
  | cons row rows ih =>
    by_cases h : k = row.fst
    · have hrow : (row.fst == k) = true := beq_iff_eq.mpr h.symm
      rw [find?_cons_of_eq h, List.filter_cons, if_pos hrow]
      rfl
    · have hrow : ¬(row.fst == k) = true := fun heq => h (beq_iff_eq.mp heq).symm
      rw [find?_cons_of_ne h, List.filter_cons, if_neg hrow, ih]

/-- Read from the end it is the last row of the key. -/
theorem find?_reverse_eq_getLast? (k : String) (rows : List (String × α)) :
    find? k rows.reverse = (rows.filter fun row => row.fst == k).getLast?.map Prod.snd := by
  rw [find?_eq_head?, List.filter_reverse, List.head?_reverse]

/-- **Entries can be added in any order** if no key comes twice. -/
theorem insertMany_perm (t : Table α) {entries others : List (String × α)}
    (h : entries.Perm others) (hnodup : (entries.map Prod.fst).Nodup) :
    t.insertMany entries = t.insertMany others := by
  refine h.foldl_eq' (fun a ha b hb t => ?_) t
  refine Table.insert_comm t fun hkey => ?_
  rw [List.inj_on_of_nodup_map hnodup ha hb hkey]

end Table

namespace Scope

variable {scope : Scope} {entries others : List (String × String)}

/-! ## One scope -/

/-- **Two portions of entries** are added one after the other as they are at
once. -/
theorem widen_widen (scope : Scope) (entries others : List (String × String)) :
    (scope.widen entries).widen others = scope.widen (entries ++ others) :=
  congrArg mk (Table.insertMany_append scope.modules entries others).symm

/-- **A scope is made again of its own entries.** -/
theorem ofList_entries (scope : Scope) : ofList scope.entries = scope := by
  refine Scope.ext fun name => ?_
  rw [ofList, moduleOf?_widen_entries, moduleOf?_empty, Option.or_none]

theorem widen_perm (scope : Scope) (h : entries.Perm others)
    (hnodup : (entries.map Prod.fst).Nodup) : scope.widen entries = scope.widen others :=
  congrArg mk (Table.insertMany_perm scope.modules h hnodup)

/-- The entries of a scope are the names it provides, with their modules. -/
theorem mem_entries_iff (scope : Scope) (name module : String) :
    (name, module) ∈ scope.entries ↔ scope.moduleOf? name = some module :=
  ⟨fun h => Table.get?_of_mem_rows h, fun h => Table.mem_rows_of_get? h⟩

/-- There is an entry just for the names that the scope contains. -/
theorem mem_map_fst_entries_iff (scope : Scope) (name : String) :
    name ∈ scope.entries.map Prod.fst ↔ scope.contains name = true := by
  rw [contains_eq_true]
  exact Table.mem_keys scope.modules name

/-! ## The scopes of a run -/

/-- **How a scope is made**: of entries, or of a scope there is and of entries
that win over it. -/
inductive Making where
  /-- Of entries alone. -/
  | collected (entries : List (String × String))
  /-- Of the scope at a place. -/
  | widened (place : Nat) (entries : List (String × String))

/-- The scope that is made. Where there is none to be widened it is made of the
entries alone. -/
def Making.result (scopes : List Scope) : Making → Scope
  | collected entries => ofList entries
  | widened place entries => (scopes[place]?.getD empty).widen entries

/-- The scopes there are when one more has been made. -/
def make (scopes : List Scope) (making : Making) : List Scope :=
  scopes ++ [making.result scopes]

/-- **The scopes there are behind a run.** -/
def makeAll (scopes : List Scope) (makings : List Making) : List Scope := makings.foldl make scopes

/-- One making leaves all scopes as they are. -/
theorem prefix_make (scopes : List Scope) (making : Making) : scopes <+: make scopes making :=
  List.prefix_append scopes _

/-- **So does a run.** -/
theorem prefix_makeAll (scopes : List Scope) (makings : List Making) :
    scopes <+: makeAll scopes makings := by
  induction makings generalizing scopes with
  | nil => exact List.prefix_refl scopes
  | cons making makings ih => exact (prefix_make scopes making).trans (ih (make scopes making))

/-- **Later entries win, and nothing else of their order is left.** Widening a
scope gives a name the module of its last entry, or else the one it had.
Widening twice is widening once with both. It makes a scope of its own, and
neither the one that is widened nor any other of a run is changed by it. The
entries of a scope are sorted by the bytes of their names, one for each name
that the scope contains, and make the same scope again. Scopes are equal just
if they give every name the same module, so entries without a name that comes
twice can be added in any order. -/
theorem later_entries_win (scope : Scope) (entries : List (String × String)) :
    (∀ name, (scope.widen entries).moduleOf? name
      = ((entries.filter fun entry => entry.fst == name).getLast?.map Prod.snd).or
          (scope.moduleOf? name)) ∧
    (∀ others, (scope.widen entries).widen others = scope.widen (entries ++ others)) ∧
    (∀ (scopes : List Scope) (place : Nat), scopes[place]? = some scope →
      make scopes (.widened place entries) = scopes ++ [scope.widen entries] ∧
      ∀ makings, scopes ++ [scope.widen entries]
        <+: makeAll scopes (.widened place entries :: makings)) ∧
    (scope.entries.Pairwise (fun a b => bytes a.fst < bytes b.fst) ∧
      (scope.entries.map Prod.fst).Nodup ∧
      (∀ name, name ∈ scope.entries.map Prod.fst ↔ scope.contains name = true) ∧
      (∀ name module, (name, module) ∈ scope.entries ↔ scope.moduleOf? name = some module) ∧
      scope.size = (scope.entries.map Prod.fst).length) ∧
    ofList scope.entries = scope ∧
    (∀ other, scope = other ↔ ∀ name, scope.moduleOf? name = other.moduleOf? name) ∧
    ∀ others, entries.Perm others → (entries.map Prod.fst).Nodup →
      scope.widen entries = scope.widen others := by
  refine ⟨fun name => ?_, widen_widen scope entries, fun scopes place hscope => ?_, ⟨?_,
    Table.nodup_keys scope.modules, mem_map_fst_entries_iff scope, mem_entries_iff scope,
    (List.length_map Prod.fst).symm⟩, ofList_entries scope,
    fun other => ⟨fun h _ => h ▸ rfl, Scope.ext⟩, fun others => widen_perm scope⟩
  · rw [moduleOf?_widen, Table.find?_reverse_eq_getLast?]
  · have hmake : make scopes (.widened place entries) = scopes ++ [scope.widen entries] := by
      rw [make, Making.result, hscope]
      rfl
    exact ⟨hmake, fun makings => hmake ▸ prefix_makeAll _ makings⟩
  · exact scope.modules.ascending.imp bytes_lt_of_lt

/-- **A run with a name that is entered three times.** The scope that the
others are made of stays, the last entry of the name wins, and what is made in
one go or in another order is the same. -/
theorem later_entries_win_thrice :
    let start := ofList [("Person", "models"), ("Color", ".types")]
    let entries := [("Person", "people"), ("Asset", ".types"), ("Person", ".types")]
    start ∈ makeAll [start] [.widened 0 entries] ∧
    start.moduleOf? "Person" = some "models" ∧
    (start.widen entries).moduleOf? "Person" = some ".types" ∧
    (start.widen entries).entries.map Prod.fst = ["Asset", "Color", "Person"] ∧
    ofList [("Color", ".types"), ("Person", "models")] = start := by
  intro start entries
  obtain ⟨hmodule, -, hrun, -, -, -, -⟩ := later_entries_win start entries
  obtain ⟨-, -, -, -, -, -, horder⟩ :=
    later_entries_win empty [("Color", ".types"), ("Person", "models")]
  refine ⟨((hrun [start] 0 rfl).2 []).subset List.mem_cons_self, by decide, ?_, by decide,
    horder _ (List.Perm.swap _ _ _) (by decide)⟩
  exact (hmodule "Person").trans (by decide)

end Scope

end SchemaScaffold
