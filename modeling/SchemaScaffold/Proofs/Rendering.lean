import Mathlib.Data.List.Nodup
import Mathlib.Data.List.Sort
import SchemaScaffold.Proofs.ByteOrder
import SchemaScaffold.Proofs.Layout

/-!
# The text of a module

A module is put together from blocks that know nothing of each other. Their
bodies are sections of the text, in order of weight; in front of them stands
one section more, with the imports that all of them need together.

What is needed is said here without the tables that the imports are
collected in (`Module.Requires`): a name is required from a module if it is
the head of a type, *at any depth*, that some block uses. The lines are then
given by what they have to satisfy (`Module.IsHeader`), and as many lines as
satisfy it there are not (`Module.IsHeader.unique`). So the section of the
imports is a function of the set of types that are used. Neither the order of
the blocks nor how often they name a type can be seen in it, and nothing need
be known of how it was collected.
-/

namespace SchemaScaffold

namespace Module

variable {module : String} {blocks others : List Block} {owner name : String}

/-! ## What is required -/

/-- **Whether blocks of a module require a name** from an owner, which is
another module: it is the head of a type that one of them uses, or of a type
inside of that. -/
def Requires (module : String) (blocks : List Block) (owner name : String) : Prop :=
  owner ≠ module ∧ ∃ block ∈ blocks, ∃ type ∈ block.usedTypes, ∃ node ∈ type.nodes,
    node.module? = some owner ∧ node.head = name

/-- The imports of a type are the heads of its nodes. -/
theorem mem_imports_iff {type : TypeExpr} {i : Import} : i ∈ type.imports ↔
    ∃ node ∈ type.nodes, node.module? = some i.module ∧ node.head = i.name := by
  rw [TypeExpr.imports_eq_nodes, List.mem_filterMap]
  refine exists_congr fun node => and_congr_right fun _ => ?_
  rw [TypeExpr.headImport?, Option.map_eq_some_iff]
  constructor
  · rintro ⟨owner, howner, rfl⟩
    exact ⟨howner, rfl⟩
  · rintro ⟨howner, hname⟩
    exact ⟨i.module, howner, by rw [hname]⟩

theorem requires_iff : Requires module blocks owner name ↔
    ⟨name, owner⟩ ∈ imports blocks ∧ owner ≠ module := by
  rw [Requires, and_comm]
  refine and_congr_left fun _ => ?_
  simp only [imports, Block.imports, List.mem_flatMap, mem_imports_iff]

/-- What is required depends on which types are used and on nothing else. -/
theorem requires_congr
    (h : ∀ type, (∃ block ∈ others, type ∈ block.usedTypes) ↔
      ∃ block ∈ blocks, type ∈ block.usedTypes) :
    Requires module others owner name ↔ Requires module blocks owner name := by
  have hused (blocks : List Block) : Requires module blocks owner name ↔
      owner ≠ module ∧ ∃ type, (∃ block ∈ blocks, type ∈ block.usedTypes) ∧
        ∃ node ∈ type.nodes, node.module? = some owner ∧ node.head = name := by
    refine and_congr_right fun _ => ?_
    constructor
    · rintro ⟨block, hblock, type, htype, hnode⟩
      exact ⟨type, ⟨block, hblock, htype⟩, hnode⟩
    · rintro ⟨type, ⟨block, hblock, htype⟩, hnode⟩
      exact ⟨block, hblock, type, htype, hnode⟩
  rw [hused, hused]
  simp only [h]

/-! ## The lines of the imports -/

/-- **Which of two owners comes first**: one given by its full name before
one given relative to the module, and by name among those of one kind. -/
def OwnerBefore (a b : String) : Prop :=
  isRelative a = false ∧ isRelative b = true ∨ isRelative a = isRelative b ∧ bytes a < bytes b

theorem OwnerBefore.asymm {a b : String} (hab : OwnerBefore a b) : ¬OwnerBefore b a := by
  rintro (⟨hb, ha⟩ | ⟨hkind, hlt⟩)
  · obtain ⟨ha', -⟩ | ⟨hkind, -⟩ := hab
    · exact Bool.false_ne_true (ha'.symm.trans ha)
    · exact Bool.false_ne_true (hb.symm.trans (hkind.symm.trans ha))
  · obtain ⟨ha', hb'⟩ | ⟨-, hlt'⟩ := hab
    · exact Bool.false_ne_true (ha'.symm.trans (hkind.symm.trans hb'))
    · exact List.lt_asymm hlt hlt'

/-- **What the import section of a module has to say**, as a list of owners
with the names from each. -/
structure IsHeader (module : String) (blocks : List Block) (rows : List (String × List String)) :
    Prop where
  /-- There is a row for each owner that something is required from. -/
  owners : ∀ owner, owner ∈ rows.map Prod.fst ↔ ∃ name, Requires module blocks owner name
  /-- There is one row for an owner. -/
  nodup : (rows.map Prod.fst).Nodup
  /-- The names in a row are those required from its owner. -/
  names : ∀ row ∈ rows, ∀ name, name ∈ row.snd ↔ Requires module blocks row.fst name
  /-- They ascend, so that none comes twice. -/
  ascending : ∀ row ∈ rows, row.snd.Pairwise fun a b => bytes a < bytes b
  /-- The rows are in order of their owners. -/
  ordered : rows.Pairwise fun a b => OwnerBefore a.fst b.fst

theorem isHeader_congr {rows : List (String × List String)}
    (h : ∀ owner name, Requires module others owner name ↔ Requires module blocks owner name)
    (hrows : IsHeader module blocks rows) : IsHeader module others rows where
  owners owner := by simp only [hrows.owners, h]
  nodup := hrows.nodup
  names row hrow name := by rw [hrows.names row hrow, h]
  ascending := hrows.ascending
  ordered := hrows.ordered

/-- **There is one import section**, whatever way it is found. -/
theorem IsHeader.unique {rows rows' : List (String × List String)}
    (h : IsHeader module blocks rows) (h' : IsHeader module blocks rows') : rows = rows' := by
  have : Std.Asymm fun a b : String => bytes a < bytes b := ⟨fun _ _ => List.lt_asymm⟩
  have : Std.Asymm fun a b : String × List String => OwnerBefore a.fst b.fst :=
    ⟨fun _ _ => OwnerBefore.asymm⟩
  -- a row is told by its owner: its names are the required ones, in order
  have hsub {rows rows' : List (String × List String)} (h : IsHeader module blocks rows)
      (h' : IsHeader module blocks rows') : ∀ row ∈ rows, row ∈ rows' := by
    intro row hrow
    have howner : row.fst ∈ rows'.map Prod.fst :=
      (h'.owners row.fst).mpr ((h.owners row.fst).mp (List.mem_map_of_mem hrow))
    obtain ⟨row', hrow', hfst⟩ := List.mem_map.mp howner
    have hsnd : row'.snd = row.snd := by
      refine (h'.ascending row' hrow').eq_of_mem_iff (h.ascending row hrow) fun name => ?_
      rw [h'.names row' hrow', h.names row hrow, hfst]
    have hrow'eq : row' = row := Prod.ext hfst hsnd
    rwa [← hrow'eq]
  exact h.ordered.eq_of_mem_iff h'.ordered fun row => ⟨hsub h h' row, hsub h' h row⟩

/-- The rows of one table of a header are in order. -/
theorem pairwise_listing (table : ImportTable) :
    table.listing.Pairwise fun a b => bytes a.fst < bytes b.fst :=
  List.pairwise_map.mpr (table.ascending.imp bytes_lt_bytes.mpr)

theorem mem_keys_of_mem_listing {table : ImportTable} {row : String × List String}
    (h : row ∈ table.listing) : row.fst ∈ table.keys :=
  table.map_fst_listing ▸ List.mem_map_of_mem h

/-- **The rows of the header are what the import section has to say.** -/
theorem isHeader_rows (module : String) (blocks : List Block) :
    IsHeader module blocks (header module blocks).rows := by
  have hdivided := ImportHeader.divided_ofImports module (imports blocks)
  have hnodup : ((header module blocks).rows.map Prod.fst).Nodup :=
    ImportHeader.nodup_rows hdivided
  refine ⟨fun owner => ?_, hnodup, fun row hrow name => ?_, fun row hrow => ?_, ?_⟩
  · rw [header, ImportHeader.mem_map_fst_rows_ofImports, and_comm]
    simp only [requires_iff, exists_and_right]
    refine and_congr_left fun _ => ?_
    constructor
    · rintro ⟨i, hi, rfl⟩
      exact ⟨i.name, hi⟩
    · rintro ⟨name, hi⟩
      exact ⟨_, hi, rfl⟩
  · rw [requires_iff, ← ImportHeader.lists_ofImports]
    constructor
    · intro hname
      exact ⟨row, hrow, rfl, hname⟩
    · rintro ⟨row', hrow', hfst, hname⟩
      rwa [← List.inj_on_of_nodup_map hnodup hrow' hrow hfst]
  · have hlisting (table : ImportTable) (h : row ∈ table.listing) :
        row.snd.Pairwise fun a b => bytes a < bytes b := by
      obtain ⟨entry, -, rfl⟩ := List.mem_map.mp h
      exact List.pairwise_map.mpr (entry.snd.ascending.imp bytes_lt_bytes.mpr)
    exact (List.mem_append.mp hrow).elim (hlisting _) (hlisting _)
  · -- the two tables are told apart by how an owner is spelled
    refine List.pairwise_append.mpr ⟨?_, ?_, fun a ha b hb => ?_⟩
    · refine (pairwise_listing _).imp_of_mem fun {a b} ha hb hlt => .inr ⟨?_, hlt⟩
      rw [hdivided.1 a.fst (mem_keys_of_mem_listing ha),
        hdivided.1 b.fst (mem_keys_of_mem_listing hb)]
    · refine (pairwise_listing _).imp_of_mem fun {a b} ha hb hlt => .inr ⟨?_, hlt⟩
      rw [hdivided.2 a.fst (mem_keys_of_mem_listing ha),
        hdivided.2 b.fst (mem_keys_of_mem_listing hb)]
    · exact .inl ⟨hdivided.1 a.fst (mem_keys_of_mem_listing ha),
        hdivided.2 b.fst (mem_keys_of_mem_listing hb)⟩

/-! ## The whole text -/

/-- The section of the imports, if there are any. -/
def importSection (rows : List (String × List String)) : List String :=
  if rows = [] then [] else ["\n".intercalate (rows.map ImportHeader.line)]

/-- **How a text renders blocks** of a module: with which import section, and
in which order. -/
structure Renders (module : String) (blocks : List Block) (rows : List (String × List String))
    (order : List Block) (text : String) : Prop where
  /-- The import section says what it has to. -/
  header : IsHeader module blocks rows
  /-- It is there just if something is required. -/
  headed : rows ≠ [] ↔ ∃ owner name, Requires module blocks owner name
  /-- Each block is rendered once. -/
  perm : order.Perm blocks
  /-- Lighter blocks come first. -/
  ascending : order.Pairwise fun a b => a.weight ≤ b.weight
  /-- Blocks of one weight stay as they were given. -/
  stable : ∀ weight, order.filter (fun block => block.weight == weight)
    = blocks.filter fun block => block.weight == weight
  /-- Without blocks there is no text, and only then. -/
  empty : text = "" ↔ blocks = []
  /-- The sections stand two blank lines apart, with one end of a line behind
  the last. -/
  sections : blocks ≠ [] → text = "\n\n\n".intercalate
    (importSection rows ++ order.map Block.body) ++ "\n"

/-- The sections of a module are that of its imports and the bodies. -/
theorem sections_eq (module : String) (blocks : List Block) :
    sections module blocks
      = importSection (header module blocks).rows ++ (sorted blocks).map Block.body := by
  rw [sections, ImportHeader.lines_eq, importSection]
  cases (header module blocks).rows <;> rfl

/-- The text of a module with blocks. -/
theorem text_of_ne_nil (h : blocks ≠ []) :
    text module blocks = "\n\n\n".intercalate
      (importSection (header module blocks).rows ++ (sorted blocks).map Block.body) ++ "\n" := by
  have hsorted : sorted blocks ≠ [] := fun hnil =>
    h (List.nil_perm.mp (hnil ▸ List.mergeSort_perm blocks _))
  have hsections : sections module blocks ≠ [] := by
    rw [sections_eq]
    exact List.append_ne_nil_of_right_ne_nil _ fun hnil => hsorted (List.map_eq_nil_iff.mp hnil)
  rw [← sections_eq, text]
  cases hcons : sections module blocks with
  | nil => exact absurd hcons hsections
  | cons first rest => rfl

theorem text_eq_empty : text module blocks = "" ↔ blocks = [] := by
  constructor
  · intro htext
    by_contra hne
    -- the end of the last line is there in any case
    rw [text_of_ne_nil hne] at htext
    have hlist := congrArg String.toList htext
    rw [String.toList_append] at hlist
    exact List.append_ne_nil_of_right_ne_nil _ (List.cons_ne_nil _ _) hlist
  · rintro rfl
    exact text_nil module

/-- The text of a module renders its blocks, with the rows of the header. -/
theorem renders_text (module : String) (blocks : List Block) :
    Renders module blocks (header module blocks).rows (sorted blocks) (text module blocks) where
  header := isHeader_rows module blocks
  headed := by
    have howners := (isHeader_rows module blocks).owners
    simp only [← howners]
    cases (header module blocks).rows with
    | nil => simp
    | cons row rows => exact ⟨fun _ => ⟨row.fst, List.mem_cons_self⟩, fun _ => List.cons_ne_nil _ _⟩
  perm := byWeight_perm Block.weight blocks
  ascending := pairwise_byWeight Block.weight blocks
  stable := filter_byWeight Block.weight blocks
  empty := text_eq_empty
  sections := text_of_ne_nil

/-- **The text of a module renders its blocks**, for every module and all
blocks: their bodies in order of weight, under a section of imports that has
one line for each other module that something is required from. This section
is the same one for all blocks that use the same types, in whatever order
and however often. -/
theorem text_renders_blocks (module : String) (blocks : List Block) :
    ∃ rows order, Renders module blocks rows order (text module blocks) ∧
      ∀ others : List Block,
        (∀ type, (∃ block ∈ others, type ∈ block.usedTypes) ↔
          ∃ block ∈ blocks, type ∈ block.usedTypes) →
        ∃ order', Renders module others rows order' (text module others) := by
  refine ⟨_, _, renders_text module blocks, fun others hused => ⟨sorted others, ?_⟩⟩
  have hsame : IsHeader module others (header module blocks).rows :=
    isHeader_congr (fun _ _ => requires_congr hused) (isHeader_rows module blocks)
  rw [hsame.unique (isHeader_rows module others)]
  exact renders_text module others

/-- A record and an enumeration, of which the first uses the second. -/
def bookBlocks : List Block :=
  [{ body := "class Book:\n    genre: Optional[Genre] = None"
     usedTypes := [.optional (.imported "Genre" "models"), .imported "Date" ".scalars",
       .imported "Book" Stage.types.module]
     weight := Block.recordWeight },
   { body := "class Genre(Enum):\n    POETRY = \"POETRY\""
     usedTypes := [.imported "Enum" "enum", .imported "Genre" "models"]
     weight := Block.enumerationWeight }]

/-- The two blocks, and the same ones the other way round with one of them
twice: both modules have four lines of imports, the one from the relative
module last. -/
theorem text_renders_blocks_doubled :
    (∀ type, (∃ block ∈ (bookBlocks ++ bookBlocks.take 1).reverse, type ∈ block.usedTypes) ↔
      ∃ block ∈ bookBlocks, type ∈ block.usedTypes) ∧
    ∃ rows order order',
      Renders Stage.types.module bookBlocks rows order (text Stage.types.module bookBlocks) ∧
      Renders Stage.types.module (bookBlocks ++ bookBlocks.take 1).reverse rows order'
        (text Stage.types.module (bookBlocks ++ bookBlocks.take 1).reverse) ∧
      rows = [("enum", ["Enum"]), ("models", ["Genre"]), ("typing", ["Optional"]),
        (".scalars", ["Date"])] := by
  have hused : ∀ type,
      (∃ block ∈ (bookBlocks ++ bookBlocks.take 1).reverse, type ∈ block.usedTypes) ↔
        ∃ block ∈ bookBlocks, type ∈ block.usedTypes := by
    intro type
    refine exists_congr fun block => and_congr_left fun _ => ?_
    rw [List.mem_reverse, List.mem_append]
    exact or_iff_left_of_imp List.mem_of_mem_take
  obtain ⟨rows, order, hrenders, hothers⟩ := text_renders_blocks Stage.types.module bookBlocks
  obtain ⟨order', hrenders'⟩ := hothers _ hused
  refine ⟨hused, rows, order, order', hrenders, hrenders', ?_⟩
  rw [hrenders.header.unique (isHeader_rows _ _)]
  decide

end Module

end SchemaScaffold
