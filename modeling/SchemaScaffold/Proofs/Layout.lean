import SchemaScaffold.Proofs.Closure
import SchemaScaffold.Proofs.Written

/-!
# The order of a module

A module puts its blocks in order of weight, and blocks of one weight stay
as they were given. The second half is what makes the order a function of
the blocks and not of how they are sorted: whatever weights there are, the
module is the blocks of the first weight, then those of the next, each
group as given (`byWeight_eq_flatMap`).

For the module of types there are four weights, one for each kind of
declaration, and so it has four groups (`Declaration.layout`). Records come
last because a class statement reads its bases when it is reached. A base is
an interface, interfaces are protocols, and protocols are in the group in
front. So it does not matter in which order a schema declares the two
(`Document.generate_declares_before_use`).
-/

namespace SchemaScaffold

/-! ## Sorting -/

/-- **What compares equal stays as it was given.** -/
theorem filter_mergeSort {α : Type} {le : α → α → Bool}
    (htrans : ∀ a b c, le a b = true → le b c = true → le a c = true)
    (htotal : ∀ a b, (le a b || le b a) = true) {p : α → Bool}
    (hp : ∀ a b, p a = true → p b = true → le a b = true) (items : List α) :
    (items.mergeSort le).filter p = items.filter p := by
  have hsorted : (items.filter p).Pairwise fun a b => le a b = true :=
    List.pairwise_of_forall_mem_list fun a ha b hb =>
      hp a b (List.mem_filter.mp ha).2 (List.mem_filter.mp hb).2
  -- sorting keeps a sublist that is sorted already, and this one has all that it can have
  have hkept : (items.filter p).Sublist ((items.mergeSort le).filter p) := by
    have hsublist : (items.filter p).Sublist (items.mergeSort le) :=
      List.sublist_mergeSort htrans htotal hsorted List.filter_sublist
    simpa using hsublist.filter p
  exact (hkept.eq_of_length ((List.mergeSort_perm items le).filter p).length_eq.symm).symm

/-! ## Sorting by weight -/

section Weight

variable {α : Type} {weight : α → UInt32} {items : List α} {w : UInt32}

/-- Items in order of weight, those of one weight as given. -/
def byWeight (weight : α → UInt32) (items : List α) : List α :=
  items.mergeSort fun a b => weight a ≤ weight b

/-- No item is lost or comes twice. -/
theorem byWeight_perm (weight : α → UInt32) (items : List α) : (byWeight weight items).Perm items :=
  List.mergeSort_perm items _

theorem weight_trans (a b c : α) (hab : decide (weight a ≤ weight b) = true)
    (hbc : decide (weight b ≤ weight c) = true) : decide (weight a ≤ weight c) = true :=
  decide_eq_true (UInt32.le_trans (of_decide_eq_true hab) (of_decide_eq_true hbc))

theorem weight_total (a b : α) :
    (decide (weight a ≤ weight b) || decide (weight b ≤ weight a)) = true := by
  simpa using UInt32.le_total (weight a) (weight b)

/-- Lighter items come first. -/
theorem pairwise_byWeight (weight : α → UInt32) (items : List α) :
    (byWeight weight items).Pairwise fun a b => weight a ≤ weight b :=
  (List.pairwise_mergeSort weight_trans weight_total items).imp of_decide_eq_true

/-- **Items of one weight stay as they were given.** -/
theorem filter_byWeight (weight : α → UInt32) (items : List α) (w : UInt32) :
    (byWeight weight items).filter (fun a => weight a == w)
      = items.filter fun a => weight a == w := by
  refine filter_mergeSort weight_trans weight_total (fun a b ha hb => ?_) items
  have hweight : weight a = weight b := (eq_of_beq ha).trans (eq_of_beq hb).symm
  simp [hweight]

/-- Of sorted items those of the least weight come first. -/
theorem eq_filter_append_filter (hsorted : items.Pairwise fun a b => weight a ≤ weight b)
    (hleast : ∀ a ∈ items, w ≤ weight a) :
    items = items.filter (fun a => weight a == w) ++ items.filter fun a => weight a != w := by
  induction items with
  | nil => rfl
  | cons a items ih =>
    have hitems := List.pairwise_cons.mp hsorted
    by_cases ha : weight a = w
    · simpa [ha] using ih hitems.2 fun b hb => hleast b (List.mem_cons_of_mem a hb)
    · -- then nothing behind is as light as `w` either
      have hheavy : ∀ b ∈ a :: items, weight b ≠ w := by
        intro b hb heq
        obtain rfl | hb := List.mem_cons.mp hb
        · exact ha heq
        · exact ha (UInt32.le_antisymm (heq ▸ hitems.1 b hb) (hleast a List.mem_cons_self))
      rw [List.filter_eq_nil_iff.mpr fun b hb => by simpa using hheavy b hb,
        List.filter_eq_self.mpr fun b hb => by simpa using hheavy b hb, List.nil_append]

/-- Sorted items are those of the first weight, then those of the next, and
so on. By induction on the weights. -/
theorem eq_flatMap_filter {weights : List UInt32} (hweights : weights.Pairwise (· < ·))
    (hsorted : items.Pairwise fun a b => weight a ≤ weight b)
    (hall : ∀ a ∈ items, weight a ∈ weights) :
    items = weights.flatMap fun w => items.filter fun a => weight a == w := by
  induction weights generalizing items with
  | nil => exact List.eq_nil_iff_forall_not_mem.mpr fun a ha => List.not_mem_nil (hall a ha)
  | cons w weights ih =>
    have hw := List.pairwise_cons.mp hweights
    have hleast : ∀ a ∈ items, w ≤ weight a := by
      intro a ha
      obtain heq | hmem := List.mem_cons.mp (hall a ha)
      · exact heq ▸ UInt32.le_refl w
      · exact UInt32.le_of_lt (hw.1 _ hmem)
    have hrest : ∀ a ∈ items.filter fun a => weight a != w, weight a ∈ weights := by
      intro a ha
      obtain ⟨hmem, hne⟩ := List.mem_filter.mp ha
      exact (List.mem_cons.mp (hall a hmem)).resolve_left (bne_iff_ne.mp hne)
    -- the other groups are not touched by taking the first one out
    have hgroups : ∀ v ∈ weights,
        (items.filter fun a => weight a != w).filter (fun a => weight a == v)
          = items.filter fun a => weight a == v := by
      intro v hv
      rw [List.filter_filter]
      refine List.filter_congr fun a _ => ?_
      have hne : v ≠ w := (UInt32.ne_of_lt (hw.1 v hv)).symm
      by_cases ha : weight a = v <;> simp [ha, hne]
    calc items
        = items.filter (fun a => weight a == w) ++ items.filter (fun a => weight a != w) :=
          eq_filter_append_filter hsorted hleast
      _ = items.filter (fun a => weight a == w)
            ++ weights.flatMap (fun v => (items.filter fun a => weight a != w).filter
                fun a => weight a == v) :=
          congrArg _ (ih hw.2 (hsorted.filter _) hrest)
      _ = items.filter (fun a => weight a == w)
            ++ weights.flatMap (fun v => items.filter fun a => weight a == v) := by
          rw [List.flatMap_congr hgroups]
      _ = (w :: weights).flatMap fun v => items.filter fun a => weight a == v := by
          rw [List.flatMap_cons]

/-- **Sorting by weight is grouping by weight.** -/
theorem byWeight_eq_flatMap {weights : List UInt32} (hweights : weights.Pairwise (· < ·))
    (hall : ∀ a ∈ items, weight a ∈ weights) :
    byWeight weight items = weights.flatMap fun w => items.filter fun a => weight a == w := by
  have hsorted := eq_flatMap_filter hweights (pairwise_byWeight weight items)
    fun a ha => hall a ((byWeight_perm weight items).mem_iff.mp ha)
  simpa only [filter_byWeight] using hsorted

end Weight

/-! ## The text of a module -/

namespace Module

variable {module : String} {blocks : List Block}

@[simp] theorem text_nil (module : String) : text module [] = "" := by
  simp [text, sections, sorted, header, imports, ImportHeader.ofImports, ImportHeader.lines_eq]
  rfl

/-- **The text of a module with imports**: its header, and then its blocks
in order. -/
theorem text_eq (h : (header module blocks).lines ≠ []) :
    text module blocks = separator.intercalate ("\n".intercalate (header module blocks).lines
      :: (sorted blocks).map Block.body) ++ "\n" := by
  rw [text, sections]
  cases hlines : (header module blocks).lines with
  | nil => exact absurd hlines h
  | cons line lines => rfl

/-- A header that lists something has lines. -/
theorem lines_ne_nil {i : Import} (h : (header module blocks).Lists i) :
    (header module blocks).lines ≠ [] := by
  obtain ⟨row, hrow, -⟩ := h
  rw [ImportHeader.lines_eq]
  exact List.ne_nil_of_mem (List.mem_map.mpr ⟨row, hrow, rfl⟩)

end Module

/-! ## The groups of the module of types -/

namespace Declaration

variable {declarations : List Declaration}

/-- Whether a declaration is a name for one of several types. -/
def isUnion : Declaration → Bool
  | union _ _ => true
  | _ => false

/-- Whether a declaration is an enumeration. -/
def isEnumeration : Declaration → Bool
  | enumeration _ _ => true
  | _ => false

/-- Whether a declaration is a protocol. -/
def isProtocol : Declaration → Bool
  | protocol _ _ => true
  | _ => false

/-- Whether a declaration is a record. -/
def isRecord : Declaration → Bool
  | record _ _ _ => true
  | _ => false

/-- **The order of declarations in the module of types**: unions, then
enumerations, then protocols, then records, each group in the order
given. -/
def layout (declarations : List Declaration) : List Declaration :=
  declarations.filter isUnion ++ declarations.filter isEnumeration
    ++ declarations.filter isProtocol ++ declarations.filter isRecord

/-- The weights of declarations in ascending order. -/
def weights : List UInt32 :=
  [Block.unionWeight, Block.enumerationWeight, Block.protocolWeight, Block.recordWeight]

/-- **The groups are those of the weights.** -/
theorem byWeight_eq_layout (declarations : List Declaration) :
    byWeight weight declarations = layout declarations := by
  have hascending : weights.Pairwise (· < ·) := by decide
  have hweights : ∀ declaration ∈ declarations, declaration.weight ∈ weights := by
    intro declaration _
    cases declaration <;> simp [weights, weight]
  have hunion : (fun d : Declaration => d.weight == Block.unionWeight) = isUnion := by
    funext d
    cases d <;> rfl
  have henumeration : (fun d : Declaration => d.weight == Block.enumerationWeight)
      = isEnumeration := by
    funext d
    cases d <;> rfl
  have hprotocol : (fun d : Declaration => d.weight == Block.protocolWeight) = isProtocol := by
    funext d
    cases d <;> rfl
  have hrecord : (fun d : Declaration => d.weight == Block.recordWeight) = isRecord := by
    funext d
    cases d <;> rfl
  rw [byWeight_eq_flatMap hascending hweights, weights, layout]
  simp only [List.flatMap_cons, List.flatMap_nil, List.append_nil, List.append_assoc, hunion,
    henumeration, hprotocol, hrecord]

/-- Each declaration is in one group. -/
theorem layout_perm (declarations : List Declaration) :
    (layout declarations).Perm declarations :=
  byWeight_eq_layout declarations ▸ byWeight_perm weight declarations

/-- **The module of types is laid out in the groups.** -/
theorem sorted_map_block (declarations : List Declaration) :
    Module.sorted (declarations.map block) = (layout declarations).map block := by
  -- a declaration weighs what its block weighs
  rw [← byWeight_eq_layout, byWeight, Module.sorted]
  exact (List.map_mergeSort (f := block) fun _ _ _ _ => rfl).symm

/-- **A protocol stands before every record.** -/
theorem exists_layout_eq {name base : String} {bases : List String}
    {fields attributes : List Attribute} (hprotocol : .protocol base attributes ∈ declarations)
    (hrecord : .record name bases fields ∈ declarations) :
    ∃ before between after, layout declarations
      = before ++ .protocol base attributes :: (between ++ .record name bases fields :: after) := by
  obtain ⟨front, middle, hfront⟩ :=
    List.append_of_mem (List.mem_filter.mpr ⟨hprotocol, (rfl : isProtocol _ = true)⟩)
  obtain ⟨lead, after, hlead⟩ :=
    List.append_of_mem (List.mem_filter.mpr ⟨hrecord, (rfl : isRecord _ = true)⟩)
  refine ⟨declarations.filter isUnion ++ declarations.filter isEnumeration ++ front,
    middle ++ lead, after, ?_⟩
  rw [layout, hfront, hlead]
  simp only [List.append_assoc, List.cons_append]

/-- **The text of the module of types**: the declarations in their groups,
under a header that is never empty. -/
theorem text_map_block (declarations : List Declaration) :
    Module.text Stage.types.module (declarations.map block)
      = if declarations.isEmpty then "" else Module.separator.intercalate
          ("\n".intercalate (Module.header Stage.types.module (declarations.map block)).lines
            :: (layout declarations).map text) ++ "\n" := by
  cases declarations with
  | nil => exact Module.text_nil _
  | cons first rest =>
    -- what the first declaration is made with is imported
    obtain ⟨i, hi⟩ : ∃ i, i ∈ first.support.imports := by
      cases first <;> exact ⟨_, List.mem_singleton.mpr rfl⟩
    have hlines : (Module.header Stage.types.module ((first :: rest).map block)).lines ≠ [] :=
      Module.lines_ne_nil (lists_support List.mem_cons_self hi)
    rw [Module.text_eq hlines, sorted_map_block, List.map_map]
    rfl

end Declaration

/-! ## Definition before use -/

namespace Document

variable {document : Document} {given : Scope} {generated : Generated}

/-- **No name is declared twice** if no type is defined twice. -/
theorem nodup_declaredNames (h : document.typeNames.Nodup) : document.declaredNames.Nodup := by
  have hsublist (definitions : List Definition) :
      (definitions.filterMap Definition.declaredName?).Sublist
        (definitions.filterMap Definition.typeName?) := by
    induction definitions with
    | nil => exact .slnil
    | cons definition definitions ih =>
      cases hname : definition.declaredName? with
      | none =>
        rw [List.filterMap_cons_none hname]
        exact ih.trans ((List.sublist_cons_self _ _).filterMap _)
      | some name =>
        rw [List.filterMap_cons_some hname,
          List.filterMap_cons_some (Definition.typeName?_of_declaredName? hname)]
        exact ih.cons_cons name
  exact (hsublist _).nodup h

/-- An interface is declared as a protocol. -/
theorem exists_protocol_mem {scope : Scope} {it : InterfaceType}
    (hmem : .interface it ∈ document.definitions.toList) :
    ∃ attributes, .protocol it.name attributes ∈ document.declarationsIn scope :=
  ⟨_, List.mem_filterMap.mpr ⟨_, hmem, rfl⟩⟩

/-- An object is declared as a record with its interfaces as bases, unless
it is a root object. -/
theorem exists_record_mem {scope : Scope} {it : ObjectType}
    (hmem : .object it ∈ document.definitions.toList) (hroot : isRootName it.name = false) :
    ∃ fields, .record it.name it.implements fields ∈ document.declarationsIn scope := by
  refine ⟨(plainFields it.fields).map (Field.toAttribute scope),
    List.mem_filterMap.mpr ⟨_, hmem, ?_⟩⟩
  rw [Definition.declaration?, hroot]
  rfl

/-- **The module of types defines before it uses.** The document is declared
definition by definition. The text of the module is these declarations,
unions before enumerations before protocols before records and each group in
the order of the schema, so that every declaration is written once. Of these the
text of a class begins with the line that opens it, by its name and with its
bases. Let no type be defined twice, and let objects list interfaces of the
document only. Then a declaration can be told by its name, and whatever an
object lists is a protocol that stands in front of the record of the object. -/
theorem generate_declares_before_use (hnames : document.typeNames.Nodup)
    (hbases : ∀ it, .object it ∈ document.definitions.toList → ∀ base ∈ it.implements,
      ∃ found, .interface found ∈ document.definitions.toList ∧ found.name = base)
    (h : document.generate given = .ok generated) :
    ∃ declarations, document.declarations given = .ok declarations ∧
      generated.typeBlocks = declarations.map Declaration.block ∧
      declarations.map Declaration.name = document.declaredNames ∧
      generated.text .types = (if declarations.isEmpty then "" else Module.separator.intercalate
        ("\n".intercalate (generated.header .types).lines
          :: (Declaration.layout declarations).map Declaration.text) ++ "\n") ∧
      (Declaration.layout declarations).Perm declarations ∧
      (∀ declaration ∈ Declaration.layout declarations, declaration.isClass = true →
        ∃ opening lines, declaration.OpensClass opening ∧
          WritesClass opening lines declaration.text) ∧
      ((Declaration.layout declarations).map Declaration.name).Nodup ∧
      ∀ it, .object it ∈ document.definitions.toList → isRootName it.name = false →
        ∀ base ∈ it.implements, ∃ before attributes between fields after,
          Declaration.layout declarations = before ++ .protocol base attributes
            :: (between ++ .record it.name it.implements fields :: after) := by
  obtain ⟨hdeclarations, -, rfl⟩ := generate_eq_ok.mp h
  refine ⟨_, hdeclarations, rfl, map_name_declarationsIn _ _, Declaration.text_map_block _,
    Declaration.layout_perm _, fun declaration _ hclass => ?_, ?_,
    fun it hmem hroot base hbase => ?_⟩
  · obtain ⟨opening, hopens, hwrites⟩ := Declaration.writesClass_text hclass
    exact ⟨opening, _, hopens, hwrites⟩
  · rw [((Declaration.layout_perm _).map Declaration.name).nodup_iff, map_name_declarationsIn]
    exact nodup_declaredNames hnames
  · obtain ⟨found, hfound, rfl⟩ := hbases it hmem base hbase
    obtain ⟨attributes, hprotocol⟩ := exists_protocol_mem hfound
    obtain ⟨fields, hrecord⟩ := exists_record_mem hmem hroot
    obtain ⟨before, between, after, hlayout⟩ := Declaration.exists_layout_eq hprotocol hrecord
    exact ⟨before, attributes, between, fields, after, hlayout⟩

/-- In the reversed library the book comes before the interface it lists,
and in the module of types behind it. -/
theorem generate_declares_before_use_reversedLibrary :
    ∃ generated declarations before attributes between fields after,
      reversedLibrary.generate libraryScope = .ok generated ∧
      generated.typeBlocks = declarations.map Declaration.block ∧
      Declaration.layout declarations = before ++ .protocol "Node" attributes
        :: (between ++ .record "Book" ["Node"] fields :: after) := by
  have hnames : reversedLibrary.typeNames.Nodup := by decide
  have hbases : ∀ it, .object it ∈ reversedLibrary.definitions.toList → ∀ base ∈ it.implements,
      ∃ found, .interface found ∈ reversedLibrary.definitions.toList ∧ found.name = base := by
    intro it hmem base hbase
    simp only [reversedLibrary, library, definitions_ofList, List.reverse_cons, List.reverse_nil,
      List.nil_append, List.cons_append, List.mem_cons, Definition.object.injEq, reduceCtorEq,
      List.not_mem_nil, false_or, or_false, Definition.interface.injEq] at hmem ⊢
    obtain rfl | rfl := hmem
    · cases hbase
    · exact ⟨_, rfl, (List.mem_singleton.mp hbase).symm⟩
  obtain ⟨generated, hgenerated⟩ :
      ∃ generated, reversedLibrary.generate libraryScope = .ok generated := by
    rw [← failure?_eq_none]
    decide +kernel
  obtain ⟨declarations, -, hblocks, -, -, -, -, -, hbefore⟩ :=
    generate_declares_before_use hnames hbases hgenerated
  have hbook := List.mem_of_getElem?
    (rfl : reversedLibrary.definitions.toList[3]? = some (.object _))
  obtain ⟨before, attributes, between, fields, after, hlayout⟩ :=
    hbefore _ hbook (by decide) "Node" (List.mem_singleton.mpr rfl)
  exact ⟨generated, declarations, before, attributes, between, fields, after, hgenerated, hblocks,
    hlayout⟩

end Document

end SchemaScaffold
