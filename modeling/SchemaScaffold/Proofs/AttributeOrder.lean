import SchemaScaffold.Proofs.ByteOrder
import SchemaScaffold.Proofs.Layout
import SchemaScaffold.Proofs.Written

/-!
# The order of the attributes of a class

The fields of a class are written in an order that the schema does not
choose. Those that may be left out come last, for a class in which one of
them stands in front of another field is refused; within the two groups the
names decide, and the schema decides only between fields of one name.

Whether a field may be left out is read off its *expression* when the fields
are sorted, and said of its *reference* here, of which only the outermost level
counts: a list of values that are never null may be left out itself. For a
reference that can be resolved it is the same (`TypeRef.default?_of_resolve`).

Names are compared in snake case. So two fields with different names may
have one attribute name, and it is for those that the sorting has to be
stable (`filter_written`).
-/

namespace SchemaScaffold

/-! ## Sorting attributes -/

namespace Attribute

/-- **Which of two attributes stands first.** -/
theorem le_iff {a b : Attribute} : a.le b = true ↔
    (a.hasDefault = true → b.hasDefault = true) ∧
      (a.hasDefault = b.hasDefault → a.name ≤ b.name) := by
  unfold le
  cases a.hasDefault <;> cases b.hasDefault <;> simp

theorem le_trans (a b c : Attribute) (hab : a.le b = true) (hbc : b.le c = true) :
    a.le c = true := by
  rw [le_iff] at hab hbc ⊢
  refine ⟨hbc.1 ∘ hab.1, fun hac => ?_⟩
  -- what stands between two attributes of one group is of that group
  have hgroup : a.hasDefault = b.hasDefault := by
    rw [Bool.eq_iff_iff]
    exact ⟨hab.1, fun hb => hac ▸ hbc.1 hb⟩
  exact String.le_trans (hab.2 hgroup) (hbc.2 (hgroup.symm.trans hac))

theorem le_total (a b : Attribute) : (a.le b || b.le a) = true := by
  rw [Bool.or_eq_true, le_iff, le_iff]
  cases a.hasDefault <;> cases b.hasDefault <;> simp [String.le_total]

section Written

variable {α : Type} {make : α → Attribute} {items : List α}

/-- Items in the order that their attributes are written in. -/
def written (make : α → Attribute) (items : List α) : List α :=
  items.mergeSort fun a b => (make a).le (make b)

theorem written_perm (make : α → Attribute) (items : List α) :
    (written make items).Perm items :=
  List.mergeSort_perm items _

/-- **The lines of attributes** are written item by item, in that order. -/
theorem attributeLines_map (make : α → Attribute) (items : List α) :
    Declaration.attributeLines (items.map make)
      = (written make items).map fun item => (make item).line := by
  have hsort : (items.map make).mergeSort Attribute.le = (written make items).map make :=
    (List.map_mergeSort (f := make) fun _ _ _ _ => rfl).symm
  rw [Declaration.attributeLines, hsort, List.map_map]
  rfl

theorem pairwise_written (make : α → Attribute) (items : List α) :
    (written make items).Pairwise fun a b => (make a).le (make b) = true :=
  List.pairwise_mergeSort (fun a b c => le_trans (make a) (make b) (make c))
    (fun a b => le_total (make a) (make b)) items

/-- **Items of one name and group stay as they were given.** -/
theorem filter_written (make : α → Attribute) (items : List α) (name : String)
    (hasDefault : Bool) :
    (written make items).filter
        (fun a => (make a).name == name && (make a).hasDefault == hasDefault)
      = items.filter fun a => (make a).name == name && (make a).hasDefault == hasDefault := by
  refine filter_mergeSort (fun a b c => le_trans (make a) (make b) (make c))
    (fun a b => le_total (make a) (make b)) (fun a b ha hb => ?_) items
  simp only [Bool.and_eq_true, beq_iff_eq] at ha hb
  rw [le_iff, ha.1, ha.2, hb.1, hb.2]
  exact ⟨id, fun _ => String.le_refl name⟩

end Written

end Attribute

/-! ## The lines of a class -/

/-- **How the fields of a class are written**: in which order, and with which
lines. What is asked of a field is its name and its reference. -/
structure WrittenInOrder {α : Type} (scope : Scope) (name : α → String) (reference : α → TypeRef)
    (fields order : List α) (lines : List String) : Prop where
  /-- Each field is written once. -/
  perm : order.Perm fields
  /-- Its line is the one for its name and its reference. -/
  line : List.Forall₂ (fun field => WritesAttribute scope (name field) (reference field)) order
    lines
  /-- No field with a default stands before one without. -/
  defaultsLast : order.Pairwise fun a b =>
    (reference b).isNonNull = true → (reference a).isNonNull = true
  /-- Within each group the names ascend. -/
  ascending : order.Pairwise fun a b => (reference a).isNonNull = (reference b).isNonNull →
    bytes (snakeCase (name a)) ≤ bytes (snakeCase (name b))
  /-- Fields of one name and group stay as they were given. -/
  stable : ∀ snake isNonNull,
    order.filter
        (fun field => snakeCase (name field) == snake && (reference field).isNonNull == isNonNull)
      = fields.filter
        fun field => snakeCase (name field) == snake && (reference field).isNonNull == isNonNull

namespace Attribute

section Class

variable {α : Type} {scope : Scope} {name : α → String} {reference : α → TypeRef} {fields : List α}

/-- The attribute for a name and a reference. -/
def ofReference (scope : Scope) (name : String) (reference : TypeRef) : Attribute :=
  { name := snakeCase name, type := reference.typeIn scope }

variable (h : ∀ field ∈ fields, ∃ type, (reference field).resolve scope = .ok type)

include h

theorem resolve_of_mem {field : α} (hmem : field ∈ fields) :
    (reference field).resolve scope = .ok ((reference field).typeIn scope) := by
  obtain ⟨type, htype⟩ := h field hmem
  rw [← TypeRef.eq_typeIn htype, htype]

theorem hasDefault_of_mem {field : α} (hmem : field ∈ fields) :
    (ofReference scope (name field) (reference field)).hasDefault
      = !(reference field).isNonNull := by
  show ((reference field).typeIn scope).default?.isSome = _
  rw [TypeRef.default?_of_resolve (resolve_of_mem h hmem)]
  cases (reference field).isNonNull <;> rfl

/-- **The attributes can be made.** -/
theorem mapM_ofReference :
    (fields.mapM fun field => do
      let type ← (reference field).resolve scope
      return { name := snakeCase (name field), type : Attribute })
      = .ok (fields.map fun field => ofReference scope (name field) (reference field)) := by
  refine mapM_eq_ok.mpr (List.forall₂_map_right_iff.mpr (List.forall₂_same.mpr ?_))
  exact fun field hfield => bind_eq_ok.mpr ⟨_, resolve_of_mem h hfield, rfl⟩

/-- **The lines of a class are in order**, if every reference can be
resolved. -/
theorem exists_writtenInOrder : ∃ order, WrittenInOrder scope name reference fields order
    (Declaration.attributeLines
      (fields.map fun field => ofReference scope (name field) (reference field))) := by
  let make : α → Attribute := fun field => ofReference scope (name field) (reference field)
  have hmem {field : α} (hfield : field ∈ written make fields) : field ∈ fields :=
    (written_perm make fields).mem_iff.mp hfield
  have hsorted : (written make fields).Pairwise fun a b =>
      ((reference b).isNonNull = true → (reference a).isNonNull = true) ∧
      ((reference a).isNonNull = (reference b).isNonNull →
        snakeCase (name a) ≤ snakeCase (name b)) := by
    refine (pairwise_written make fields).imp_of_mem fun {a b} ha hb hle => ?_
    have hle := le_iff.mp hle
    rw [hasDefault_of_mem h (hmem ha), hasDefault_of_mem h (hmem hb)] at hle
    refine ⟨fun hrequired => ?_, fun hgroup => hle.2 (congrArg _ hgroup)⟩
    cases hfirst : (reference a).isNonNull with
    | true => rfl
    | false =>
      rw [hfirst, hrequired] at hle
      exact absurd (hle.1 rfl) Bool.false_ne_true
  refine ⟨written make fields, written_perm make fields, ?_, hsorted.imp And.left,
    hsorted.imp fun hab hgroup => bytes_le_bytes.mpr (hab.2 hgroup), fun snake isNonNull => ?_⟩
  · rw [attributeLines_map, List.forall₂_map_right_iff]
    refine List.forall₂_same.mpr fun field hfield => ?_
    exact writesAttribute_line (resolve_of_mem h (hmem hfield))
  · -- the group of a field is told by its reference here, and by its attribute there
    have hgroup : ∀ field ∈ fields,
        ((make field).name == snake && (make field).hasDefault == !isNonNull)
          = (snakeCase (name field) == snake && (reference field).isNonNull == isNonNull) := by
      intro field hfield
      rw [hasDefault_of_mem h hfield]
      cases (reference field).isNonNull <;> cases isNonNull <;> rfl
    rw [← List.filter_congr fun field hfield => hgroup field (hmem hfield),
      ← List.filter_congr hgroup]
    exact filter_written make fields snake !isNonNull

end Class

end Attribute

namespace Declaration

/-- **The text of a class has the lines of its fields in order.** Let every
field have a reference that can be resolved. Then the attributes can be made,
and the classes that have them – records and protocols for fields of a type,
records for fields of an input object – have one line for each field, those
without a default first, by name within the two groups and in the order of
the schema where the names are the same. These lines are all there is under
the line that opens the class. -/
theorem text_writes_fields_in_order (scope : Scope) :
    (∀ fields : List Field, (∀ field ∈ fields, ∃ type, field.type.resolve scope = .ok type) →
      ∃ attributes order lines, fields.mapM (Attribute.ofField scope) = .ok attributes ∧
        WrittenInOrder scope Field.name Field.type fields order lines ∧
        (∀ name bases, ∃ basesText, WritesBases bases basesText ∧
          WritesClass ("@dataclass(frozen=True)\nclass " ++ name ++ basesText ++ ":") lines
            (record name bases attributes).text) ∧
        ∀ name, WritesClass ("class " ++ name ++ "(Protocol):") lines
          (protocol name attributes).text) ∧
    ∀ inputs : List InputValue, (∀ input ∈ inputs, ∃ type, input.type.resolve scope = .ok type) →
      ∃ attributes order lines, inputs.mapM (Attribute.ofInput scope) = .ok attributes ∧
        WrittenInOrder scope InputValue.name InputValue.type inputs order lines ∧
        ∀ name, WritesClass ("@dataclass(frozen=True)\nclass " ++ name ++ ":") lines
          (record name [] attributes).text := by
  constructor
  · intro fields h
    obtain ⟨order, horder⟩ : ∃ order, WrittenInOrder scope Field.name Field.type fields order _ :=
      Attribute.exists_writtenInOrder h
    exact ⟨_, order, _, Attribute.mapM_ofReference h, horder,
      fun _ bases => ⟨_, writesBases_basesText bases, writesClass_classText _ _⟩,
      fun _ => writesClass_classText _ _⟩
  · intro inputs h
    obtain ⟨order, horder⟩ :
        ∃ order, WrittenInOrder scope InputValue.name InputValue.type inputs order _ :=
      Attribute.exists_writtenInOrder h
    refine ⟨_, order, _, Attribute.mapM_ofReference h, horder, fun name => ?_⟩
    rw [text, basesText, String.append_empty]
    exact writesClass_classText _ _

/-- Five fields, two of which have one attribute name. -/
def invoiceFields : List Field :=
  [{ name := "note", type := .named "String" },
   { name := "total", type := .nonNull (.named "Float") },
   { name := "createdBy", type := .nonNull (.named "ID") },
   { name := "created_by", type := .nonNull (.named "String") },
   { name := "lines", type := .list (.nonNull (.named "Int")) }]

/-- The five fields have references that can be resolved in any scope, and so
a class has five lines for them. -/
theorem text_writes_fields_in_order_invoice :
    (∀ field ∈ invoiceFields, ∃ type, field.type.resolve .empty = .ok type) ∧
    ∃ attributes order lines, invoiceFields.mapM (Attribute.ofField .empty) = .ok attributes ∧
      WrittenInOrder .empty Field.name Field.type invoiceFields order lines ∧
      (∃ basesText, WritesBases ["Paper"] basesText ∧
        WritesClass ("@dataclass(frozen=True)\nclass Invoice" ++ basesText ++ ":") lines
          (record "Invoice" ["Paper"] attributes).text) ∧
      lines.length = 5 := by
  have hresolve : ∀ field ∈ invoiceFields, ∃ type, field.type.resolve .empty = .ok type := by
    intro field hfield
    simp only [invoiceFields, List.mem_cons, List.not_mem_nil, or_false] at hfield
    rcases hfield with rfl | rfl | rfl | rfl | rfl <;> exact ⟨_, rfl⟩
  obtain ⟨attributes, order, lines, hattributes, horder, hrecord, -⟩ :=
    (text_writes_fields_in_order .empty).1 invoiceFields hresolve
  refine ⟨hresolve, attributes, order, lines, hattributes, horder,
    hrecord "Invoice" ["Paper"], ?_⟩
  exact horder.line.length_eq.symm.trans horder.perm.length_eq

end Declaration

end SchemaScaffold
