import SchemaScaffold.Proofs.References

/-!
# The form of a declaration

What stands in the module of types is written line by line and name by
name, and whether it can be read there is a question of form. A class has a
header and at least one line in its body; a name for one of several types
has at least one type to choose from (`StatementForm`). That the names in
it are identifiers is seen to by the grammar of schemas, and the rewriting
of names keeps them so. What has to be looked at are the parts that a
schema may leave out.

For a class without fields or values there is a line of its own, which
stands for an empty body. For a union without members there is nothing. It
is written like any other union, and what comes out is no statement
(`StatementForm.not_choice_nil`). `Document.generate_writes_statements`
says that this is the only way to come by a block of bad form.
-/

namespace SchemaScaffold

/-! ## Forms -/

/-- **The form of a type**: a name, as it is or in quotation marks, or a name
applied to a type. -/
inductive TypeForm : String → Prop where
  /-- A name. -/
  | name {name : String} (h : IsIdentifier name) : TypeForm name
  /-- A name in quotation marks. -/
  | quoted {name : String} (h : IsIdentifier name) : TypeForm (TypeExpr.quote name)
  /-- A name applied to a type. -/
  | applied {head argument : String} (hhead : IsIdentifier head) (hargument : TypeForm argument) :
    TypeForm (head ++ "[" ++ argument ++ "]")

/-- **The form of a line** in the body of a class. -/
inductive LineForm : String → Prop where
  /-- The line that stands for an empty body. -/
  | empty : LineForm "    ..."
  /-- A value that is its own name. -/
  | value {name literal : String} (hname : IsIdentifier name) (hliteral : IsIdentifier literal) :
    LineForm ("    " ++ name ++ " = " ++ TypeExpr.quote literal)
  /-- A name with its type. -/
  | annotation {name type : String} (hname : IsIdentifier name) (htype : TypeForm type) :
    LineForm ("    " ++ name ++ ": " ++ type)
  /-- A name with its type that may be left out. -/
  | withDefault {name type : String} (hname : IsIdentifier name) (htype : TypeForm type) :
    LineForm ("    " ++ name ++ ": " ++ type ++ " = None")

/-- **The form of a statement** of the module of types. -/
inductive StatementForm : String → Prop where
  /-- A class, of which a record is a decorated one. -/
  | classOf {decoration name : String} {bases lines : List String}
    (hdecoration : decoration = "" ∨ decoration = "@dataclass(frozen=True)\n")
    (hname : IsIdentifier name) (hbases : ∀ base ∈ bases, IsIdentifier base)
    (hsome : lines ≠ []) (hlines : ∀ line ∈ lines, LineForm line) :
    StatementForm ("\n".intercalate
      ((decoration ++ "class " ++ name ++ Declaration.basesText bases ++ ":") :: lines))
  /-- A name for one of several types. -/
  | choice {name : String} {types : List String} (hname : IsIdentifier name) (hsome : types ≠ [])
    (htypes : ∀ type ∈ types, TypeForm type) :
    StatementForm (name ++ " = Union[" ++ ", ".intercalate types ++ "]")

/-! ## What has no form -/

/-- A text parted in two behind its first stretch of one kind of character is
parted in one way only. -/
theorem append_cons_inj_of_forall {p : Char → Bool} {mark : Char} (hmark : p mark = false)
    {xs ys rest rest' : List Char} (hxs : ∀ c ∈ xs, p c = true) (hys : ∀ c ∈ ys, p c = true)
    (h : xs ++ mark :: rest = ys ++ mark :: rest') : xs = ys ∧ rest = rest' := by
  induction xs generalizing ys with
  | nil =>
    cases ys with
    | nil => exact ⟨rfl, (List.cons.inj h).2⟩
    | cons y ys =>
      rw [(List.cons.inj h).1, hys y List.mem_cons_self] at hmark
      cases hmark
  | cons x xs ih =>
    cases ys with
    | nil =>
      rw [← (List.cons.inj h).1, hxs x List.mem_cons_self] at hmark
      cases hmark
    | cons y ys =>
      obtain ⟨rfl, htail⟩ := List.cons.inj h
      obtain ⟨rfl, hrest⟩ := ih (fun c hc => hxs c (List.mem_cons_of_mem x hc))
        (fun c hc => hys c (List.mem_cons_of_mem x hc)) htail
      exact ⟨rfl, hrest⟩

namespace IsIdentifier

variable {name other : String}

/-- **The identifier in front of a blank** can be told from what follows. -/
theorem append_blank_inj {rest rest' : List Char} (hname : IsIdentifier name)
    (hother : IsIdentifier other) (h : name.toList ++ ' ' :: rest = other.toList ++ ' ' :: rest') :
    name = other ∧ rest = rest' := by
  obtain ⟨hfirst, hrest⟩ := append_cons_inj_of_forall (by decide) hname.consists hother.consists h
  exact ⟨String.toList_injective hfirst, hrest⟩

/-- Nothing that starts with another character starts with an identifier. -/
theorem append_ne_cons {mark : Char} {rest text : List Char} (hname : IsIdentifier name)
    (hmark : Sdl.isNameStart mark = false) : name.toList ++ rest ≠ mark :: text := by
  intro h
  obtain ⟨first, tail, htail, hstart, -⟩ := hname.exists_toList_eq_cons
  rw [htail, List.cons_append] at h
  rw [(List.cons.inj h).1, hmark] at hstart
  cases hstart

theorem ne_empty (hname : IsIdentifier name) : name ≠ "" := by
  rintro rfl
  exact absurd hname.starts (by decide)

end IsIdentifier

/-- A type is not written with nothing. -/
theorem TypeForm.ne_empty {text : String} (h : TypeForm text) : text ≠ "" := by
  intro hempty
  cases h with
  | name h => exact h.ne_empty hempty
  | quoted h => simp [TypeExpr.quote] at hempty
  | applied hhead hargument => simp at hempty

/-- A list of types is not written with nothing, unless there are none. -/
theorem TypeForm.intercalate_ne_empty {types : List String} (hsome : types ≠ [])
    (htypes : ∀ type ∈ types, TypeForm type) : ", ".intercalate types ≠ "" := by
  cases types with
  | nil => exact absurd rfl hsome
  | cons type types =>
    have htype := (htypes type List.mem_cons_self).ne_empty
    cases types with
    | nil => rwa [String.intercalate_singleton]
    | cons other types => simp [String.intercalate_cons_cons, htype]

/-- **A name for one of no types is no statement.** -/
theorem StatementForm.not_choice_nil {name : String} (hname : IsIdentifier name) :
    ¬StatementForm (name ++ " = Union[]") := by
  generalize hbody : name ++ " = Union[]" = body
  intro hform
  cases hform with
  | @classOf decoration other bases lines hdecoration hother hbases hsome hlines =>
    obtain ⟨line, lines, rfl⟩ := List.exists_cons_of_ne_nil hsome
    rw [String.intercalate_cons_cons] at hbody
    replace hbody := congrArg String.toList hbody
    simp only [String.toList_append, List.append_assoc] at hbody
    obtain rfl | rfl := hdecoration
    · -- behind the first word of a class there is a name, and here there is a sign
      have hclass : IsIdentifier "class" := by decide
      obtain ⟨-, hrest⟩ := hname.append_blank_inj hclass hbody
      exact hother.append_ne_cons (by decide) hrest.symm
    · exact hname.append_ne_cons (by decide) hbody
  | @choice other types hother hsome htypes =>
    replace hbody := congrArg String.toList hbody
    simp only [String.toList_append, List.append_assoc] at hbody
    obtain ⟨-, hrest⟩ := hname.append_blank_inj hother hbody
    -- between the brackets there are the types, and here there is nothing
    have hbrackets : "= Union[".toList ++ ([] ++ "]".toList)
        = "= Union[".toList ++ ((", ".intercalate types).toList ++ "]".toList) := hrest
    have hnone := List.append_cancel_right (List.append_cancel_left hbrackets)
    exact TypeForm.intercalate_ne_empty hsome htypes (String.toList_injective hnone.symm)

/-! ## The forms of declarations -/

variable {scope : Scope} {type : TypeExpr}

/-- A type with an identifier at its core has the form of one, wherever it
is written. -/
theorem TypeExpr.typeForm_text (hcore : IsIdentifier type.core.head) (module : String) :
    TypeForm (type.text module) := by
  induction type with
  | bare name module? =>
    rw [text]
    split
    · exact .quoted hcore
    · exact .name hcore
  | optional inner ih =>
    have hhead : IsIdentifier "Optional" := by decide
    exact .applied hhead (ih hcore)
  | sequence inner ih =>
    have hhead : IsIdentifier "Sequence" := by decide
    exact .applied hhead (ih hcore)

/-- What stands for a scalar that every schema has is named by an
identifier. -/
theorem isIdentifier_builtinScalar {name : String} (h : builtinScalar? name = some type) :
    IsIdentifier type.head := by
  unfold builtinScalar? at h
  repeat' split at h
  all_goals cases h
  all_goals decide

/-- **What an identifier means** is named by an identifier. -/
theorem Scope.isIdentifier_meaning {name : String} (hname : IsIdentifier name) :
    IsIdentifier (scope.meaning name).head := by
  rw [meaning]
  cases hmodule : scope.moduleOf? name with
  | some module =>
    rw [meaning?_of_module hmodule]
    exact hname
  | none =>
    rw [meaning?_of_none hmodule]
    cases htype : builtinScalar? name with
    | none => exact hname
    | some type => exact isIdentifier_builtinScalar htype

/-- **An attribute that is made of identifiers** has the form of a line. -/
theorem Attribute.lineForm_line {a : Attribute} (hname : IsIdentifier a.name)
    (hcore : IsIdentifier a.type.core.head) : LineForm a.line := by
  have htype := TypeExpr.typeForm_text hcore Stage.types.module
  obtain ⟨name, type⟩ := a
  cases type with
  | optional inner => exact .withDefault hname htype
  | bare head module? => simpa [line, TypeExpr.default?] using LineForm.annotation hname htype
  | sequence inner => simpa [line, TypeExpr.default?] using LineForm.annotation hname htype

theorem Field.lineForm_line {field : Field} (hname : IsIdentifier field.name)
    (hleaf : IsIdentifier field.type.leaf) : LineForm (field.toAttribute scope).line :=
  Attribute.lineForm_line hname.snakeCase
    (field.type.core_typeIn scope ▸ scope.isIdentifier_meaning hleaf)

theorem InputValue.lineForm_line {input : InputValue} (hname : IsIdentifier input.name)
    (hleaf : IsIdentifier input.type.leaf) : LineForm (input.toAttribute scope).line :=
  Attribute.lineForm_line hname.snakeCase
    (input.type.core_typeIn scope ▸ scope.isIdentifier_meaning hleaf)

namespace StatementForm

/-- **A class has a line in its body** even if there is none to write. -/
theorem classText {decoration name : String} {bases lines : List String}
    (hdecoration : decoration = "" ∨ decoration = "@dataclass(frozen=True)\n")
    (hname : IsIdentifier name) (hbases : ∀ base ∈ bases, IsIdentifier base)
    (hlines : ∀ line ∈ lines, LineForm line) :
    StatementForm (Declaration.classText
      (decoration ++ "class " ++ name ++ Declaration.basesText bases ++ ":") lines) := by
  rw [Declaration.classText]
  cases lines with
  | nil =>
    refine .classOf hdecoration hname hbases (List.cons_ne_nil _ _) fun line hline => ?_
    rw [List.mem_singleton.mp hline]
    exact .empty
  | cons line lines => exact .classOf hdecoration hname hbases (List.cons_ne_nil _ _) hlines

/-- The lines of attributes are in another order, and the same. -/
theorem lineForm_attributeLines {attributes : List Attribute}
    (h : ∀ a ∈ attributes, LineForm a.line) :
    ∀ line ∈ Declaration.attributeLines attributes, LineForm line :=
  List.forall_mem_map.mpr fun a ha => h a (List.mem_mergeSort.mp ha)

theorem lineForm_valueLines {values : List String} (h : ∀ value ∈ values, IsIdentifier value) :
    ∀ line ∈ values.map Declaration.valueLine, LineForm line :=
  List.forall_mem_map.mpr fun value hvalue => .value (h value hvalue) (h value hvalue)

/-- A record is a decorated class. -/
theorem record {name : String} {bases : List String} {attributes : List Attribute}
    (hname : IsIdentifier name) (hbases : ∀ base ∈ bases, IsIdentifier base)
    (hlines : ∀ a ∈ attributes, LineForm a.line) :
    StatementForm (Declaration.record name bases attributes).text := by
  have hdecorated : "@dataclass(frozen=True)\nclass "
      = "@dataclass(frozen=True)\n" ++ "class " := rfl
  rw [Declaration.text, hdecorated]
  exact classText (.inr rfl) hname hbases (lineForm_attributeLines hlines)

/-- A class need not be decorated. -/
theorem undecorated {name base : String} {lines : List String} (hname : IsIdentifier name)
    (hbase : IsIdentifier base) (hlines : ∀ line ∈ lines, LineForm line) :
    StatementForm (Declaration.classText
      ("class " ++ name ++ Declaration.basesText [base] ++ ":") lines) := by
  have hnone : "class " = "" ++ "class " := rfl
  rw [hnone]
  exact classText (.inl rfl) hname (List.forall_mem_singleton.mpr hbase) hlines

/-- A protocol is a class with one base. -/
theorem protocol {name : String} {attributes : List Attribute} (hname : IsIdentifier name)
    (hlines : ∀ a ∈ attributes, LineForm a.line) :
    StatementForm (Declaration.protocol name attributes).text := by
  have hbase : "(Protocol):" = Declaration.basesText ["Protocol"] ++ ":" := rfl
  rw [Declaration.text, hbase, ← String.append_assoc]
  exact undecorated hname (by decide) (lineForm_attributeLines hlines)

/-- So is an enumeration. -/
theorem enumeration {name : String} {values : List String} (hname : IsIdentifier name)
    (hvalues : ∀ value ∈ values, IsIdentifier value) :
    StatementForm (Declaration.enumeration name values).text := by
  have hbase : "(Enum):" = Declaration.basesText ["Enum"] ++ ":" := rfl
  rw [Declaration.text, hbase, ← String.append_assoc]
  exact undecorated hname (by decide) (lineForm_valueLines hvalues)

/-- A union with members is a name for one of several types. -/
theorem union {name : String} {members : List TypeExpr} (hname : IsIdentifier name)
    (hsome : members ≠ []) (hmembers : ∀ type ∈ members, IsIdentifier type.core.head) :
    StatementForm (Declaration.union name members).text :=
  .choice hname (mt List.map_eq_nil_iff.mp hsome)
    (List.forall_mem_map.mpr fun type hmem => TypeExpr.typeForm_text (hmembers type hmem) _)

end StatementForm

/-! ## The forms of the blocks of a module -/

namespace Definition

/-- **Whether a definition is a union without members.** -/
def isMemberless : Definition → Bool
  | union it => it.members.isEmpty
  | _ => false

variable {definition : Definition} {declaration : Declaration}

/-- The fields that take no arguments are lines if all fields are made of
identifiers. -/
theorem lineForm_plainFields {fields : List Field}
    (hnames : ∀ name ∈ fields.flatMap Field.names, IsIdentifier name)
    (hleaves : ∀ t ∈ fields.flatMap Field.signature, IsIdentifier t.leaf) :
    ∀ a ∈ (plainFields fields).map (Field.toAttribute scope), LineForm a.line := by
  refine List.forall_mem_map.mpr fun field hplain => ?_
  have hfield : field ∈ fields := List.mem_of_mem_filter hplain
  exact field.lineForm_line
    (hnames _ (List.mem_flatMap.mpr ⟨field, hfield, List.mem_cons_self⟩))
    (hleaves _ (List.mem_flatMap.mpr ⟨field, hfield, List.mem_cons_self⟩))

/-- **The declaration of a definition made of identifiers is a statement**,
unless it is that of a union without members. -/
theorem statementForm_text (hnames : ∀ name ∈ definition.names, IsIdentifier name)
    (hleaves : ∀ t ∈ definition.references, IsIdentifier t.leaf)
    (h : definition.declaration? scope = some declaration)
    (hmembers : definition.isMemberless = false) :
    StatementForm declaration.text := by
  cases definition with
  | object it =>
    obtain ⟨hname, hrest⟩ := List.forall_mem_cons.mp hnames
    obtain ⟨hbases, hfields⟩ := List.forall_mem_append.mp hrest
    obtain ⟨-, rfl⟩ := declaration?_object h
    exact .record hname hbases (lineForm_plainFields hfields hleaves)
  | inputObject it =>
    obtain ⟨hname, hfields⟩ := List.forall_mem_cons.mp hnames
    obtain ⟨-, rfl⟩ := declaration?_inputObject h
    refine .record hname (List.forall_mem_nil _) (List.forall_mem_map.mpr fun input hinput => ?_)
    exact input.lineForm_line (hfields _ (List.mem_map_of_mem hinput))
      (hleaves _ (List.mem_map_of_mem hinput))
  | interface it =>
    obtain ⟨hname, hfields⟩ := List.forall_mem_cons.mp hnames
    cases h
    exact .protocol hname (lineForm_plainFields hfields hleaves)
  | enumeration it =>
    obtain ⟨hname, hvalues⟩ := List.forall_mem_cons.mp hnames
    cases h
    exact .enumeration hname hvalues
  | union it =>
    obtain ⟨hname, hlisted⟩ := List.forall_mem_cons.mp hnames
    cases h
    refine .union hname (mt List.map_eq_nil_iff.mp ?_)
      (List.forall_mem_map.mpr fun member hmem => ?_)
    · exact List.isEmpty_eq_false_iff.mp hmembers
    · rw [Scope.core_meaning]
      exact scope.isIdentifier_meaning (hlisted member hmem)
  | scalar it => cases h
  | schema it => cases h
  | directive it => cases h

/-- **A union without members is no statement**, but a name for one of no
types. -/
theorem not_statementForm_text (hnames : ∀ name ∈ definition.names, IsIdentifier name)
    (h : definition.declaration? scope = some declaration)
    (hmembers : definition.isMemberless = true) :
    declaration.text = declaration.name ++ " = Union[]" ∧ ¬StatementForm declaration.text := by
  cases definition with
  | union it =>
    cases h
    have hnil : it.members = [] := List.isEmpty_iff.mp hmembers
    have htext : (Declaration.union it.name (it.members.map scope.meaning)).text
        = it.name ++ " = Union[]" := by
      rw [hnil]
      show it.name ++ " = Union[" ++ "" ++ "]" = _
      rw [String.append_empty, String.append_assoc]
      rfl
    rw [htext]
    exact ⟨rfl, StatementForm.not_choice_nil (hnames it.name List.mem_cons_self)⟩
  | _ => cases hmembers

/-- **How a definition is written** in the module of types. -/
structure IsWrittenAs (definition : Definition) (body : String) : Prop where
  /-- It is written as a statement, unless it is a union without members. -/
  statement : definition.isMemberless = false ↔ StatementForm body
  /-- Such a union is written as a name for one of no types. -/
  memberless : definition.isMemberless = true →
    ∃ name, definition.declaredName? = some name ∧ body = name ++ " = Union[]"

theorem isWrittenAs_text (hnames : ∀ name ∈ definition.names, IsIdentifier name)
    (hleaves : ∀ t ∈ definition.references, IsIdentifier t.leaf)
    (h : definition.declaration? scope = some declaration) :
    definition.IsWrittenAs declaration.text := by
  cases hmembers : definition.isMemberless with
  | false =>
    have hform := statementForm_text hnames hleaves h hmembers
    exact ⟨by simp [hmembers, hform], by simp [hmembers]⟩
  | true =>
    obtain ⟨htext, hform⟩ := not_statementForm_text hnames h hmembers
    exact ⟨by simp [hmembers, hform], fun _ => ⟨_, declaredName?_eq h, htext⟩⟩

/-- Any union is declared. -/
theorem isSome_of_isMemberless (definition : Definition) (h : definition.isMemberless = true) :
    definition.declaredName?.isSome = true := by
  cases definition with
  | union it => rfl
  | _ => cases h

end Definition

namespace Document

variable {text : String} {document : Document} {given : Scope} {generated : Generated}

/-- **The blocks of the module of types are statements, but for unions
without members.** The definitions that are declared have one block each, in
order. It has the form of a statement just if its definition is not a union
without members; such a union is written as a name for one of no types,
which nothing can read. Nothing is asked of what was given: whatever it
provides, a module of types has it under the name that the text of the
schema has for it. -/
theorem generate_writes_statements (hparse : Document.parse text = .ok document)
    (h : document.generate given = .ok generated) :
    List.Forall₂ (fun definition block => definition.IsWrittenAs block.body)
      (document.definitions.toList.filter fun definition => definition.declaredName?.isSome)
      generated.typeBlocks ∧
    ((∀ definition ∈ document.definitions.toList, definition.isMemberless = false) ↔
      ∀ block ∈ generated.typeBlocks, StatementForm block.body) := by
  obtain ⟨-, -, rfl⟩ := generate_eq_ok.mp h
  obtain ⟨hnames, hleaves⟩ := isIdentifier_of_parse hparse
  have hblocks : List.Forall₂ (fun definition block => definition.IsWrittenAs block.body)
      (document.definitions.toList.filter fun definition => definition.declaredName?.isSome)
      (document.result given).typeBlocks := by
    refine List.forall₂_map_right_iff.mpr (forall₂_declarationsIn
      fun definition hmem declaration hdeclaration => ?_)
    exact Definition.isWrittenAs_text
      (fun name hname => hnames name (List.mem_flatMap.mpr ⟨definition, hmem, hname⟩))
      (fun t ht => hleaves t (List.mem_flatMap.mpr ⟨definition, hmem, ht⟩)) hdeclaration
  refine ⟨hblocks, ?_⟩
  rw [← forall_mem_iff_of_forall₂ (hblocks.imp fun _ _ => Definition.IsWrittenAs.statement)]
  refine ⟨fun hall definition hmem => hall definition (List.mem_of_mem_filter hmem),
    fun hall definition hmem => ?_⟩
  by_contra hmembers
  -- a union is declared, so it is among the definitions with a block
  have hdeclared := definition.isSome_of_isMemberless ((Bool.not_eq_false _).mp hmembers)
  exact hmembers (hall definition (List.mem_filter.mpr ⟨hmem, hdeclared⟩))

/-- A schema in which everything that may be left out is left out, but for
the members of the union. -/
def bodilessText : String :=
  "interface Node type Book implements Node input Period enum Genre union Item = Book"

/-- Without bodies there are statements all the same. -/
theorem generate_writes_statements_bodiless :
    ∃ document generated, Document.parse bodilessText = .ok document ∧
      document.generate .empty = .ok generated ∧ generated.typeBlocks.length = 5 ∧
      ∀ block ∈ generated.typeBlocks, StatementForm block.body := by
  have hrun : (Document.parse bodilessText).toOption.any (fun document =>
      (document.generate .empty).toOption.any fun generated =>
        decide (generated.typeBlocks.length = 5)
          && document.definitions.toList.all fun definition => !definition.isMemberless) = true := by
    decide +kernel
  obtain ⟨document, hparse, hgenerate⟩ := exists_ok_of_any hrun
  obtain ⟨generated, hgenerated, hgood⟩ := exists_ok_of_any hgenerate
  obtain ⟨hlength, hmembers⟩ := Bool.and_eq_true_iff.mp hgood
  obtain ⟨-, hiff⟩ := generate_writes_statements hparse hgenerated
  refine ⟨document, generated, hparse, hgenerated, of_decide_eq_true hlength, hiff.mp ?_⟩
  exact fun definition hmem => Bool.not_eq_true' _ ▸ List.all_eq_true.mp hmembers definition hmem

/-- **A union without members** is a schema that is accepted, and the module
of types has a block for it that is no statement. -/
theorem exists_choice_of_none :
    ∃ document generated, Document.parse "union U" = .ok document ∧
      document.generate .empty = .ok generated ∧
      ∃ block ∈ generated.typeBlocks, block.body = "U = Union[]" ∧ ¬StatementForm block.body := by
  have hrun : (Document.parse "union U").toOption.any (fun document =>
      (document.generate .empty).toOption.any fun generated =>
        generated.typeBlocks.any fun block => block.body == "U = Union[]") = true := by
    decide +kernel
  obtain ⟨document, hparse, hgenerate⟩ := exists_ok_of_any hrun
  obtain ⟨generated, hgenerated, hany⟩ := exists_ok_of_any hgenerate
  obtain ⟨block, hblock, hbody⟩ := List.any_eq_true.mp hany
  have hbody := eq_of_beq hbody
  have hname : IsIdentifier "U" := by decide
  exact ⟨document, generated, hparse, hgenerated, block, hblock, hbody,
    hbody ▸ StatementForm.not_choice_nil hname⟩

end Document

end SchemaScaffold
