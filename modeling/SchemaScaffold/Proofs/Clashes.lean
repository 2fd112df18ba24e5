import SchemaScaffold.Proofs.Closure
import SchemaScaffold.Proofs.References

/-!
# Imports that clash

A generated module imports names of two kinds, and nothing compares the one
with the other. There are those that its stage may need whatever the schema
says, no two of one name (`Stage.support`), and there are the types of the
schema, all from the module of types. If nothing is given there are no
others. So the module of types, which imports nothing from itself,
has every name from one module, and the module of resolvers may have a name
from two.

Then there are the names that a module defines. In the module of types these
are names of the schema as they are. In the module of resolvers they are
made of names in snake case and have no capital letters
(`Document.hasCapital_of_mem_definedNames`), while every import that the
stage may need anyhow has one. `Document.generate_imports` says what can
clash with what, and that nothing does if the schema keeps away from the
names of the imports; `Document.exists_clashing_import` has a schema that
does not.
-/

namespace SchemaScaffold

variable {scope : Scope} {stage : Stage} {i j : Import} {name : String}

/-! ## The names of what is imported anyhow -/

/-- **What a stage may need has its names from one module each.** -/
theorem Stage.eq_of_mem_support (hi : i ∈ stage.support) (hj : j ∈ stage.support)
    (h : i.name = j.name) : i = j := by
  have hnodup : (stage.support.map Import.name).Nodup := by
    cases stage <;> decide
  exact List.inj_on_of_nodup_map hnodup hi hj h

/-- Whether there is a capital letter in a name. -/
def hasCapital (name : String) : Bool := name.toList.any Char.isUpper

@[simp] theorem hasCapital_append (name other : String) :
    hasCapital (name ++ other) = (hasCapital name || hasCapital other) := by
  rw [hasCapital, String.toList_append, List.any_append, hasCapital, hasCapital]

/-- **The snake case of an identifier** has no capital letter. -/
theorem IsIdentifier.hasCapital_snakeCase (h : IsIdentifier name) :
    hasCapital (SchemaScaffold.snakeCase name) = false :=
  List.any_eq_false.mpr fun _ hc => Bool.not_eq_true _ ▸ h.isAscii.notUpper_of_mem_snakeCase hc

/-! ## The names that a module defines -/

namespace Binding

/-- The names of the functions of a binding. -/
def functionNames : Binding → List String
  | object it => it.stubs.map fun stub => "resolve_" ++ it.name ++ "_" ++ stub.name
  | enumeration _ => []

/-- **The names that bindings define** in the module of resolvers: what is
bound, the functions, and the registry. -/
def definedNames (bindings : List Binding) : List String :=
  bindings.map Binding.name ++ bindings.flatMap functionNames ++ ["resolvers"]

end Binding

namespace Document

variable {document : Document}

/-- A binding has the snake case of a name of the document. -/
theorem hasCapital_name (hnames : ∀ name ∈ document.names, IsIdentifier name) {binding : Binding}
    (h : binding ∈ document.bindingsIn scope) : hasCapital binding.name = false := by
  obtain ⟨it, hmem, rfl⟩ | ⟨it, hmem, rfl⟩ := mem_bindingsIn.mp h
  · show hasCapital (snakeCase it.name) = false
    exact (hnames _ (List.mem_flatMap.mpr ⟨_, hmem, List.mem_cons_self⟩)).hasCapital_snakeCase
  · show hasCapital (snakeCase it.name) = false
    exact (hnames _ (List.mem_flatMap.mpr ⟨_, hmem, List.mem_cons_self⟩)).hasCapital_snakeCase

/-- So has a stub. -/
theorem hasCapital_stub (hnames : ∀ name ∈ document.names, IsIdentifier name) {it : ObjectBinding}
    (h : .object it ∈ document.bindingsIn scope) {stub : Stub} (hstub : stub ∈ it.stubs) :
    hasCapital stub.name = false := by
  obtain ⟨object, hmem, rfl⟩ := object_mem_bindingsIn.mp h
  obtain ⟨field, hfield, rfl⟩ := List.mem_map.mp hstub
  show hasCapital (snakeCase field.name) = false
  have hfields : field.name ∈ object.fields.flatMap Field.names :=
    List.mem_flatMap.mpr ⟨field, List.mem_of_mem_filter hfield, List.mem_cons_self⟩
  have hname : field.name ∈ (Definition.object object).names :=
    List.mem_cons_of_mem _ (List.mem_append_right _ hfields)
  exact (hnames _ (List.mem_flatMap.mpr ⟨_, hmem, hname⟩)).hasCapital_snakeCase

/-- **What the module of resolvers defines** has no capital letter in its
name, if the names of the document are identifiers. -/
theorem hasCapital_of_mem_definedNames (hnames : ∀ name ∈ document.names, IsIdentifier name)
    (h : name ∈ Binding.definedNames (document.bindingsIn scope)) : hasCapital name = false := by
  simp only [Binding.definedNames, List.mem_append, List.mem_map, List.mem_flatMap,
    List.mem_singleton] at h
  obtain (⟨binding, hbinding, rfl⟩ | ⟨binding, hbinding, hfunction⟩) | rfl := h
  · exact hasCapital_name hnames hbinding
  · cases binding with
    | object it =>
      obtain ⟨stub, hstub, rfl⟩ := List.mem_map.mp hfunction
      have hobject := hasCapital_name hnames hbinding
      rw [Binding.name] at hobject
      simp only [hasCapital_append, hobject, hasCapital_stub hnames hbinding hstub]
      decide
    | enumeration it => cases hfunction
  · decide

/-! ## What a module imports -/

/-- With nothing given a name belongs to the module of types, if it is that
of a type. -/
theorem moduleOf?_scope_empty (document : Document) (name : String) :
    (document.scope .empty).moduleOf? name
      = if name ∈ document.typeNames then some Stage.types.module else none := by
  rw [moduleOf?_scope, Scope.moduleOf?_empty, Option.none_or]

/-- So it does in the end. -/
theorem moduleOf?_finalScope_empty (document : Document) (name : String) :
    (document.finalScope .empty).moduleOf? name
      = if name ∈ document.typeNames then some Stage.types.module else none := by
  rw [moduleOf?_finalScope, moduleOf?_scope_empty]
  by_cases hdeclared : name ∈ document.declaredNames
  · rw [if_pos hdeclared, if_pos (mem_typeNames_of_mem_declaredNames hdeclared)]
  · rw [if_neg hdeclared]

/-- **What the module of types imports** it may need anyhow. -/
theorem mem_support_of_lists_types (h : ((document.result .empty).header .types).Lists i) :
    i ∈ Stage.types.support := by
  obtain ⟨hmodule, block, hblock, himports⟩ := Generated.lists_header h
  obtain ⟨declaration, hdeclaration, rfl⟩ := List.mem_map.mp hblock
  obtain ⟨definition, -, htotal⟩ := List.mem_filterMap.mp hdeclaration
  obtain (hsupport | hscope) | rfl :=
    Declaration.explains_or_self htotal (List.mem_flatMap.mpr himports)
  · exact hsupport
  · -- the scope knows no other module, and from its own this one imports nothing
    rw [moduleOf?_scope_empty] at hscope
    split at hscope
    · exact absurd (Option.some.inj hscope).symm hmodule
    · cases hscope
  · exact absurd rfl hmodule

/-- **What the module of resolvers imports** it may need anyhow, or it is a
type of the document, from the module of types. -/
theorem mem_support_or_type_of_lists_resolvers
    (h : ((document.result .empty).header .resolvers).Lists i) :
    i ∈ Stage.resolvers.support ∨ i.module = Stage.types.module ∧ i.name ∈ document.typeNames := by
  obtain hsupport | hscope := Binding.explains_blocks (Module.lists_header.mp h).1
  · exact .inl hsupport
  · rw [moduleOf?_finalScope_empty] at hscope
    split at hscope
    · next hname => exact .inr ⟨(Option.some.inj hscope).symm, hname⟩
    · cases hscope

/-- **A name is imported from two modules** only if it is one that the
module of resolvers may need anyhow and that of a type. -/
theorem eq_or_clash_of_lists_resolvers
    (hi : ((document.result .empty).header .resolvers).Lists i)
    (hj : ((document.result .empty).header .resolvers).Lists j) (hname : i.name = j.name) :
    i = j ∨ i.name ∈ Stage.resolvers.support.map Import.name ∧ i.name ∈ document.typeNames := by
  obtain hsupport | ⟨hmodule, htype⟩ := mem_support_or_type_of_lists_resolvers hi
  · obtain hsupport' | ⟨-, htype'⟩ := mem_support_or_type_of_lists_resolvers hj
    · exact .inl (Stage.eq_of_mem_support hsupport hsupport' hname)
    · exact .inr ⟨List.mem_map_of_mem hsupport, hname ▸ htype'⟩
  · obtain hsupport' | ⟨hmodule', -⟩ := mem_support_or_type_of_lists_resolvers hj
    · exact .inr ⟨hname ▸ List.mem_map_of_mem hsupport', htype⟩
    · left
      cases i
      cases j
      exact congrArg₂ Import.mk hname (hmodule.trans hmodule'.symm)

/-- **An imported name is defined in the module of resolvers** only if it is
that of a type without a capital letter. -/
theorem type_of_lists_of_defined (hnames : ∀ name ∈ document.names, IsIdentifier name)
    (hi : ((document.result .empty).header .resolvers).Lists i)
    (hdefined : i.name ∈ Binding.definedNames (document.bindingsIn scope)) :
    i.module = Stage.types.module ∧ i.name ∈ document.typeNames ∧ hasCapital i.name = false := by
  have hcapital := hasCapital_of_mem_definedNames hnames hdefined
  have hsupport : ∀ i ∈ Stage.resolvers.support, hasCapital i.name = true := by decide
  obtain hi | ⟨hmodule, htype⟩ := mem_support_or_type_of_lists_resolvers hi
  · exact absurd (hcapital.symm.trans (hsupport i hi)) Bool.false_ne_true
  · exact ⟨hmodule, htype, hcapital⟩

end Document

/-! ## What can clash -/

/-- **Whether the imports of a module keep clear** of each other and of the
names that it defines. -/
structure ImportHeader.KeepsClear (header : ImportHeader) (defined : List String) : Prop where
  /-- Every name is imported from one module. -/
  once : ∀ i j, header.Lists i → header.Lists j → i.name = j.name → i = j
  /-- No imported name is defined. -/
  apart : ∀ i, header.Lists i → i.name ∉ defined

namespace Document

variable {text : String} {document : Document} {generated : Generated}

/-- **What can clash with what**, if nothing is given. The module of types
imports what it may need anyhow, every name from one module; so an import
can only meet a definition of that name. The module of resolvers imports
what it may need anyhow and types of the document; so a name is from two
modules only if it is one of both, and an imported name is defined there
only if it is that of a type without a capital letter. Hence nothing clashes
in a schema whose types keep away from the names of the imports and have a
capital letter. -/
theorem generate_imports (hparse : Document.parse text = .ok document)
    (h : document.generate .empty = .ok generated) :
    (∃ declarations, document.declarations .empty = .ok declarations ∧
      generated.typeBlocks = declarations.map Declaration.block ∧
      (∀ i, (generated.header .types).Lists i → i ∈ Stage.types.support) ∧
      (∀ i j, (generated.header .types).Lists i → (generated.header .types).Lists j →
        i.name = j.name → i = j) ∧
      ((∀ i ∈ Stage.types.support, i.name ∉ document.typeNames) →
        (generated.header .types).KeepsClear (declarations.map Declaration.name))) ∧
    ∃ bindings, document.bindings generated.scope = .ok bindings ∧
      generated.resolverBlocks = Binding.blocks bindings ∧
      (∀ i, (generated.header .resolvers).Lists i →
        i ∈ Stage.resolvers.support ∨ i.module = Stage.types.module ∧ i.name ∈ document.typeNames) ∧
      (∀ i j, (generated.header .resolvers).Lists i → (generated.header .resolvers).Lists j →
        i.name = j.name → i = j ∨
          i.name ∈ Stage.resolvers.support.map Import.name ∧ i.name ∈ document.typeNames) ∧
      (∀ i, (generated.header .resolvers).Lists i → i.name ∈ Binding.definedNames bindings →
        i.module = Stage.types.module ∧ i.name ∈ document.typeNames ∧ hasCapital i.name = false) ∧
      ((∀ i ∈ Stage.resolvers.support, i.name ∉ document.typeNames) →
        (∀ name ∈ document.typeNames, hasCapital name = true) →
        (generated.header .resolvers).KeepsClear (Binding.definedNames bindings)) := by
  obtain ⟨hdeclarations, hbindings, rfl⟩ := generate_eq_ok.mp h
  have honce (i j) (hi : ((document.result .empty).header .types).Lists i)
      (hj : ((document.result .empty).header .types).Lists j) (hname : i.name = j.name) : i = j :=
    Stage.eq_of_mem_support (mem_support_of_lists_types hi) (mem_support_of_lists_types hj) hname
  have hidentifiers := (isIdentifier_of_parse hparse).1
  refine ⟨⟨_, hdeclarations, rfl, fun i => mem_support_of_lists_types, honce, fun hnames => ?_⟩,
    _, hbindings, rfl, fun i => mem_support_or_type_of_lists_resolvers,
    fun i j => eq_or_clash_of_lists_resolvers, fun i => type_of_lists_of_defined hidentifiers,
    fun hnames hcapitals => ?_⟩
  · refine ⟨honce, fun i hi hdeclared => hnames i (mem_support_of_lists_types hi) ?_⟩
    rw [map_name_declarationsIn] at hdeclared
    exact mem_typeNames_of_mem_declaredNames hdeclared
  · refine ⟨fun i j hi hj hname => (eq_or_clash_of_lists_resolvers hi hj hname).resolve_right ?_,
      fun i hi hname => ?_⟩
    · rintro ⟨hsupport, htype⟩
      obtain ⟨k, hk, hkname⟩ := List.mem_map.mp hsupport
      exact hnames k hk (hkname ▸ htype)
    · obtain ⟨-, htype, hcapital⟩ := type_of_lists_of_defined hidentifiers hi hname
      exact Bool.false_ne_true (hcapital.symm.trans (hcapitals i.name htype))

/-- A schema with names of its own. -/
def ownNamesText : String :=
  "enum Genre \x7b PROSE \x7d type Book \x7b id: ID! like(id: ID, genre: Genre): Book \x7d"

/-- Where a schema has names of its own, nothing clashes in either module. -/
theorem generate_imports_ownNames :
    ∃ document generated declarations bindings, Document.parse ownNamesText = .ok document ∧
      document.generate .empty = .ok generated ∧
      document.declarations .empty = .ok declarations ∧
      document.bindings generated.scope = .ok bindings ∧
      (generated.header .types).KeepsClear (declarations.map Declaration.name) ∧
      (generated.header .resolvers).KeepsClear (Binding.definedNames bindings) := by
  have hrun : (Document.parse ownNamesText).toOption.any (fun document =>
      (document.generate .empty).toOption.any fun _ =>
        decide (document.typeNames = ["Genre", "Book"])) = true := by
    decide +kernel
  obtain ⟨document, hparse, hgenerate⟩ := exists_ok_of_any hrun
  obtain ⟨generated, hgenerated, htypes⟩ := exists_ok_of_any hgenerate
  obtain ⟨⟨declarations, hdeclarations, -, -, -, htypesClear⟩,
    bindings, hbindings, -, -, -, -, hresolversClear⟩ := generate_imports hparse hgenerated
  rw [of_decide_eq_true htypes] at htypesClear hresolversClear
  exact ⟨document, generated, declarations, bindings, hparse, hgenerated, hdeclarations, hbindings,
    htypesClear (by decide), hresolversClear (by decide) (by decide)⟩

/-- A schema with a type that has the name of what stands for a scalar. -/
def uuidText : String := "type UUID \x7b id: ID! like(id: ID): UUID \x7d"

/-- **An import that clashes**: the module of types imports a name that it
defines, and the module of resolvers imports it from two modules. -/
theorem exists_clashing_import :
    ∃ document generated, Document.parse uuidText = .ok document ∧
      document.generate .empty = .ok generated ∧
      (generated.header .types).Lists ⟨"UUID", "uuid"⟩ ∧
      (∃ declarations, document.declarations .empty = .ok declarations ∧
        generated.typeBlocks = declarations.map Declaration.block ∧
        "UUID" ∈ declarations.map Declaration.name) ∧
      (generated.header .resolvers).Lists ⟨"UUID", "uuid"⟩ ∧
      (generated.header .resolvers).Lists ⟨"UUID", ".types"⟩ := by
  have hrun : (Document.parse uuidText).toOption.any (fun document =>
      (document.generate .empty).toOption.any fun generated => decide
        ((generated.header .types).Lists ⟨"UUID", "uuid"⟩ ∧
          "UUID" ∈ document.declaredNames ∧
          (generated.header .resolvers).Lists ⟨"UUID", "uuid"⟩ ∧
          (generated.header .resolvers).Lists ⟨"UUID", ".types"⟩)) = true := by
    decide +kernel
  obtain ⟨document, hparse, hgenerate⟩ := exists_ok_of_any hrun
  obtain ⟨generated, hgenerated, hgood⟩ := exists_ok_of_any hgenerate
  obtain ⟨htypes, hdeclared, hresolvers⟩ := of_decide_eq_true hgood
  obtain ⟨hdeclarations, -, rfl⟩ := generate_eq_ok.mp hgenerated
  rw [← map_name_declarationsIn document (document.scope .empty)] at hdeclared
  exact ⟨document, _, hparse, hgenerated, htypes, ⟨_, hdeclarations, rfl, hdeclared⟩, hresolvers⟩

end Document

end SchemaScaffold
