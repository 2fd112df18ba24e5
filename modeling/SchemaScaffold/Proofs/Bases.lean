import SchemaScaffold.Proofs.Layout
import SchemaScaffold.Proofs.Ownership

/-!
# Bases that are given from elsewhere

A type that a schema names but does not declare may be given to a run, with the
module that provides it, and the generated text imports it from there. For the
type of a field this is so because the reference is looked up, and what is found
is among the types that the block uses. The interfaces of an object take another
way. They are not looked up, and go into the class statement as they are; so
nothing that a header is made of ever comes from them.

What decides is whether the name is *also* that of a part
(`Definition.partNames`). A header lists a name that was given if it is, for any
definition with a declaration, and otherwise only if the name with this module is
one of the few that the module of types may need anyhow
(`Document.mem_partNames_of_lists_types`). An interface is seldom the type of a
field of the very schema that does not have it. As a rule, then, the class
statement names a base that the module neither declares nor imports, and reading
the module fails there (`Document.exists_unbound_base`).
-/

namespace SchemaScaffold

variable {name module : String} {i : Import}

namespace Document

variable {document : Document} {given : Scope} {generated : Generated} {definition : Definition}

/-- **A name that is that of a part** is imported from where it was given. -/
theorem lists_types_of_mem_partNames (hmem : definition ∈ document.definitions.toList)
    (hdeclared : definition.declaredName?.isSome = true) (hpart : name ∈ definition.partNames)
    (hgiven : given.moduleOf? name = some module) (hmodule : module ≠ Stage.types.module) :
    ((document.result given).header .types).Lists ⟨name, module⟩ := by
  obtain ⟨declaration, htotal⟩ := Definition.exists_declaration (document.scope given) hdeclared
  have hcores := Declaration.map_core_partTypes htotal
  obtain ⟨type, htype, hcore⟩ : ∃ type ∈ declaration.partTypes,
      type.core = (document.scope given).meaning name :=
    List.mem_map.mp (hcores ▸ List.mem_map_of_mem hpart)
  have hmeaning : (document.scope given).meaning name = .imported name module := by
    rw [Scope.meaning, Scope.meaning?_of_module (moduleOf?_scope_of_given hgiven)]
    rfl
  have himports : ⟨name, module⟩ ∈ type.imports := by
    refine TypeExpr.mem_imports_of_core ?_
    rw [hcore, hmeaning]
    exact List.mem_singleton.mpr rfl
  refine Module.lists_header.mpr ⟨Module.mem_imports_of_usedTypes (List.mem_map.mpr
    ⟨declaration, List.mem_filterMap.mpr ⟨definition, hmem, htotal⟩, rfl⟩)
    (List.mem_append_left _ htype) himports, hmodule⟩

/-- **What the module of types imports** is something that it may need anyhow,
or the name of a part, from where the scope of the document has it. -/
theorem mem_partNames_of_lists_types (h : ((document.result given).header .types).Lists i) :
    i ∈ Stage.types.support ∨
      (document.scope given).moduleOf? i.name = some i.module ∧
      ∃ definition ∈ document.definitions.toList, definition.declaredName?.isSome = true ∧
        i.name ∈ definition.partNames := by
  obtain ⟨hmodule, block, hblock, type, htype, hi⟩ := Generated.lists_header h
  obtain ⟨declaration, hdeclaration, rfl⟩ := List.mem_map.mp hblock
  obtain ⟨definition, hmem, htotal⟩ := List.mem_filterMap.mp hdeclaration
  obtain hpart | hrest := List.mem_append.mp htype
  · have hcore : type.core ∈ definition.partNames.map (document.scope given).meaning :=
      Declaration.map_core_partTypes htotal ▸ List.mem_map_of_mem hpart
    obtain ⟨name, hname, hmeaning⟩ := List.mem_map.mp hcore
    obtain hwrapper | hi := TypeExpr.mem_imports_wrapper_or_core hi
    · exact .inl (List.mem_append_left _ (List.mem_append_left _ hwrapper))
    · rw [← hmeaning] at hi
      refine (Scope.mem_support_or_of_mem_imports_meaning .types hi).imp_right
        fun ⟨hiname, hscope⟩ => ?_
      rw [hiname]
      exact ⟨hscope, definition, hmem, by rw [Definition.declaredName?_eq htotal]; rfl, hname⟩
  · obtain rfl | hself := List.mem_cons.mp hrest
    · exact .inl (Declaration.mem_support hi)
    · rw [List.mem_singleton.mp hself] at hi
      exact absurd (congrArg Import.module (List.mem_singleton.mp hi)) hmodule

/-- **The class statement of an object** lists its interfaces as they are. -/
theorem exists_block_of_object {it : ObjectType} (hmem : .object it ∈ document.definitions.toList)
    (hroot : isRootName it.name = false) (hbases : it.implements ≠ []) :
    ∃ block ∈ (document.result given).typeBlocks, ∃ lines, block.body = Declaration.classText
      ("@dataclass(frozen=True)\nclass " ++ it.name
        ++ "(" ++ ", ".intercalate it.implements ++ "):")
      lines := by
  obtain ⟨attributes, hrecord⟩ : ∃ attributes,
      .record it.name it.implements attributes ∈ document.declarationsIn (document.scope given) :=
    exists_record_mem hmem hroot
  refine ⟨_, List.mem_map_of_mem hrecord, Declaration.attributeLines attributes, ?_⟩
  have htext : Declaration.basesText it.implements
      = "(" ++ ", ".intercalate it.implements ++ ")" := by
    cases hcases : it.implements with
    | nil => exact absurd hcases hbases
    | cons base bases => rfl
  have hclosing : "):" = ")" ++ ":" := rfl
  rw [Declaration.block, Declaration.text, htext, hclosing]
  simp only [String.append_assoc]

/-- **A base that is given from elsewhere is imported as a part, or not at
all.** Let an object other than a root object list an interface that the
document does not have, but that is given for some module other than that of
types. Then the interface is a base in the class statement of the object, and no
declaration has its name. It is imported from the module given if it is also the
name of a part: the type of an attribute or of a field of an input object, or a
member of a union. And if a name like it is imported at all, it is so for this
reason, or because the module of types may need it anyhow. -/
theorem generate_imports_bases_as_parts {it : ObjectType} {base : String}
    (hmem : .object it ∈ document.definitions.toList) (hroot : isRootName it.name = false)
    (hbase : base ∈ it.implements) (hother : base ∉ document.typeNames)
    (hgiven : given.moduleOf? base = some module) (hmodule : module ≠ Stage.types.module)
    (h : document.generate given = .ok generated) :
    (∃ block ∈ generated.typeBlocks, ∃ lines, block.body = Declaration.classText
      ("@dataclass(frozen=True)\nclass " ++ it.name
        ++ "(" ++ ", ".intercalate it.implements ++ "):")
      lines) ∧
    base ∉ document.declaredNames ∧
    ((∃ definition ∈ document.definitions.toList, definition.declaredName?.isSome = true ∧
        base ∈ definition.partNames) →
      (generated.header .types).Lists ⟨base, module⟩) ∧
    ∀ source, (generated.header .types).Lists ⟨base, source⟩ →
      ⟨base, source⟩ ∈ Stage.types.support ∨
      source = module ∧
        ∃ definition ∈ document.definitions.toList, definition.declaredName?.isSome = true ∧
          base ∈ definition.partNames := by
  obtain ⟨-, -, rfl⟩ := generate_eq_ok.mp h
  refine ⟨exists_block_of_object hmem hroot (List.ne_nil_of_mem hbase), ?_, ?_, ?_⟩
  · exact fun hdeclared => hother (mem_typeNames_of_mem_declaredNames hdeclared)
  · rintro ⟨definition, hdefinition, hdeclared, hpart⟩
    exact lists_types_of_mem_partNames hdefinition hdeclared hpart hgiven hmodule
  · intro source hlists
    refine (mem_partNames_of_lists_types hlists).imp_right fun ⟨hsource, hpart⟩ => ⟨?_, hpart⟩
    rw [moduleOf?_scope_of_given hgiven] at hsource
    exact (Option.some.inj hsource).symm

/-- A book with an interface that its schema does not have. -/
def interfacedBook (fields : List Field) : ObjectType :=
  { name := "Book", implements := ["Node"], fields }

/-- The interface, as another module has it. -/
def nodeScope : Scope := .ofList [("Node", "models")]

/-- **With a field of the interface the book has a base that is imported.** -/
theorem generate_imports_bases_as_parts_next :
    let book := interfacedBook [{ name := "next", type := .named "Node" }]
    ∃ generated, (Document.ofList [.object book]).generate nodeScope = .ok generated ∧
      (∃ block ∈ generated.typeBlocks, ∃ lines, block.body = Declaration.classText
        ("@dataclass(frozen=True)\nclass Book(Node):") lines) ∧
      (generated.header .types).Lists ⟨"Node", "models"⟩ := by
  intro book
  obtain ⟨generated, hgenerated⟩ :
      ∃ generated, (Document.ofList [.object book]).generate nodeScope = .ok generated := by
    rw [← failure?_eq_none]
    decide +kernel
  have hmem : .object book ∈ (Document.ofList [.object book]).definitions.toList := by
    rw [definitions_ofList]
    exact List.mem_singleton.mpr rfl
  have hgiven : nodeScope.moduleOf? "Node" = some "models" := by decide
  obtain ⟨hclass, -, hparts, -⟩ := generate_imports_bases_as_parts hmem (by decide)
    (List.mem_singleton.mpr rfl) (by decide) hgiven (by decide) hgenerated
  have hpart : "Node" ∈ (Definition.object book).partNames := by decide
  exact ⟨generated, hgenerated, hclass, hparts ⟨_, hmem, rfl, hpart⟩⟩

/-- **Without such a field the base is not bound.** The text of the module of
types uses the name of the interface, and neither declares nor imports it. -/
theorem exists_unbound_base :
    let book := interfacedBook [{ name := "id", type := .named "ID" }]
    let document := Document.ofList [.object book]
    .object book ∈ document.definitions.toList ∧ "Node" ∈ book.implements ∧
    "Node" ∉ document.typeNames ∧ nodeScope.moduleOf? "Node" = some "models" ∧
    ∃ generated, document.generate nodeScope = .ok generated ∧
      ¬(generated.header .types).Lists ⟨"Node", "models"⟩ ∧
      generated.text .types = "from dataclasses import dataclass\n" ++
        "from typing import Optional\nfrom uuid import UUID\n\n\n@dataclass(frozen=True)\n" ++
        "class Book(Node):\n    id: Optional[UUID] = None\n" := by
  intro book document
  have hmem : .object book ∈ document.definitions.toList := by
    rw [definitions_ofList]
    exact List.mem_singleton.mpr rfl
  have hrun : (document.generate nodeScope).toOption.any (fun generated => decide
      (¬(generated.header .types).Lists ⟨"Node", "models"⟩ ∧
        generated.text .types = "from dataclasses import dataclass\n" ++
          "from typing import Optional\nfrom uuid import UUID\n\n\n@dataclass(frozen=True)\n" ++
          "class Book(Node):\n    id: Optional[UUID] = None\n")) = true := by
    decide +kernel
  obtain ⟨generated, hgenerated, hgood⟩ := exists_ok_of_any hrun
  exact ⟨hmem, List.mem_singleton.mpr rfl, by decide, by decide, generated, hgenerated,
    of_decide_eq_true hgood⟩

end Document

end SchemaScaffold
