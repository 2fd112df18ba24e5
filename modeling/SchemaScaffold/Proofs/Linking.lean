import SchemaScaffold.Proofs.Checks
import SchemaScaffold.Proofs.Closure
import SchemaScaffold.Sdl.Parse

/-!
# Whether the modules fit together

The module of resolvers imports names from the module of types, and they
had better be there. Two different parts of the generation are at work
here. What the module of types declares is one definition after another,
scalars and root objects left out. What it is *said* to declare is every
type of the document, with what was given on top.

So a name may be imported and not be there, and only two kinds of names
are at risk. A scalar is not, if a module was given for it. That leaves
the root names (`Document.isRootName_of_undeclared`), and of those the
ones that a resolver takes or returns: the values of a root object have
no type, but nothing keeps a signature from naming one
(`Document.mem_imports_bindings`). With both modules before us,
`Document.generate_links` says when they fit together, and
`Document.imports_undeclared_root` is the shortest schema for which they
do not.
-/

namespace SchemaScaffold

variable {scope : Scope} {i : Import} {name : String} {type : TypeExpr}

/-! ## Signatures -/

/-- The references in the signatures of the resolvers of a definition. -/
def Definition.signatures : Definition → List TypeRef
  | .object it => (computedFields it.fields).flatMap Field.signature
  | .interface _ => []
  | .union _ => []
  | .inputObject _ => []
  | .enumeration _ => []
  | .scalar _ => []
  | .schema _ => []
  | .directive _ => []

/-- **The references in the signatures of the resolvers** of a
document. -/
def Document.signatures (document : Document) : List TypeRef :=
  document.definitions.toList.flatMap Definition.signatures

/-- Only objects have resolvers. -/
theorem Document.mem_signatures {document : Document} {t : TypeRef} :
    t ∈ document.signatures ↔ ∃ it, .object it ∈ document.definitions.toList ∧
      ∃ field ∈ computedFields it.fields, t ∈ field.signature := by
  rw [signatures, List.mem_flatMap]
  constructor
  · rintro ⟨definition, hmem, ht⟩
    cases definition with
    | object it => exact ⟨it, hmem, List.mem_flatMap.mp ht⟩
    | _ => cases ht
  · rintro ⟨it, hmem, ht⟩
    exact ⟨_, hmem, List.mem_flatMap.mpr ht⟩

/-- Every reference of a signature is checked in the second stage. -/
theorem Document.reference_mem_checks {document : Document} {t : TypeRef}
    (h : t ∈ document.signatures) : .reference .resolvers t ∈ document.checks := by
  obtain ⟨it, hmem, field, hfield, ht⟩ := mem_signatures.mp h
  refine List.mem_append_right _ (List.mem_flatMap.mpr ⟨_, hmem, ?_⟩)
  refine List.mem_flatMap.mpr ⟨field, hfield, ?_⟩
  obtain rfl | ht := List.mem_cons.mp ht
  · exact List.mem_cons_self
  · obtain ⟨input, hinput, rfl⟩ := List.mem_map.mp ht
    exact List.mem_cons_of_mem _ (List.mem_flatMap.mpr ⟨input, hinput, List.mem_cons_self⟩)

/-- The types of a signature are used by the stub, with a default or
without. -/
theorem Field.exists_usedType {field : Field} {t : TypeRef} (h : t ∈ field.signature) :
    ∃ type ∈ (field.toStub scope).usedTypes, type.core = scope.meaning t.leaf := by
  obtain rfl | h := List.mem_cons.mp h
  · refine ⟨_, List.mem_cons_of_mem _ (List.mem_append_right _ (List.mem_singleton.mpr rfl)), ?_⟩
    exact field.type.core_typeIn scope
  · obtain ⟨input, hinput, rfl⟩ := List.mem_map.mp h
    refine ⟨_, List.mem_cons_of_mem _ (List.mem_append_left _ ?_),
      Binding.core_toParameter scope input⟩
    exact List.mem_map.mpr ⟨_, List.mem_map.mpr ⟨input, hinput, rfl⟩, rfl⟩

/-! ## What is imported -/

/-- A name that a stage's module provides is imported under itself. -/
theorem Scope.eq_of_mem_imports_meaning {stage : Stage} {leaf : String}
    (h : ⟨name, stage.module⟩ ∈ (scope.meaning leaf).imports) : leaf = name := by
  obtain hsupport | ⟨hname, -⟩ := mem_support_or_of_mem_imports_meaning stage h
  · -- what a stage may need anyhow comes from elsewhere
    exact absurd (Stage.module_mem_foreignModules hsupport) stage.module_notMem_foreignModules
  · exact hname.symm

/-- An import from the module of a stage is that of the core. -/
theorem TypeExpr.mem_core_imports {stage : Stage} (h : ⟨name, stage.module⟩ ∈ type.imports) :
    ⟨name, stage.module⟩ ∈ type.core.imports := by
  refine (mem_imports h).resolve_left fun htyping => ?_
  refine stage.module_notMem_foreignModules ?_
  rw [show stage.module = typingModule from htyping]
  decide

/-- What comes from a foreign module comes from no stage. -/
theorem TypeExpr.notMem_imports_imported {stage : Stage} {head module : String}
    (hmodule : module ∈ foreignModules) :
    ⟨name, stage.module⟩ ∉ (imported head module).imports := by
  intro h
  have hname : stage.module = module := congrArg Import.module (List.mem_singleton.mp h)
  exact stage.module_notMem_foreignModules (hname ▸ hmodule)

theorem TypeExpr.eq_of_mem_imports_bare {head module : String} {module? : Option String}
    (h : ⟨name, module⟩ ∈ (bare head module?).imports) : head = name := by
  cases module? with
  | none => cases h
  | some source => exact (congrArg Import.name (List.mem_singleton.mp h)).symm

namespace Document

variable {document : Document} {given : Scope} {generated : Generated}

/-- **What the bindings import from the module of types** is declared
there, or it is the leaf of a reference in a signature. -/
theorem mem_imports_bindings
    (h : ⟨name, Stage.types.module⟩ ∈ Module.imports (Binding.blocks (document.bindingsIn scope))) :
    name ∈ document.declaredNames ∨ ∃ t ∈ document.signatures, t.leaf = name := by
  rw [Binding.imports_blocks] at h
  obtain ⟨block, hblock, himports⟩ := List.mem_flatMap.mp h
  obtain ⟨binding, hbinding, rfl⟩ := List.mem_map.mp hblock
  obtain ⟨type, hused, hi⟩ := List.mem_flatMap.mp himports
  obtain ⟨it, hmem, rfl⟩ | ⟨it, hmem, rfl⟩ := mem_bindingsIn.mp hbinding
  · obtain rfl | htype := List.mem_cons.mp hused
    · exact absurd hi (TypeExpr.notMem_imports_imported (by decide))
    · obtain hparent | hstub := List.mem_append.mp htype
      · -- an object with values is declared, because it is not a root object
        have hparent := Option.mem_toList.mp hparent
        simp only [ObjectType.toBinding, ObjectType.parentIn?, isRoot_ofObjectName] at hparent
        split at hparent
        · cases hparent
        · next hroot =>
          cases hparent
          rw [← TypeExpr.eq_of_mem_imports_bare hi]
          exact .inl (List.mem_filterMap.mpr ⟨_, hmem, if_neg hroot⟩)
      · obtain ⟨stub, hstub, htype⟩ := List.mem_flatMap.mp hstub
        obtain ⟨field, hfield, rfl⟩ := List.mem_map.mp hstub
        obtain rfl | ⟨t, ht, hcore⟩ := Binding.mem_usedTypes_toStub htype
        · exact absurd hi (TypeExpr.notMem_imports_imported (by decide))
        · have hleaf := TypeExpr.mem_core_imports hi
          rw [hcore] at hleaf
          exact .inr ⟨t, mem_signatures.mpr ⟨it, hmem, field, hfield, ht⟩,
            Scope.eq_of_mem_imports_meaning hleaf⟩
  · obtain rfl | htarget := List.mem_cons.mp hused
    · exact absurd hi (TypeExpr.notMem_imports_imported (by decide))
    · rw [List.mem_singleton.mp htarget] at hi
      rw [← TypeExpr.eq_of_mem_imports_bare hi]
      exact .inl (List.mem_filterMap.mpr ⟨_, hmem, rfl⟩)

/-- **The leaf of a reference in a signature is imported** from where the
scope says. -/
theorem leaf_mem_imports {t : TypeRef} {module : String} (h : t ∈ document.signatures)
    (hmodule : scope.moduleOf? t.leaf = some module) :
    ⟨t.leaf, module⟩ ∈ Module.imports (Binding.blocks (document.bindingsIn scope)) := by
  obtain ⟨it, hmem, field, hfield, ht⟩ := mem_signatures.mp h
  obtain ⟨type, htype, hcore⟩ := Field.exists_usedType ht
  have hbinding : .object (it.toBinding scope) ∈ document.bindingsIn scope :=
    object_mem_bindingsIn.mpr ⟨it, hmem, rfl⟩
  have hused : type ∈ (it.toBinding scope).usedTypes :=
    List.mem_cons_of_mem _ (List.mem_append_right _
      (List.mem_flatMap.mpr ⟨_, List.mem_map.mpr ⟨field, hfield, rfl⟩, htype⟩))
  rw [Binding.imports_blocks]
  refine Module.mem_imports_of_usedTypes (List.mem_map.mpr ⟨_, hbinding, rfl⟩) hused ?_
  refine TypeExpr.mem_imports_of_core ?_
  rw [hcore, Scope.meaning, Scope.meaning?_of_module hmodule]
  exact List.mem_singleton.mpr rfl

/-! ## What is missing -/

/-- **A type without a declaration** is a root object, if it is not a
scalar. -/
theorem isRootName_of_undeclared (htype : name ∈ document.typeNames)
    (hdeclared : name ∉ document.declaredNames)
    (hscalar : ∀ it, .scalar it ∈ document.definitions.toList → it.name ≠ name) :
    isRootName name = true := by
  obtain ⟨definition, hmem, hname⟩ := List.mem_filterMap.mp htype
  have hnot (h : definition.declaredName? = some name) : isRootName name = true :=
    absurd (List.mem_filterMap.mpr ⟨definition, hmem, h⟩) hdeclared
  cases definition with
  | object it =>
    cases hname
    by_contra hroot
    exact hroot (hnot (if_neg hroot))
  | inputObject it =>
    cases hname
    by_contra hroot
    exact hroot (hnot (if_neg hroot))
  | interface it => exact hnot hname
  | enumeration it => exact hnot hname
  | union it => exact hnot hname
  | scalar it => exact absurd (Option.some.inj hname) (hscalar it hmem)
  | schema it => cases hname
  | directive it => cases hname

/-- Of the names that belong to the module of types in the end, those that
it does not declare are root names for which nothing was given. -/
theorem isRootName_of_moduleOf?_finalScope
    (hscalars : ∀ it, .scalar it ∈ document.definitions.toList → given.contains it.name = true)
    (hgiven : ∀ name, given.moduleOf? name ≠ some Stage.types.module)
    (hmodule : (document.finalScope given).moduleOf? name = some Stage.types.module)
    (hdeclared : name ∉ document.declaredNames) :
    isRootName name = true ∧ given.contains name = false := by
  rw [moduleOf?_finalScope, if_neg hdeclared, moduleOf?_scope] at hmodule
  cases hname : given.moduleOf? name with
  | some module =>
    rw [hname, Option.some_or, ← hname] at hmodule
    exact absurd hmodule (hgiven name)
  | none =>
    have hcontains : given.contains name = false := by
      unfold Scope.contains Table.contains
      exact Option.isSome_eq_false_iff.mpr (Option.isNone_iff_eq_none.mpr hname)
    rw [hname, Option.none_or] at hmodule
    split at hmodule
    · next htype =>
      refine ⟨isRootName_of_undeclared htype hdeclared fun it hmem heq => ?_, hcontains⟩
      rw [← heq, hscalars it hmem] at hcontains
      cases hcontains
    · cases hmodule

/-- No scalar that every schema has is called like a root object. -/
theorem notMem_builtinNames_of_isRootName (h : isRootName name = true) : name ∉ builtinNames := by
  obtain h | h := Bool.or_eq_true_iff.mp h
  · rw [eq_of_beq h]
    decide
  · rw [eq_of_beq h]
    decide

/-- **A root name that a signature names** belongs to the module of types
in the end, if nothing was given for it. -/
theorem moduleOf?_finalScope_of_root {t : TypeRef} (h : document.generate given = .ok generated)
    (ht : t ∈ document.signatures) (hroot : isRootName t.leaf = true)
    (hcontains : ¬given.contains t.leaf = true) :
    (document.finalScope given).moduleOf? t.leaf = some Stage.types.module := by
  have hpasses := exists_generate_iff.mp ⟨generated, h⟩ _ (reference_mem_checks ht)
  -- the leaf is known to the run, so it can only be known as a type of the document
  have htype : t.leaf ∈ document.typeNames := by
    obtain htype | hknown | hbuiltin := hpasses.1
    · exact htype
    · exact absurd hknown hcontains
    · exact absurd hbuiltin (notMem_builtinNames_of_isRootName hroot)
  have hnone : given.moduleOf? t.leaf = none := Option.not_isSome_iff_eq_none.mp hcontains
  rw [moduleOf?_finalScope, moduleOf?_scope, hnone, Option.none_or, if_pos htype, ite_self]

/-- The header of the module of resolvers lists what the bindings import
from the module of types. -/
theorem lists_header_result :
    ((document.result given).header .resolvers).Lists ⟨name, Stage.types.module⟩ ↔
      ⟨name, Stage.types.module⟩ ∈ Module.imports
        (Binding.blocks (document.bindingsIn (document.finalScope given))) := by
  have hother : Stage.types.module ≠ Stage.resolvers.module := by decide
  exact Module.lists_header.trans (and_iff_left hother)

/-- **When the modules fit together.** Let a module be given for each scalar
of the document, and no name be given to the module of types. Then what the
module of resolvers imports from the module of types is declared there,
unless it is a root name. And root names are not imported without being
declared just if no signature of a resolver names a root object that was
not given to another module. -/
theorem generate_links
    (hscalars : ∀ it, .scalar it ∈ document.definitions.toList → given.contains it.name = true)
    (hgiven : ∀ name, given.moduleOf? name ≠ some Stage.types.module)
    (h : document.generate given = .ok generated) :
    ∃ declarations, document.declarations given = .ok declarations ∧
      generated.typeBlocks = declarations.map Declaration.block ∧
      (∀ name, (generated.header .resolvers).Lists ⟨name, Stage.types.module⟩ →
        name ∈ declarations.map Declaration.name ∨ isRootName name = true) ∧
      ((∀ name, (generated.header .resolvers).Lists ⟨name, Stage.types.module⟩ →
          name ∈ declarations.map Declaration.name) ↔
        ∀ t ∈ document.signatures, isRootName t.leaf = true →
          t.leaf ∈ declarations.map Declaration.name ∨ given.contains t.leaf = true) := by
  obtain ⟨hdeclarations, -, rfl⟩ := generate_eq_ok.mp h
  refine ⟨_, hdeclarations, rfl, ?_⟩
  rw [map_name_declarationsIn]
  refine ⟨fun name hname => ?_, fun hfit t ht hroot => ?_, fun hsignatures name hname => ?_⟩
  · have hmodule := (Binding.explains_blocks (lists_header_result.mp hname)).accounts.moduleOf?_eq
    by_cases hdeclared : name ∈ document.declaredNames
    · exact .inl hdeclared
    · exact .inr (isRootName_of_moduleOf?_finalScope hscalars hgiven hmodule hdeclared).1
  · by_cases hcontains : given.contains t.leaf = true
    · exact .inr hcontains
    · -- then the name is imported, and what is imported is declared by assumption
      have hmodule := moduleOf?_finalScope_of_root h ht hroot hcontains
      exact .inl (hfit t.leaf (lists_header_result.mpr (leaf_mem_imports ht hmodule)))
  · have himports := lists_header_result.mp hname
    obtain hdeclared | ⟨t, ht, rfl⟩ := mem_imports_bindings himports
    · exact hdeclared
    · by_contra hdeclared
      have hmodule := (Binding.explains_blocks himports).accounts.moduleOf?_eq
      obtain ⟨hroot, hcontains⟩ :=
        isRootName_of_moduleOf?_finalScope hscalars hgiven hmodule hdeclared
      obtain hin | hknown := hsignatures t ht hroot
      · exact hdeclared hin
      · exact Bool.false_ne_true (hcontains.symm.trans hknown)

/-- The modules of the library fit together: its scalar was given to
another module, and no signature names its root object. -/
theorem generate_links_library :
    ∃ generated declarations, library.generate libraryScope = .ok generated ∧
      library.declarations libraryScope = .ok declarations ∧
      ∀ name, (generated.header .resolvers).Lists ⟨name, ".types"⟩ →
        name ∈ declarations.map Declaration.name := by
  have hscalars : ∀ it, .scalar it ∈ library.definitions.toList →
      libraryScope.contains it.name = true := by
    have hall : library.definitions.toList.all (fun definition => match definition with
        | .scalar it => libraryScope.contains it.name
        | _ => true) = true := by decide
    exact fun it hmem => List.all_eq_true.mp hall _ hmem
  have hgiven : ∀ name, libraryScope.moduleOf? name ≠ some Stage.types.module :=
    Scope.moduleOf?_ne_of_entries (by decide)
  have hsignatures : ∀ t ∈ library.signatures, isRootName t.leaf = false := by decide
  obtain ⟨generated, hgenerated⟩ := exists_generate_library
  obtain ⟨declarations, hdeclarations, -, -, hfit⟩ := generate_links hscalars hgiven hgenerated
  refine ⟨generated, declarations, hgenerated, hdeclarations, hfit.mpr fun t ht hroot => ?_⟩
  rw [hsignatures t ht] at hroot
  cases hroot

/-- **A root object in a signature** is imported and not declared: the
module of types of this schema has nothing in it at all. -/
theorem imports_undeclared_root :
    ∃ document generated,
      Document.parse "type Query \x7b self(a: Int): Query \x7d" = .ok document ∧
      (∀ it, .scalar it ∉ document.definitions.toList) ∧
      (∀ name, Scope.empty.moduleOf? name ≠ some ".types") ∧
      document.generate .empty = .ok generated ∧
      (generated.header .resolvers).Lists ⟨"Query", ".types"⟩ ∧
      generated.typeBlocks = [] := by
  have hrun : (Document.parse "type Query \x7b self(a: Int): Query \x7d").toOption.any
      (fun document => document.definitions.toList.all (fun definition => definition.kind != "scalar")
        && (document.generate .empty).toOption.any fun generated =>
          decide ((generated.header .resolvers).Lists ⟨"Query", ".types"⟩)
            && generated.typeBlocks.isEmpty) = true := by
    decide +kernel
  obtain ⟨document, hparse, hdocument⟩ := exists_ok_of_any hrun
  obtain ⟨hkinds, hgenerate⟩ := Bool.and_eq_true_iff.mp hdocument
  obtain ⟨generated, hgenerated, hgood⟩ := exists_ok_of_any hgenerate
  obtain ⟨hlists, hempty⟩ := Bool.and_eq_true_iff.mp hgood
  refine ⟨document, generated, hparse, fun it hmem => ?_, fun name => nofun, hgenerated,
    of_decide_eq_true hlists, List.isEmpty_iff.mp hempty⟩
  exact Bool.false_ne_true (List.all_eq_true.mp hkinds _ hmem)

end Document

end SchemaScaffold
