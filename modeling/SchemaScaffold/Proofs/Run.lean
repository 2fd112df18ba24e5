import SchemaScaffold.Proofs.Result

/-!
# A run in closed form

Between the stages of a run the scope grows by whatever names the blocks
of the finished stage import from its own module. What those names are can
only be seen from the blocks; but where they come from is settled by the
scope they were read in. An import is one that the stage has whatever the
schema says, or one that the scope **explains** – it gives the name that
module – or else it is the declared name itself
(`Declaration.explains_or_self`, `Binding.explains`).

So the first stage adds the names it declares, and no others
(`Document.afterStage_types`), and the second adds nothing at all
(`Document.afterStage_resolvers`). What is left of the threading is
`Document.generate_eq`: a run is a pass over the declarations in the scope
of the document, and then one over the bindings in its final scope.
-/

namespace SchemaScaffold

variable {scope : Scope} {i : Import} {name : String} {type : TypeExpr}

/-- **The modules that generated text imports from** whatever the schema
says. -/
def foreignModules : List String :=
  ["typing", "uuid", "decimal", "dataclasses", "enum", "ariadne", "graphql"]

/-- No stage makes a foreign module. -/
theorem Stage.module_notMem_foreignModules (stage : Stage) : stage.module ∉ foreignModules := by
  cases stage <;> decide

/-- **The imports that a stage may need** whatever the schema says: those of
the wrappers, those of what stands for a scalar that every schema has, and
those of what its blocks are made with. -/
def Stage.support (stage : Stage) : List Import :=
  TypeExpr.wrapperImports ++ [⟨"UUID", "uuid"⟩, ⟨"Decimal", "decimal"⟩] ++
    match stage with
    | types =>
      [⟨"dataclass", "dataclasses"⟩, ⟨"Protocol", "typing"⟩, ⟨"Enum", "enum"⟩, ⟨"Union", "typing"⟩]
    | resolvers =>
      [⟨"ObjectType", "ariadne"⟩, ⟨"EnumType", "ariadne"⟩, ⟨"QueryType", "ariadne"⟩,
        ⟨"MutationType", "ariadne"⟩, ⟨"GraphQLResolveInfo", "graphql"⟩]

/-- What a stage may need anyhow is from foreign modules. -/
theorem Stage.module_mem_foreignModules {stage : Stage} (h : i ∈ stage.support) :
    i.module ∈ foreignModules := by
  have hforeign : ∀ i ∈ stage.support, i.module ∈ foreignModules := by
    cases stage <;> decide
  exact hforeign i h

/-- A name that a stage may need is imported as what it may need. -/
theorem Stage.mem_support_of_imported {stage : Stage} {head module : String}
    (hsupport : ⟨head, module⟩ ∈ stage.support) (h : i ∈ (TypeExpr.imported head module).imports) :
    i ∈ stage.support := by
  rw [List.mem_singleton.mp h]
  exact hsupport

namespace Scope

/-- **An import that a scope explains**, in a stage: one that the stage may
need anyhow, or one from the module that the scope gives the name. -/
def Explains (scope : Scope) (stage : Stage) (i : Import) : Prop :=
  i ∈ stage.support ∨ scope.moduleOf? i.name = some i.module

/-- **An import that a scope accounts for**: one from a foreign module, or
one from the module that the scope gives the name. -/
def Accounts (scope : Scope) (i : Import) : Prop :=
  i.module ∈ foreignModules ∨ scope.moduleOf? i.name = some i.module

variable {stage : Stage}

/-- Of the modules of the stages, a scope accounts for what it says. -/
theorem Accounts.moduleOf?_eq (h : scope.Accounts ⟨name, stage.module⟩) :
    scope.moduleOf? name = some stage.module :=
  h.resolve_left stage.module_notMem_foreignModules

theorem Explains.accounts (h : scope.Explains stage i) : scope.Accounts i :=
  h.imp_left Stage.module_mem_foreignModules

/-- What stands for a scalar that every schema has is among what a stage may
need. -/
theorem mem_support_of_builtinScalar (htype : builtinScalar? name = some type)
    (h : i ∈ type.imports) : i ∈ stage.support := by
  unfold builtinScalar? at htype
  repeat' split at htype
  all_goals cases htype
  · exact stage.mem_support_of_imported (by cases stage <;> decide) h
  · cases h
  · exact stage.mem_support_of_imported (by cases stage <;> decide) h
  · cases h
  · cases h

/-- **What the meaning of a name imports** is something that a stage may need
anyhow, or the name from where the scope says. -/
theorem mem_support_or_of_mem_imports_meaning (stage : Stage)
    (h : i ∈ (scope.meaning name).imports) :
    i ∈ stage.support ∨ i.name = name ∧ scope.moduleOf? name = some i.module := by
  rw [meaning] at h
  cases hmodule : scope.moduleOf? name with
  | some module =>
    rw [meaning?_of_module hmodule] at h
    rw [List.mem_singleton.mp h]
    exact .inr ⟨rfl, rfl⟩
  | none =>
    rw [meaning?_of_none hmodule] at h
    cases htype : builtinScalar? name with
    | none =>
      rw [htype] at h
      cases h
    | some type =>
      rw [htype] at h
      exact .inl (mem_support_of_builtinScalar htype h)

theorem explains_meaning (h : i ∈ (scope.meaning name).imports) : scope.Explains stage i := by
  refine (mem_support_or_of_mem_imports_meaning stage h).imp_right fun ⟨hname, hmodule⟩ => ?_
  rw [hname, hmodule]

theorem explains_of_core (hcore : type.core = scope.meaning name) (h : i ∈ type.imports) :
    scope.Explains stage i := by
  obtain hwrapper | hi := TypeExpr.mem_imports_wrapper_or_core h
  · exact .inl (List.mem_append_left _ (List.mem_append_left _ hwrapper))
  · rw [hcore] at hi
    exact explains_meaning hi

theorem explains_bare (h : i ∈ (TypeExpr.bare name (scope.moduleOf? name)).imports) :
    scope.Explains stage i := by
  cases hmodule : scope.moduleOf? name with
  | none =>
    rw [hmodule] at h
    cases h
  | some module =>
    rw [hmodule] at h
    rw [List.mem_singleton.mp h]
    exact .inr hmodule

end Scope

/-! ## The first stage -/

namespace Declaration

variable {definition : Definition} {declaration : Declaration}

/-- **The parts of a declaration** have the meaning of some name at their
core. -/
theorem exists_core_partTypes (h : definition.declaration? scope = some declaration)
    (htype : type ∈ declaration.partTypes) : ∃ name, type.core = scope.meaning name := by
  have hcore : type.core ∈ definition.partNames.map scope.meaning :=
    map_core_partTypes h ▸ List.mem_map_of_mem htype
  obtain ⟨name, -, hname⟩ := List.mem_map.mp hcore
  exact ⟨name, hname.symm⟩

/-- Whatever a declaration is made with is among what the stage may need. -/
theorem mem_support (h : i ∈ declaration.support.imports) : i ∈ Stage.types.support := by
  cases declaration <;> exact Stage.mem_support_of_imported (by decide) h

/-- **What the block of a declaration imports** is the declared name, if
the scope does not explain it. -/
theorem explains_or_self (h : definition.declaration? scope = some declaration)
    (hi : i ∈ declaration.block.imports) :
    scope.Explains .types i ∨ i = ⟨declaration.name, Stage.types.module⟩ := by
  obtain ⟨type, htype, hi⟩ := List.mem_flatMap.mp hi
  obtain hpart | hrest := List.mem_append.mp htype
  · obtain ⟨name, hcore⟩ := exists_core_partTypes h hpart
    exact .inl (Scope.explains_of_core hcore hi)
  · obtain rfl | hself := List.mem_cons.mp hrest
    · exact .inl (.inl (mem_support hi))
    · rw [List.mem_singleton.mp hself] at hi
      exact .inr (List.mem_singleton.mp hi)

theorem self_mem_imports (declaration : Declaration) :
    ⟨declaration.name, Stage.types.module⟩ ∈ declaration.block.imports :=
  List.mem_flatMap.mpr ⟨declaration.self,
    List.mem_append_right _ (List.mem_cons_of_mem _ (List.mem_singleton.mpr rfl)),
    List.mem_singleton.mpr rfl⟩

end Declaration

namespace Document

/-- **After the first stage the scope is the final one.** -/
theorem afterStage_types (document : Document) (given : Scope) :
    (document.scope given).afterStage .types
        ((document.declarationsIn (document.scope given)).map Declaration.block)
      = document.finalScope given := by
  refine Scope.ext fun name => ?_
  rw [Scope.moduleOf?_afterStage, moduleOf?_finalScope]
  by_cases hdeclared : name ∈ document.declaredNames
  · rw [if_pos hdeclared, if_pos]
    rw [← map_name_declarationsIn document (document.scope given)] at hdeclared
    obtain ⟨declaration, hdeclaration, rfl⟩ := List.mem_map.mp hdeclared
    exact List.mem_flatMap.mpr ⟨declaration.block, List.mem_map.mpr ⟨declaration, hdeclaration, rfl⟩,
      declaration.self_mem_imports⟩
  · rw [if_neg hdeclared]
    split
    · next himports =>
      obtain ⟨block, hblock, hi⟩ := List.mem_flatMap.mp himports
      obtain ⟨declaration, hdeclaration, rfl⟩ := List.mem_map.mp hblock
      obtain ⟨definition, -, htotal⟩ := List.mem_filterMap.mp hdeclaration
      obtain hexplains | hself := Declaration.explains_or_self htotal hi
      · exact hexplains.accounts.moduleOf?_eq.symm
      · -- the name would be that of a declaration after all
        have hname : name = declaration.name := congrArg Import.name hself
        rw [← map_name_declarationsIn document (document.scope given), hname] at hdeclared
        exact absurd (List.mem_map.mpr ⟨declaration, hdeclaration, rfl⟩) hdeclared
    · rfl

end Document

/-! ## The second stage -/

namespace Binding

/-- A parameter has the meaning of the leaf of its argument at its core,
with a default or without. -/
theorem core_toParameter (scope : Scope) (input : InputValue) :
    (input.toParameter scope).type.core = scope.meaning input.type.leaf := by
  unfold InputValue.toParameter
  cases input.default? with
  | none => exact TypeRef.core_typeIn scope input.type
  | some value =>
    show (input.type.typeIn scope).required.core = _
    rw [TypeExpr.core_required, TypeRef.core_typeIn]

/-- **The types a stub uses** are what it is told about the request and
those of the signature of its field. -/
theorem mem_usedTypes_toStub {field : Field} (htype : type ∈ (field.toStub scope).usedTypes) :
    type = Stub.infoType ∨ ∃ t ∈ field.signature, type.core = scope.meaning t.leaf := by
  refine (List.mem_cons.mp htype).imp id fun htype => ?_
  obtain hparameter | hreturn := List.mem_append.mp htype
  · rw [Field.toStub, List.map_map] at hparameter
    obtain ⟨input, hinput, rfl⟩ := List.mem_map.mp hparameter
    exact ⟨input.type, List.mem_cons_of_mem _ (List.mem_map.mpr ⟨input, hinput, rfl⟩),
      core_toParameter scope input⟩
  · rw [List.mem_singleton.mp hreturn]
    exact ⟨field.type, List.mem_cons_self, field.type.core_typeIn scope⟩

theorem explains_toStub {field : Field} (htype : type ∈ (field.toStub scope).usedTypes)
    (hi : i ∈ type.imports) : scope.Explains .resolvers i := by
  obtain rfl | ⟨t, -, hcore⟩ := mem_usedTypes_toStub htype
  · exact .inl (Stage.mem_support_of_imported (by decide) hi)
  · exact Scope.explains_of_core hcore hi

/-- Whatever makes a binding is among what the stage may need. -/
theorem maker_mem_support (kind : BindingKind) :
    ⟨kind.maker, "ariadne"⟩ ∈ Stage.resolvers.support := by
  cases kind <;> decide

theorem explains_toBinding {object : ObjectType} (htype : type ∈ (object.toBinding scope).usedTypes)
    (hi : i ∈ type.imports) : scope.Explains .resolvers i := by
  obtain rfl | htype := List.mem_cons.mp htype
  · exact .inl (Stage.mem_support_of_imported (maker_mem_support _) hi)
  · obtain hparent | hstub := List.mem_append.mp htype
    · have hparent := Option.mem_toList.mp hparent
      simp only [ObjectType.toBinding, ObjectType.parentIn?] at hparent
      split at hparent
      · cases hparent
      · cases hparent
        exact Scope.explains_bare hi
    · obtain ⟨stub, hstub, htype⟩ := List.mem_flatMap.mp hstub
      obtain ⟨field, -, rfl⟩ := List.mem_map.mp hstub
      exact explains_toStub htype hi

/-- **What the block of a binding imports** is explained by the
scope. -/
theorem explains {document : Document} {binding : Binding}
    (h : binding ∈ document.bindingsIn scope) (himports : i ∈ binding.block.imports) :
    scope.Explains .resolvers i := by
  obtain ⟨type, htype, hi⟩ := List.mem_flatMap.mp himports
  obtain ⟨it, -, rfl⟩ | ⟨it, -, rfl⟩ := Document.mem_bindingsIn.mp h
  · exact explains_toBinding htype hi
  · obtain rfl | htarget := List.mem_cons.mp htype
    · exact .inl (Stage.mem_support_of_imported (by decide) hi)
    · rw [List.mem_singleton.mp htarget] at hi
      exact Scope.explains_bare hi

/-- The registry has no imports, so those of the blocks are those of the
bindings. -/
theorem imports_blocks (bindings : List Binding) :
    Module.imports (blocks bindings) = Module.imports (bindings.map block) := by
  cases bindings with
  | nil => rfl
  | cons binding bindings =>
    rw [blocks, Module.imports, Module.imports, List.flatMap_append]
    · exact List.append_nil _
    · exact List.cons_ne_nil _ _

/-- What the blocks of bindings import, their registry included, is
explained by the scope. -/
theorem explains_blocks {document : Document}
    (h : i ∈ Module.imports (blocks (document.bindingsIn scope))) : scope.Explains .resolvers i := by
  rw [imports_blocks] at h
  obtain ⟨block, hblock, hi⟩ := List.mem_flatMap.mp h
  obtain ⟨binding, hbinding, rfl⟩ := List.mem_map.mp hblock
  exact explains hbinding hi

end Binding

namespace Document

/-- **After the second stage the scope is what it was.** -/
theorem afterStage_resolvers (document : Document) (scope : Scope) :
    scope.afterStage .resolvers (Binding.blocks (document.bindingsIn scope)) = scope := by
  refine Scope.ext fun name => ?_
  rw [Scope.moduleOf?_afterStage]
  split
  · next himports => exact (Binding.explains_blocks himports).accounts.moduleOf?_eq.symm
  · rfl

/-! ## Both stages -/

/-- **What a run makes of a document**, if it makes anything. -/
def result (document : Document) (given : Scope) : Generated :=
  { typeBlocks := (document.declarationsIn (document.scope given)).map Declaration.block
    resolverBlocks := Binding.blocks (document.bindingsIn (document.finalScope given))
    scope := document.finalScope given }

theorem declarations_scope (document : Document) (given : Scope) :
    document.declarations (document.scope given) = document.declarations given := by
  rw [declarations, scope_scope]
  rfl

/-- **A run in closed form.** The declarations are looked at in the scope
of the document and the bindings in its final scope; if nothing is wrong
with either, the result is the total one. -/
theorem generate_eq (document : Document) (given : Scope) :
    document.generate given
      = document.declarations given >>= fun _ =>
          document.bindings (document.finalScope given) >>= fun _ =>
            pure (document.result given) := by
  have htypes : Stage.types.run document (document.scope given)
      = document.declarations given >>= fun found => pure (found.map Declaration.block) := by
    show document.typeBlocks (document.scope given) = _
    rw [typeBlocks, declarations_scope]
  have hresolvers : Stage.resolvers.run document (document.finalScope given)
      = document.bindings (document.finalScope given) >>= fun found =>
          pure (Binding.blocks found) := rfl
  unfold generate
  dsimp only
  rw [htypes]
  cases hdeclarations : document.declarations given with
  | error error => rfl
  | ok declarations =>
    rw [declarations_eq hdeclarations]
    simp only [bind, Except.bind, pure, Except.pure, afterStage_types]
    rw [hresolvers]
    cases hbindings : document.bindings (document.finalScope given) with
    | error error => rfl
    | ok bindings =>
      rw [bindings_eq hbindings]
      simp only [bind, Except.bind, pure, Except.pure, afterStage_resolvers]
      rfl

section Success

variable {document : Document} {given : Scope} {generated : Generated}

/-- **A run succeeds just if nothing is wrong with a declaration or a
binding**, and then the result is the total one. -/
theorem generate_eq_ok : document.generate given = .ok generated ↔
    document.declarations given = .ok (document.declarationsIn (document.scope given)) ∧
    document.bindings (document.finalScope given)
      = .ok (document.bindingsIn (document.finalScope given)) ∧
    generated = document.result given := by
  rw [generate_eq]
  constructor
  · intro h
    obtain ⟨declarations, hdeclarations, hrest⟩ := bind_eq_ok.mp h
    obtain ⟨bindings, hbindings, hok⟩ := bind_eq_ok.mp hrest
    refine ⟨?_, ?_, (Except.ok.inj hok).symm⟩
    · rw [hdeclarations, declarations_eq hdeclarations]
    · rw [hbindings, bindings_eq hbindings]
  · rintro ⟨hdeclarations, hbindings, rfl⟩
    rw [hdeclarations, hbindings]
    rfl

/-- An object or enumeration of the document belongs to the module of
types in the end, unless it is a root object. -/
theorem moduleOf?_finalScope_of_declared {definition : Definition} {name : String}
    (hmem : definition ∈ document.definitions.toList)
    (hname : definition.declaredName? = some name) (given : Scope) :
    (document.finalScope given).moduleOf? name = some Stage.types.module := by
  rw [moduleOf?_finalScope, if_pos]
  exact List.mem_filterMap.mpr ⟨definition, hmem, hname⟩

/-- The objects without values are those of the root names. -/
theorem isRoot_ofObjectName (name : String) :
    (BindingKind.ofObjectName name).isRoot = isRootName name := by
  unfold BindingKind.ofObjectName isRootName
  by_cases hquery : name = "Query"
  · rw [if_pos hquery, hquery]
    rfl
  · by_cases hmutation : name = "Mutation"
    · rw [if_neg hquery, if_pos hmutation, hmutation]
      rfl
    · rw [if_neg hquery, if_neg hmutation, beq_false_of_ne hquery, beq_false_of_ne hmutation]
      rfl

/-- **An object that is bound has values of a type of the module of
types**, unless it is a root object, and then it has none. -/
theorem parent?_of_mem_bindingsIn {it : ObjectBinding}
    (h : .object it ∈ document.bindingsIn (document.finalScope given)) :
    it.parent? = if it.kind.isRoot then none
      else some (.imported it.schemaName Stage.types.module) := by
  obtain ⟨object, hmem, rfl⟩ := object_mem_bindingsIn.mp h
  show object.parentIn? (document.finalScope given)
    = if (BindingKind.ofObjectName object.name).isRoot then none else _
  unfold ObjectType.parentIn?
  split
  · rfl
  · next hroot =>
    rw [isRoot_ofObjectName] at hroot
    rw [moduleOf?_finalScope_of_declared hmem (if_neg hroot)]
    rfl

/-- **An enumeration that is bound belongs to the module of types.** -/
theorem target_of_mem_bindingsIn {it : EnumBinding}
    (h : .enumeration it ∈ document.bindingsIn (document.finalScope given)) :
    it.target = .imported it.schemaName Stage.types.module := by
  obtain ⟨enumeration, hmem, rfl⟩ := enumeration_mem_bindingsIn.mp h
  show TypeExpr.bare enumeration.name ((document.finalScope given).moduleOf? enumeration.name) = _
  rw [moduleOf?_finalScope_of_declared hmem rfl]
  rfl

/-- **The scope of a run, name by name.** At the end of a run a declared
name belongs to the module of types, whatever was given for it; any other
name belongs where it was given to, or else to the module of types if it
is a type of the document at all. Each stage makes what it would make if
it ran alone, the first with what was given and the second with the final
scope – which is the scope after the first stage, because the second one
has nothing to add to it. So whatever is bound, unless it is a root
object, belongs to the module of types. -/
theorem generate_threads_scope (h : document.generate given = .ok generated) :
    (∀ name, generated.scope.moduleOf? name
      = if name ∈ document.declaredNames then some Stage.types.module
        else match given.moduleOf? name with
          | some module => some module
          | none => if name ∈ document.typeNames then some Stage.types.module else none) ∧
    (∃ declarations, document.declarations given = .ok declarations ∧
      generated.typeBlocks = declarations.map Declaration.block ∧
      declarations.map Declaration.name = document.declaredNames) ∧
    document.typeBlocks given = .ok generated.typeBlocks ∧
    document.resolverBlocks generated.scope = .ok generated.resolverBlocks ∧
    (document.scope given).afterStage .types generated.typeBlocks = generated.scope ∧
    generated.scope.afterStage .resolvers generated.resolverBlocks = generated.scope ∧
    ∃ bindings, document.bindings generated.scope = .ok bindings ∧
      generated.resolverBlocks = Binding.blocks bindings ∧
      (∀ it, .object it ∈ bindings → it.parent? = if it.kind.isRoot then none
        else some (.imported it.schemaName Stage.types.module)) ∧
      ∀ it, .enumeration it ∈ bindings →
        it.target = .imported it.schemaName Stage.types.module := by
  obtain ⟨hdeclarations, hbindings, rfl⟩ := generate_eq_ok.mp h
  refine ⟨fun name => ?_, ⟨_, hdeclarations, rfl, map_name_declarationsIn _ _⟩, ?_, ?_,
    afterStage_types document given, afterStage_resolvers document _, _, hbindings, rfl,
    fun it => parent?_of_mem_bindingsIn, fun it => target_of_mem_bindingsIn⟩
  · show (document.finalScope given).moduleOf? name = _
    rw [moduleOf?_finalScope, moduleOf?_scope]
    cases given.moduleOf? name <;> rfl
  · rw [typeBlocks, hdeclarations]
    rfl
  · show document.resolverBlocks (document.finalScope given) = _
    rw [resolverBlocks, hbindings]
    rfl

end Success

/-- The schema of a library, with a type of every kind. -/
def library : Document := .ofList
  [.enumeration { name := "Genre", values := ["POETRY", "PROSE"] },
    .scalar { name := "Date" },
    .interface { name := "Node", fields := [{ name := "id", type := .nonNull (.named "ID") }] },
    .object
      { name := "Book"
        implements := ["Node"]
        fields :=
          [{ name := "id", type := .nonNull (.named "ID") },
            { name := "printedOn", type := .named "Date" },
            { name := "similarBooks"
              type := .list (.nonNull (.named "Book"))
              arguments :=
                [{ name := "ofGenre"
                   type := .named "Genre"
                   default? := some (.enumValue "PROSE") }] }] },
    .union { name := "Item", members := ["Book"] },
    .inputObject { name := "Period", fields := [{ name := "until", type := .named "Date" }] },
    .object
      { name := "Query"
        fields :=
          [{ name := "books"
             type := .nonNull (.list (.named "Book"))
             arguments := [{ name := "printedIn", type := .named "Period" }] }] }]

/-- What is given for the library: a module for its scalar, another one
for its enumeration, and a type it does not have. -/
def libraryScope : Scope :=
  .ofList [("Date", "datetime"), ("Genre", "models"), ("Money", "billing")]

/-- The modules of the library can be generated. -/
theorem exists_generate_library :
    ∃ generated, library.generate libraryScope = .ok generated := by
  rw [← failure?_eq_none]
  decide +kernel

/-- The library with its definitions in the opposite order, so that every
name is used before it is defined. -/
def reversedLibrary : Document := .ofList library.definitions.toList.reverse

/-- At the end of the run for the library its enumeration belongs to the
module of types, although it was given to another; the scalar belongs
where it was given to, and the root object, of which nothing was given, to
the module of types. -/
theorem generate_threads_scope_library :
    ∃ generated, library.generate libraryScope = .ok generated ∧
      generated.scope.moduleOf? "Genre" = some ".types" ∧
      generated.scope.moduleOf? "Date" = some "datetime" ∧
      generated.scope.moduleOf? "Query" = some ".types" ∧
      generated.scope.moduleOf? "Author" = none ∧
      library.resolverBlocks generated.scope = .ok generated.resolverBlocks := by
  obtain ⟨generated, hgenerated⟩ := exists_generate_library
  obtain ⟨hscope, -, -, hresolvers, -⟩ := generate_threads_scope hgenerated
  refine ⟨generated, hgenerated, ?_, ?_, ?_, ?_, hresolvers⟩
  · exact (hscope "Genre").trans (by decide)
  · exact (hscope "Date").trans (by decide)
  · exact (hscope "Query").trans (by decide)
  · exact (hscope "Author").trans (by decide)

end Document

end SchemaScaffold
