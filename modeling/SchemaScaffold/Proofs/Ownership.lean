import SchemaScaffold.Proofs.Linking

/-!
# Whose type a name is

Whoever has a type already gives its name to a run, with the module that
provides it. The first stage goes by that, for what was given lies on top of
the scope of the document. But a definition with a declaration is declared
all the same, and after the stage its name belongs to the module of types,
like every name that a stage declares. So the second stage may read one and
the same name differently.

`Document.generate_attributes` says which stage attributes a given name to
which module, for every reference to it. The two agree just if the name is
not declared, as the name of a scalar or of a type that the document does
not have, or was given to the module of types in the first place.
`Document.attributes_differently` is a schema for which they do not agree:
the modules it has speak of two different classes under one name.
-/

namespace SchemaScaffold

variable {scope : Scope} {name module : String}

/-- **Whether references to a name lead to a module**: every type that
stands for a reference to the name has it at its core, provided by the
module. -/
def LeadTo (name module : String) (leaves : List String) (types : List TypeExpr) : Prop :=
  List.Forall₂ (fun leaf type => leaf = name → type.core = .imported name module) leaves types

/-- What a scope provides is what references lead to that are read in it. -/
theorem leadTo_of_map_core {leaves : List String} {types : List TypeExpr}
    (hname : scope.moduleOf? name = some module)
    (h : types.map TypeExpr.core = leaves.map scope.meaning) : LeadTo name module leaves types := by
  have hcores : List.Forall₂ Eq (leaves.map scope.meaning) (types.map TypeExpr.core) := by
    rw [h]
    exact List.forall₂_refl _
  rw [List.forall₂_map_left_iff, List.forall₂_map_right_iff] at hcores
  refine hcores.imp fun leaf type hcore hleaf => ?_
  rw [← hcore, hleaf, Scope.meaning, Scope.meaning?_of_module hname]
  rfl

/-! ## The types of a signature -/

/-- The types of the signature of a stub, in the order of the schema: that of
the result, and then those of the parameters. -/
def Stub.signature (stub : Stub) : List TypeExpr :=
  stub.returnType :: stub.parameters.map Parameter.type

/-- **The types of the signatures** of a binding. -/
def Binding.signatures : Binding → List TypeExpr
  | .object it => it.stubs.flatMap Stub.signature
  | .enumeration _ => []

/-- Each type of a signature has the meaning of its reference at the
core. -/
theorem Field.map_core_signature (scope : Scope) (field : Field) :
    (field.toStub scope).signature.map TypeExpr.core
      = (field.signature.map TypeRef.leaf).map scope.meaning := by
  rw [Stub.signature, signature, List.map_cons, List.map_cons, List.map_cons]
  refine congrArg₂ List.cons (field.type.core_typeIn scope) ?_
  simp only [toStub, List.map_map]
  exact List.map_congr_left fun input _ => Binding.core_toParameter scope input

/-- **Each type of the signatures of a binding** has the meaning of its
reference at the core. -/
theorem Binding.map_core_signatures {definition : Definition} {binding : Binding}
    (h : definition.binding? scope = some binding) :
    binding.signatures.map TypeExpr.core
      = (definition.signatures.map TypeRef.leaf).map scope.meaning := by
  cases definition with
  | object it =>
    cases h
    simp only [signatures, Definition.signatures, ObjectType.toBinding, List.map_flatMap,
      List.flatMap_map, Field.map_core_signature]
  | enumeration it =>
    cases h
    rfl
  | _ => cases h

namespace Document

variable {document : Document} {given : Scope} {generated : Generated}

/-- **Where references lead in the module of types**: where the scope of the
document says. -/
theorem leadTo_declarationsIn (hname : scope.moduleOf? name = some module) :
    List.Forall₂ (fun definition declaration =>
        definition.declaredName? = some declaration.name ∧
        LeadTo name module definition.partNames declaration.partTypes)
      (document.definitions.toList.filter fun definition => definition.declaredName?.isSome)
      (document.declarationsIn scope) := by
  refine forall₂_declarationsIn fun definition _ declaration h => ?_
  exact ⟨Definition.declaredName?_eq h,
    leadTo_of_map_core hname (Declaration.map_core_partTypes h)⟩

/-- **Where references lead in the module of resolvers**: where its scope
says. -/
theorem leadTo_bindingsIn (hname : scope.moduleOf? name = some module) :
    List.Forall₂ (fun definition binding =>
        definition.boundName?.map snakeCase = some binding.name ∧
        LeadTo name module (definition.signatures.map TypeRef.leaf) binding.signatures)
      (document.definitions.toList.filter fun definition => definition.boundName?.isSome)
      (document.bindingsIn scope) := by
  refine forall₂_bindingsIn fun definition _ binding h => ?_
  exact ⟨Definition.boundName?_eq h, leadTo_of_map_core hname (Binding.map_core_signatures h)⟩

/-- What was given is on top of the scope of a document. -/
theorem moduleOf?_scope_of_given (hname : given.moduleOf? name = some module) :
    (document.scope given).moduleOf? name = some module := by
  rw [moduleOf?_scope, hname]
  rfl

/-- What was given decides in the final scope, unless the name is
declared. -/
theorem moduleOf?_finalScope_of_given (document : Document)
    (hname : given.moduleOf? name = some module) :
    (document.finalScope given).moduleOf? name
      = some (if name ∈ document.declaredNames then Stage.types.module else module) := by
  rw [moduleOf?_finalScope, moduleOf?_scope_of_given hname]
  split <;> rfl

/-- **Whose type a given name is.** In the module of types every reference to
the name leads to the module that was given for it. In the module of
resolvers every reference leads to where the scope has the name at the end
of the run, and that is the module given, unless the name is declared: then
it is the module of types. So the two modules mean the same type by the name
just if it is not declared, or was given to the module of types. -/
theorem generate_attributes (hname : given.moduleOf? name = some module)
    (h : document.generate given = .ok generated) :
    ∃ owner, generated.scope.moduleOf? name = some owner ∧
      owner = (if name ∈ document.declaredNames then Stage.types.module else module) ∧
      (owner = module ↔ name ∉ document.declaredNames ∨ module = Stage.types.module) ∧
      (∃ declarations, document.declarations given = .ok declarations ∧
        generated.typeBlocks = declarations.map Declaration.block ∧
        List.Forall₂ (fun definition declaration =>
            definition.declaredName? = some declaration.name ∧
            LeadTo name module definition.partNames declaration.partTypes)
          (document.definitions.toList.filter fun definition => definition.declaredName?.isSome)
          declarations) ∧
      ∃ bindings, document.bindings generated.scope = .ok bindings ∧
        generated.resolverBlocks = Binding.blocks bindings ∧
        List.Forall₂ (fun definition binding =>
            definition.boundName?.map snakeCase = some binding.name ∧
            LeadTo name owner (definition.signatures.map TypeRef.leaf) binding.signatures)
          (document.definitions.toList.filter fun definition => definition.boundName?.isSome)
          bindings := by
  obtain ⟨hdeclarations, hbindings, rfl⟩ := generate_eq_ok.mp h
  have hfinal := moduleOf?_finalScope_of_given document hname
  refine ⟨_, hfinal, rfl, ?_, ⟨_, hdeclarations, rfl, ?_⟩, _, hbindings, rfl, ?_⟩
  · by_cases hdeclared : name ∈ document.declaredNames
    · simp [hdeclared, eq_comm]
    · simp [hdeclared]
  · exact leadTo_declarationsIn (moduleOf?_scope_of_given hname)
  · exact leadTo_bindingsIn hfinal

/-- The scalar of the library was given to another module, and stays there in
both modules; its enumeration was, too, but it is declared. -/
theorem generate_attributes_library :
    ∃ generated, library.generate libraryScope = .ok generated ∧
      libraryScope.moduleOf? "Date" = some "datetime" ∧
      generated.scope.moduleOf? "Date" = some "datetime" ∧
      libraryScope.moduleOf? "Genre" = some "models" ∧
      generated.scope.moduleOf? "Genre" = some ".types" := by
  have hdate : libraryScope.moduleOf? "Date" = some "datetime" := by decide
  have hgenre : libraryScope.moduleOf? "Genre" = some "models" := by decide
  obtain ⟨generated, hgenerated⟩ := exists_generate_library
  obtain ⟨_, hdateEnd, rfl, -⟩ := generate_attributes hdate hgenerated
  obtain ⟨_, hgenreEnd, rfl, -⟩ := generate_attributes hgenre hgenerated
  exact ⟨generated, hgenerated, hdate, hdateEnd.trans (by decide), hgenre,
    hgenreEnd.trans (by decide)⟩

/-- A schema with an enumeration that an attribute and a resolver are of. -/
def paintText : String :=
  "enum Color \x7b RED \x7d type Paint \x7b shade: Color mix(other: Color): Color \x7d"

/-- A module for the enumeration. -/
def paintScope : Scope := .ofList [("Color", "models")]

/-- **An enumeration that another module was given for** is declared all the
same. The module of types imports it from there for the attribute of the
paint, and the module of resolvers imports the one that was declared. -/
theorem attributes_differently :
    ∃ document generated, Document.parse paintText = .ok document ∧
      document.generate paintScope = .ok generated ∧
      paintScope.moduleOf? "Color" = some "models" ∧
      generated.scope.moduleOf? "Color" = some ".types" ∧
      (generated.header .types).Lists ⟨"Color", "models"⟩ ∧
      (generated.header .resolvers).Lists ⟨"Color", ".types"⟩ ∧
      ¬(generated.header .resolvers).Lists ⟨"Color", "models"⟩ := by
  have hrun : (Document.parse paintText).toOption.any (fun document =>
      (document.generate paintScope).toOption.any fun generated => decide
        (generated.scope.moduleOf? "Color" = some ".types" ∧
          (generated.header .types).Lists ⟨"Color", "models"⟩ ∧
          (generated.header .resolvers).Lists ⟨"Color", ".types"⟩ ∧
          ¬(generated.header .resolvers).Lists ⟨"Color", "models"⟩)) = true := by
    decide +kernel
  obtain ⟨document, hparse, hgenerate⟩ := exists_ok_of_any hrun
  obtain ⟨generated, hgenerated, hgood⟩ := exists_ok_of_any hgenerate
  exact ⟨document, generated, hparse, hgenerated, by decide, of_decide_eq_true hgood⟩

end Document

end SchemaScaffold
