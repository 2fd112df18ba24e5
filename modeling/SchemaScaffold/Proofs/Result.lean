import SchemaScaffold.Proofs.Resolution
import SchemaScaffold.Proofs.Scope

/-!
# What a run makes, without its ways to fail

Each step of the generation either fails or makes something, and *what* it
makes can be said without asking whether it does: the expression for a
reference has the shape of the reference, an attribute has the name and
the expression of its field, and so on up to the blocks of both modules.
This module says it, in total functions of a document and a scope.

For every step there is a lemma that a result, if there is one, is the
total one. They are put together in `Document.declarations_eq` and
`Document.bindings_eq`. From there on, whoever knows that a run succeeds
may forget how it went.

A name that means nothing stands for itself here. No result ever shows it,
because looking such a name up is what fails.
-/

namespace SchemaScaffold

variable {scope : Scope}

/-! ## Types -/

/-- **What a name means**, where a name that means nothing stands for
itself. -/
def Scope.meaning (scope : Scope) (name : String) : TypeExpr :=
  (scope.meaning? name).getD (.builtin name)

/-- The meaning of a name is a plain name. -/
theorem Scope.exists_meaning_eq_bare (scope : Scope) (name : String) :
    ∃ head module?, scope.meaning name = .bare head module? := by
  rw [meaning]
  cases h : scope.meaning? name with
  | none => exact ⟨name, none, rfl⟩
  | some leaf => exact exists_bare_of_meaning h

/-- So it is its own core. -/
@[simp] theorem Scope.core_meaning (scope : Scope) (name : String) :
    (scope.meaning name).core = scope.meaning name := by
  obtain ⟨head, module?, h⟩ := scope.exists_meaning_eq_bare name
  rw [h, TypeExpr.core]

theorem Scope.eq_meaning {name : String} {type : TypeExpr} (h : scope.resolveName name = .ok type) :
    type = scope.meaning name := by
  rw [meaning, resolveName_eq_ok.mp h]
  rfl

/-- **The expression for a reference in a scope.** -/
def TypeRef.typeIn (scope : Scope) (t : TypeRef) : TypeExpr := t.expression (scope.meaning t.leaf)

/-- At the core of the expression is the meaning of the leaf. -/
theorem TypeRef.core_typeIn (scope : Scope) (t : TypeRef) :
    (t.typeIn scope).core = scope.meaning t.leaf := by
  obtain ⟨head, module?, h⟩ := scope.exists_meaning_eq_bare t.leaf
  rw [typeIn, h, core_expression]

theorem TypeRef.eq_typeIn {t : TypeRef} {type : TypeExpr} (h : t.resolve scope = .ok type) :
    type = t.typeIn scope := by
  obtain ⟨leaf, hleaf, -, rfl⟩ := resolve_eq_ok.mp h
  rw [typeIn, Scope.meaning, hleaf]
  rfl

/-! ## Declarations -/

/-- The fields that take no arguments. -/
def plainFields (fields : List Field) : List Field :=
  fields.filter fun field => field.arguments.isEmpty

/-- The fields that take arguments. -/
def computedFields (fields : List Field) : List Field :=
  fields.filter fun field => !field.arguments.isEmpty

/-- **The attribute for a field** of a type. -/
def Field.toAttribute (scope : Scope) (field : Field) : Attribute :=
  { name := snakeCase field.name, type := field.type.typeIn scope }

/-- **The attribute for a field** of an input object. -/
def InputValue.toAttribute (scope : Scope) (input : InputValue) : Attribute :=
  { name := snakeCase input.name, type := input.type.typeIn scope }

/-- **The declaration of a definition** in a scope, if it has one. -/
def Definition.declaration? (scope : Scope) : Definition → Option Declaration
  | .object it =>
    if isRootName it.name then none
    else some (.record it.name it.implements ((plainFields it.fields).map (Field.toAttribute scope)))
  | .inputObject it =>
    if isRootName it.name then none
    else some (.record it.name [] (it.fields.map (InputValue.toAttribute scope)))
  | .interface it => some (.protocol it.name ((plainFields it.fields).map (Field.toAttribute scope)))
  | .enumeration it => some (.enumeration it.name it.values)
  | .union it => some (.union it.name (it.members.map scope.meaning))
  | .scalar _ => none
  | .schema _ => none
  | .directive _ => none

/-- **An object that is declared** is no root object, and is declared as a
record. -/
theorem Definition.declaration?_object {it : ObjectType} {declaration : Declaration}
    (h : (Definition.object it).declaration? scope = some declaration) :
    isRootName it.name = false ∧ declaration
      = .record it.name it.implements ((plainFields it.fields).map (Field.toAttribute scope)) := by
  simp only [declaration?] at h
  split at h
  · cases h
  · next hroot => exact ⟨Bool.eq_false_iff.mpr hroot, (Option.some.inj h).symm⟩

/-- So is an input object. -/
theorem Definition.declaration?_inputObject {it : InputObjectType} {declaration : Declaration}
    (h : (Definition.inputObject it).declaration? scope = some declaration) :
    isRootName it.name = false ∧
      declaration = .record it.name [] (it.fields.map (InputValue.toAttribute scope)) := by
  simp only [declaration?] at h
  split at h
  · cases h
  · next hroot => exact ⟨Bool.eq_false_iff.mpr hroot, (Option.some.inj h).symm⟩

/-- **The declarations of a document** in a scope. -/
def Document.declarationsIn (document : Document) (scope : Scope) : List Declaration :=
  document.definitions.toList.filterMap (Definition.declaration? scope)

/-- **The names that the declaration of a definition refers to**, one for
each of its parts. -/
def Definition.partNames : Definition → List String
  | .object it => (plainFields it.fields).map fun field => field.type.leaf
  | .inputObject it => it.fields.map fun input => input.type.leaf
  | .interface it => (plainFields it.fields).map fun field => field.type.leaf
  | .union it => it.members
  | .enumeration _ => []
  | .scalar _ => []
  | .schema _ => []
  | .directive _ => []

/-- **Each part of a declaration** has the meaning of its name at the
core. -/
theorem Declaration.map_core_partTypes {definition : Definition} {declaration : Declaration}
    (h : definition.declaration? scope = some declaration) :
    declaration.partTypes.map TypeExpr.core = definition.partNames.map scope.meaning := by
  have hfields (fields : List Field) :
      ((fields.map (Field.toAttribute scope)).map Attribute.type).map TypeExpr.core
        = (fields.map fun field => field.type.leaf).map scope.meaning := by
    simp only [List.map_map]
    exact List.map_congr_left fun field _ => field.type.core_typeIn scope
  cases definition with
  | object it =>
    obtain ⟨-, rfl⟩ := Definition.declaration?_object h
    exact hfields _
  | inputObject it =>
    obtain ⟨-, rfl⟩ := Definition.declaration?_inputObject h
    simp only [partTypes, Definition.partNames, List.map_map]
    exact List.map_congr_left fun input _ => input.type.core_typeIn scope
  | interface it =>
    cases h
    exact hfields _
  | union it =>
    cases h
    simp only [partTypes, Definition.partNames, List.map_map]
    exact List.map_congr_left fun name _ => scope.core_meaning name
  | enumeration it =>
    cases h
    rfl
  | scalar it => cases h
  | schema it => cases h
  | directive it => cases h

/-- The name of the declaration does not depend on the scope. -/
theorem Definition.name_declaration? (scope : Scope) (definition : Definition) :
    (definition.declaration? scope).map Declaration.name = definition.declaredName? := by
  cases definition with
  | object it =>
    simp only [declaration?, declaredName?]
    split <;> rfl
  | inputObject it =>
    simp only [declaration?, declaredName?]
    split <;> rfl
  | _ => rfl

/-- A definition with a name to declare has a declaration. -/
theorem Definition.exists_declaration (scope : Scope) {definition : Definition}
    (h : definition.declaredName?.isSome = true) :
    ∃ declaration, definition.declaration? scope = some declaration := by
  rw [← definition.name_declaration? scope, Option.isSome_map] at h
  exact Option.isSome_iff_exists.mp h

theorem Definition.declaredName?_eq {definition : Definition} {declaration : Declaration}
    (h : definition.declaration? scope = some declaration) :
    definition.declaredName? = some declaration.name := by
  rw [← definition.name_declaration? scope, h, Option.map_some]

/-- **What a document declares corresponds to the definitions that are
declared**, one by one. -/
theorem Document.forall₂_declarationsIn {document : Document} {R : Definition → Declaration → Prop}
    (hR : ∀ definition ∈ document.definitions.toList, ∀ declaration,
      definition.declaration? scope = some declaration → R definition declaration) :
    List.Forall₂ R
      (document.definitions.toList.filter fun definition => definition.declaredName?.isSome)
      (document.declarationsIn scope) := by
  refine forall₂_filterMap (fun definition => ?_) hR
  rw [← definition.name_declaration? scope, Option.isSome_map]

/-- **What a document declares** has the declared names, in order. -/
theorem Document.map_name_declarationsIn (document : Document) (scope : Scope) :
    (document.declarationsIn scope).map Declaration.name = document.declaredNames := by
  rw [declarationsIn, declaredNames, List.map_filterMap]
  simp only [Definition.name_declaration?]

theorem Attribute.eq_of_ofField {field : Field} {made : Attribute}
    (h : Attribute.ofField scope field = .ok made) : made = field.toAttribute scope := by
  obtain ⟨type, htype, hok⟩ := bind_eq_ok.mp h
  rw [← Except.ok.inj hok, TypeRef.eq_typeIn htype]
  rfl

theorem Attribute.eq_of_ofInput {input : InputValue} {made : Attribute}
    (h : Attribute.ofInput scope input = .ok made) : made = input.toAttribute scope := by
  obtain ⟨type, htype, hok⟩ := bind_eq_ok.mp h
  rw [← Except.ok.inj hok, TypeRef.eq_typeIn htype]
  rfl

/-- Attributes are made of the fields that take no arguments. -/
theorem Attribute.ofFields_eq (scope : Scope) (fields : List Field) :
    Attribute.ofFields scope fields = (plainFields fields).mapM (Attribute.ofField scope) := by
  have hplain : (fun field : Field => !field.hasArguments) = fun field => field.arguments.isEmpty :=
    funext fun _ => Bool.not_not _
  rw [Attribute.ofFields, plainFields, hplain]

theorem Attribute.eq_of_ofFields {fields : List Field} {attributes : List Attribute}
    (h : Attribute.ofFields scope fields = .ok attributes) :
    attributes = (plainFields fields).map (Field.toAttribute scope) := by
  rw [Attribute.ofFields_eq] at h
  exact mapM_eq_map (fun _ _ _ => Attribute.eq_of_ofField) h

/-- **A definition is declared as its total declaration says**, if its
declaration does not fail. -/
theorem Declaration.eq_of_ofDefinition? {definition : Definition} {found : Option Declaration}
    (h : Declaration.ofDefinition? scope definition = .ok found) :
    found = definition.declaration? scope := by
  cases definition with
  | object it =>
    simp only [Declaration.ofDefinition?] at h
    rw [Definition.declaration?]
    split at h
    · next hroot => rw [← Except.ok.inj h, if_pos hroot]
    · next hroot =>
      obtain ⟨attributes, hattributes, hok⟩ := bind_eq_ok.mp h
      rw [← Except.ok.inj hok, if_neg hroot, Attribute.eq_of_ofFields hattributes]
  | inputObject it =>
    simp only [Declaration.ofDefinition?] at h
    rw [Definition.declaration?]
    split at h
    · next hroot => rw [← Except.ok.inj h, if_pos hroot]
    · next hroot =>
      obtain ⟨attributes, hattributes, hok⟩ := bind_eq_ok.mp h
      rw [← Except.ok.inj hok, if_neg hroot,
        mapM_eq_map (fun _ _ _ => Attribute.eq_of_ofInput) hattributes]
  | interface it =>
    obtain ⟨attributes, hattributes, hok⟩ := bind_eq_ok.mp h
    rw [← Except.ok.inj hok, Attribute.eq_of_ofFields hattributes]
    rfl
  | union it =>
    obtain ⟨members, hmembers, hok⟩ := bind_eq_ok.mp h
    rw [← Except.ok.inj hok, mapM_eq_map (fun _ _ _ => Scope.eq_meaning) hmembers]
    rfl
  | enumeration it => exact (Except.ok.inj h).symm
  | scalar it => exact (Except.ok.inj h).symm
  | schema it => exact (Except.ok.inj h).symm
  | directive it => exact (Except.ok.inj h).symm

/-- **The declarations of a document are the total ones**, if none of them
fails. -/
theorem Document.declarations_eq {document : Document} {given : Scope}
    {declarations : List Declaration} (h : document.declarations given = .ok declarations) :
    declarations = document.declarationsIn (document.scope given) := by
  obtain ⟨found, hfound, hok⟩ := bind_eq_ok.mp h
  have hmap := mapM_eq_map (fun _ _ _ => Declaration.eq_of_ofDefinition?) hfound
  rw [← Except.ok.inj hok, hmap, List.filterMap_map]
  rfl

/-! ## Bindings -/

/-- The name of a value of an enumeration. -/
def Value.enumName : Value → String
  | .enumValue name => name
  | _ => ""

/-- **The parameter for an argument.** With a default, its type is the one
without the option, and so is the type of the default. -/
def InputValue.toParameter (scope : Scope) (input : InputValue) : Parameter :=
  match input.default? with
  | none => { schemaName := input.name, type := input.type.typeIn scope, default? := none }
  | some value =>
    { schemaName := input.name
      type := (input.type.typeIn scope).required
      default? := some { type := (input.type.typeIn scope).required, value := value.enumName } }

/-- **The stub for a field.** -/
def Field.toStub (scope : Scope) (field : Field) : Stub :=
  { schemaName := field.name
    returnType := field.type.typeIn scope
    parameters := field.arguments.map (InputValue.toParameter scope) }

/-- **The references in the signature of a field**: those of its result and
of its arguments. -/
def Field.signature (field : Field) : List TypeRef :=
  field.type :: field.arguments.map InputValue.type

/-- The type of the values of an object; a root object has none. -/
def ObjectType.parentIn? (scope : Scope) (object : ObjectType) : Option TypeExpr :=
  if (BindingKind.ofObjectName object.name).isRoot then none
  else some (.bare object.name (scope.moduleOf? object.name))

/-- **The binding of an object.** -/
def ObjectType.toBinding (scope : Scope) (object : ObjectType) : ObjectBinding :=
  { schemaName := object.name
    parent? := object.parentIn? scope
    stubs := (computedFields object.fields).map (Field.toStub scope) }

/-- **The binding of an enumeration.** -/
def EnumType.toBinding (scope : Scope) (enumeration : EnumType) : EnumBinding :=
  { schemaName := enumeration.name
    target := .bare enumeration.name (scope.moduleOf? enumeration.name) }

/-- **The binding of a definition** in a scope, if it has one. -/
def Definition.binding? (scope : Scope) : Definition → Option Binding
  | .object it => some (.object (it.toBinding scope))
  | .enumeration it => some (.enumeration (it.toBinding scope))
  | .interface _ => none
  | .union _ => none
  | .inputObject _ => none
  | .scalar _ => none
  | .schema _ => none
  | .directive _ => none

/-- **The schema name that a definition is bound for**, if it is bound. -/
def Definition.boundName? : Definition → Option String
  | .object it => some it.name
  | .enumeration it => some it.name
  | .interface _ => none
  | .union _ => none
  | .inputObject _ => none
  | .scalar _ => none
  | .schema _ => none
  | .directive _ => none

/-- The name of the binding does not depend on the scope. -/
theorem Definition.name_binding? (scope : Scope) (definition : Definition) :
    (definition.binding? scope).map Binding.name = definition.boundName?.map snakeCase := by
  cases definition <;> rfl

/-- **The bindings of a document** in a scope. -/
def Document.bindingsIn (document : Document) (scope : Scope) : List Binding :=
  document.definitions.toList.filterMap (Definition.binding? scope)

/-- **The names that a document is bound for**, in order of definition. -/
def Document.boundNames (document : Document) : List String :=
  document.definitions.toList.filterMap Definition.boundName?

theorem Document.map_name_bindingsIn (document : Document) (scope : Scope) :
    (document.bindingsIn scope).map Binding.name = document.boundNames.map snakeCase := by
  rw [bindingsIn, boundNames, List.map_filterMap, List.map_filterMap]
  simp only [Definition.name_binding?]

theorem Definition.boundName?_eq {definition : Definition} {binding : Binding}
    (h : definition.binding? scope = some binding) :
    definition.boundName?.map snakeCase = some binding.name := by
  rw [← definition.name_binding? scope, h, Option.map_some]

/-- **What is bound corresponds to the definitions that are bound**, one by
one. -/
theorem Document.forall₂_bindingsIn {document : Document} {R : Definition → Binding → Prop}
    (hR : ∀ definition ∈ document.definitions.toList, ∀ binding,
      definition.binding? scope = some binding → R definition binding) :
    List.Forall₂ R
      (document.definitions.toList.filter fun definition => definition.boundName?.isSome)
      (document.bindingsIn scope) := by
  refine forall₂_filterMap (fun definition => ?_) hR
  rw [← Option.isSome_map (f := snakeCase), ← definition.name_binding? scope, Option.isSome_map]

/-- **What is bound** are the objects and the enumerations of a document. -/
theorem Document.mem_bindingsIn {document : Document} {binding : Binding} :
    binding ∈ document.bindingsIn scope ↔
      (∃ it, .object it ∈ document.definitions.toList ∧ binding = .object (it.toBinding scope)) ∨
      ∃ it, .enumeration it ∈ document.definitions.toList ∧
        binding = .enumeration (it.toBinding scope) := by
  rw [bindingsIn, List.mem_filterMap]
  constructor
  · rintro ⟨definition, hmem, htotal⟩
    cases definition with
    | object it => exact .inl ⟨it, hmem, (Option.some.inj htotal).symm⟩
    | enumeration it => exact .inr ⟨it, hmem, (Option.some.inj htotal).symm⟩
    | _ => cases htotal
  · rintro (⟨it, hmem, rfl⟩ | ⟨it, hmem, rfl⟩)
    · exact ⟨_, hmem, rfl⟩
    · exact ⟨_, hmem, rfl⟩

theorem Document.object_mem_bindingsIn {document : Document} {binding : ObjectBinding} :
    .object binding ∈ document.bindingsIn scope ↔
      ∃ it, .object it ∈ document.definitions.toList ∧ it.toBinding scope = binding := by
  simp [mem_bindingsIn, eq_comm]

theorem Document.enumeration_mem_bindingsIn {document : Document} {binding : EnumBinding} :
    .enumeration binding ∈ document.bindingsIn scope ↔
      ∃ it, .enumeration it ∈ document.definitions.toList ∧ it.toBinding scope = binding := by
  simp [mem_bindingsIn, eq_comm]

theorem EnumDefault.eq_of_ofValue {argument : String} {value : Value} {type : TypeExpr}
    {default : EnumDefault} (h : EnumDefault.ofValue argument value type = .ok default) :
    default = { type, value := value.enumName } := by
  unfold EnumDefault.ofValue at h
  split at h
  · exact (Except.ok.inj h).symm
  · cases h
  · cases h

theorem Parameter.eq_of_ofInput {input : InputValue} {parameter : Parameter}
    (h : Parameter.ofInput scope input = .ok parameter) : parameter = input.toParameter scope := by
  obtain ⟨type, htype, hrest⟩ := bind_eq_ok.mp h
  rw [InputValue.toParameter, ← TypeRef.eq_typeIn htype]
  cases hdefault : input.default? with
  | none =>
    rw [hdefault] at hrest
    exact (Except.ok.inj hrest).symm
  | some value =>
    rw [hdefault] at hrest
    obtain ⟨default, hvalue, hok⟩ := bind_eq_ok.mp hrest
    rw [← Except.ok.inj hok, EnumDefault.eq_of_ofValue hvalue]

theorem Stub.eq_of_ofField {field : Field} {stub : Stub} (h : Stub.ofField scope field = .ok stub) :
    stub = field.toStub scope := by
  obtain ⟨returnType, hreturn, hrest⟩ := bind_eq_ok.mp h
  obtain ⟨parameters, hparameters, hok⟩ := bind_eq_ok.mp hrest
  rw [← Except.ok.inj hok, TypeRef.eq_typeIn hreturn,
    mapM_eq_map (fun _ _ _ => Parameter.eq_of_ofInput) hparameters]
  rfl

theorem Scope.eq_of_provided {name : String} {type : TypeExpr}
    (h : scope.provided name = .ok type) : type = .bare name (scope.moduleOf? name) := by
  unfold provided at h
  split at h
  · next hmodule => rw [← Except.ok.inj h, hmodule]; rfl
  · cases h

theorem ObjectBinding.eq_of_parentOf {object : ObjectType} {parent? : Option TypeExpr}
    (h : ObjectBinding.parentOf scope object = .ok parent?) :
    parent? = object.parentIn? scope := by
  unfold parentOf at h
  unfold ObjectType.parentIn?
  split at h
  · next hroot => rw [if_pos hroot, Except.ok.inj h]
  · next hroot =>
    obtain ⟨type, htype, hok⟩ := bind_eq_ok.mp h
    rw [if_neg hroot, ← Except.ok.inj hok, Scope.eq_of_provided htype]

theorem ObjectBinding.eq_of_ofObject {object : ObjectType} {binding : ObjectBinding}
    (h : ObjectBinding.ofObject scope object = .ok binding) : binding = object.toBinding scope := by
  obtain ⟨parent?, hparent, hrest⟩ := bind_eq_ok.mp h
  obtain ⟨stubs, hstubs, hok⟩ := bind_eq_ok.mp hrest
  rw [← Except.ok.inj hok, eq_of_parentOf hparent,
    mapM_eq_map (fun _ _ _ => Stub.eq_of_ofField) hstubs]
  rfl

/-- **A definition is bound as its total binding says**, if its binding
does not fail. -/
theorem Binding.eq_of_ofDefinition? {definition : Definition} {found : Option Binding}
    (h : Binding.ofDefinition? scope definition = .ok found) :
    found = definition.binding? scope := by
  cases definition with
  | object it =>
    obtain ⟨binding, hbinding, hok⟩ := bind_eq_ok.mp h
    rw [← Except.ok.inj hok, ObjectBinding.eq_of_ofObject hbinding]
    rfl
  | enumeration it =>
    obtain ⟨binding, hbinding, hok⟩ := bind_eq_ok.mp h
    obtain ⟨target, htarget, hmade⟩ := bind_eq_ok.mp hbinding
    rw [← Except.ok.inj hok, ← Except.ok.inj hmade, Scope.eq_of_provided htarget]
    rfl
  | interface it => exact (Except.ok.inj h).symm
  | union it => exact (Except.ok.inj h).symm
  | inputObject it => exact (Except.ok.inj h).symm
  | scalar it => exact (Except.ok.inj h).symm
  | schema it => exact (Except.ok.inj h).symm
  | directive it => exact (Except.ok.inj h).symm

/-- **The bindings of a document are the total ones**, if none of them
fails. -/
theorem Document.bindings_eq {document : Document} {bindings : List Binding}
    (h : document.bindings scope = .ok bindings) : bindings = document.bindingsIn scope := by
  obtain ⟨found, hfound, hok⟩ := bind_eq_ok.mp h
  have hmap := mapM_eq_map (fun _ _ _ => Binding.eq_of_ofDefinition?) hfound
  rw [← Except.ok.inj hok, hmap, List.filterMap_map]
  rfl

end SchemaScaffold
