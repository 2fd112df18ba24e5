import SchemaScaffold.Proofs.Run

/-!
# What a run checks, and in which order

Whether a document has modules depends on a list of **checks** that can be
written down before anything is run (`Document.checks`). The first stage
checks the attributes of records and protocols and the members of unions.
The second one goes over the fields that take arguments, checking the
result of each field first and then every argument with its default.

The list says nothing of the scope that a check is made in, although the
two stages differ in it. A name means something in either scope or in
neither (`Document.meaning?_stageScope_eq_none`), so passing is a matter
of the document and of what was given. What the scope does decide is how
the error reads where a reference excludes null twice, for that error
shows the expression found so far.

Everything else a run looks up is a type of the document and is there
(`Document.failure?_parentOf`). So a run does nothing but make the checks
in their order, up to the first that fails
(`Document.generate_checks_in_order`).
-/

namespace SchemaScaffold

/-- **One check of a run.** -/
inductive Check where
  /-- That a reference has an expression. -/
  | reference (stage : Stage) (type : TypeRef)
  /-- That a member of a union means something. -/
  | member (name : String)
  /-- That the default of an argument has an expression. -/
  | default (argument : String) (value : Value) (type : TypeRef)

/-! ## The checks of a document -/

/-- What the first stage checks of a definition. -/
def Definition.typeChecks : Definition → List Check
  | .object it =>
    if isRootName it.name then []
    else (plainFields it.fields).map fun field => .reference .types field.type
  | .inputObject it =>
    if isRootName it.name then []
    else it.fields.map fun input => .reference .types input.type
  | .interface it => (plainFields it.fields).map fun field => .reference .types field.type
  | .union it => it.members.map .member
  | .enumeration _ => []
  | .scalar _ => []
  | .schema _ => []
  | .directive _ => []

/-- What is checked of an argument: its type, and then its default. -/
def InputValue.checks (input : InputValue) : List Check :=
  [.reference .resolvers input.type]
    ++ input.default?.toList.map fun value => .default input.name value input.type

/-- What is checked of a field with arguments: its type, and then each
argument. -/
def Field.checks (field : Field) : List Check :=
  [.reference .resolvers field.type] ++ field.arguments.flatMap InputValue.checks

/-- What the second stage checks of a definition. -/
def Definition.resolverChecks : Definition → List Check
  | .object it => (computedFields it.fields).flatMap Field.checks
  | .interface _ => []
  | .union _ => []
  | .inputObject _ => []
  | .enumeration _ => []
  | .scalar _ => []
  | .schema _ => []
  | .directive _ => []

/-- **The checks of a document**, those of the first stage before those of
the second. -/
def Document.checks (document : Document) : List Check :=
  document.definitions.toList.flatMap Definition.typeChecks
    ++ document.definitions.toList.flatMap Definition.resolverChecks

/-! ## Passing a check -/

/-- The names of the scalars every schema has. -/
def builtinNames : List String := ["ID", "String", "Float", "Int", "Boolean"]

theorem builtinScalar?_eq_none {name : String} :
    builtinScalar? name = none ↔ name ∉ builtinNames := by
  unfold builtinScalar? builtinNames
  repeat' split
  all_goals simp_all

/-- **Whether a name means something**: as a type of the document, as a
name that was given, or as a scalar every schema has. -/
def Document.Knows (document : Document) (given : Scope) (name : String) : Prop :=
  name ∈ document.typeNames ∨ given.contains name = true ∨ name ∈ builtinNames

instance (document : Document) (given : Scope) (name : String) :
    Decidable (document.Knows given name) :=
  inferInstanceAs (Decidable (_ ∨ _ ∨ _))

/-- Whether a reference is a list where it does not exclude null. -/
def TypeRef.isList : TypeRef → Bool
  | named _ => false
  | nonNull inner => inner.isList
  | list _ => true

namespace Check

/-- **Whether a check passes.** -/
def Passes (document : Document) (given : Scope) : Check → Prop
  | reference _ type => document.Knows given type.leaf ∧ type.isSound = true
  | member name => document.Knows given name
  | default _ value type => (∃ name, value = .enumValue name) ∧ type.isList = false

/-- **The error of a check** that fails. -/
def fault? (document : Document) (given : Scope) : Check → Option GenerateError
  | reference stage type =>
    if document.Knows given type.leaf then
      type.doubled?.map fun inner =>
        .doubleExclusion (.nonNull inner) (inner.typeIn (document.stageScope given stage))
    else some (.unresolvedType type.leaf)
  | member name => if document.Knows given name then none else some (.unresolvedType name)
  | default argument value type =>
    match value with
    | .enumValue _ =>
      if type.isList then some (.unsupportedDefault argument "enum (for Sequence)") else none
    | _ => some (.unsupportedDefault argument value.kind)

variable {document : Document} {given : Scope}

/-- **A check passes just if it has no error.** -/
theorem fault?_eq_none {check : Check} :
    check.fault? document given = none ↔ check.Passes document given := by
  cases check with
  | reference stage type =>
    rw [fault?, Passes]
    by_cases hknows : document.Knows given type.leaf
    · rw [if_pos hknows, Option.map_eq_none_iff, TypeRef.doubled?_eq_none]
      exact ⟨fun h => ⟨hknows, h⟩, And.right⟩
    · rw [if_neg hknows]
      exact ⟨fun h => (by cases h), fun h => absurd h.1 hknows⟩
  | member name =>
    rw [fault?, Passes]
    by_cases hknows : document.Knows given name
    · rw [if_pos hknows]
      exact ⟨fun _ => hknows, fun _ => rfl⟩
    · rw [if_neg hknows]
      exact ⟨fun h => (by cases h), fun h => absurd h hknows⟩
  | default argument value type =>
    cases value with
    | enumValue name =>
      rw [fault?, Passes]
      cases hlist : type.isList with
      | true => exact ⟨fun h => (by cases h), fun h => (by cases h.2)⟩
      | false => exact ⟨fun _ => ⟨⟨name, rfl⟩, rfl⟩, fun _ => rfl⟩
    | _ =>
      constructor
      · intro h
        cases h
      · rintro ⟨⟨name, h⟩, -⟩
        cases h

end Check

/-! ## Making a check -/

namespace TypeRef

/-- The innermost doubled exclusion has the leaf of the whole. -/
theorem leaf_of_doubled? {t inner : TypeRef} (h : t.doubled? = some inner) :
    inner.leaf = t.leaf := by
  induction t with
  | named name => cases h
  | list t ih => exact ih h
  | nonNull t ih =>
    rw [doubled?, Option.or_eq_some_iff] at h
    obtain h | ⟨-, h⟩ := h
    · exact ih h
    · split at h
      · cases h
        rfl
      · cases h

/-- **A default is for a plain name**, unless the reference is a list. -/
theorem exists_required_typeIn (scope : Scope) (t : TypeRef) :
    if t.isList then ∃ inner, (t.typeIn scope).required = .sequence inner
    else ∃ head module?, (t.typeIn scope).required = .bare head module? := by
  obtain ⟨head, module?, hmeaning⟩ := scope.exists_meaning_eq_bare t.leaf
  rw [typeIn, hmeaning]
  -- the leaf is fixed now, so that the levels can be taken off one by one
  clear hmeaning
  induction t with
  | named name => exact ⟨head, module?, rfl⟩
  | list inner ih => exact ⟨_, rfl⟩
  | nonNull inner ih =>
    rw [isList, expression]
    split at ih
    · next hlist =>
      obtain ⟨type, htype⟩ := ih
      rw [if_pos hlist, htype]
      exact ⟨type, rfl⟩
    · next hlist =>
      obtain ⟨name, owner?, htype⟩ := ih
      rw [if_neg hlist, htype]
      exact ⟨name, owner?, rfl⟩

end TypeRef

namespace Document

variable {document : Document} {given : Scope}

/-- **In the scopes of both stages the same names mean something.** -/
theorem meaning?_stageScope_eq_none (document : Document) (given : Scope) (stage : Stage)
    (name : String) :
    (document.stageScope given stage).meaning? name = none ↔ ¬document.Knows given name := by
  have hscope : (document.scope given).moduleOf? name = none ↔
      ¬(name ∈ document.typeNames ∨ given.contains name = true) := by
    rw [moduleOf?_scope, Option.or_eq_none_iff, not_or, and_comm, Scope.contains_eq_true,
      ← Option.isSome_iff_exists, Option.not_isSome_iff_eq_none]
    refine and_congr_left fun _ => ?_
    split <;> simp_all
  -- the stages differ in where a name belongs, not in which names there are
  have hstage : (document.stageScope given stage).moduleOf? name = none ↔
      (document.scope given).moduleOf? name = none := by
    cases stage with
    | types => exact Iff.rfl
    | resolvers =>
      have hcontains := contains_finalScope document given name
      unfold Scope.contains Table.contains at hcontains
      rw [← Option.not_isSome_iff_eq_none, ← Option.not_isSome_iff_eq_none]
      exact not_congr (Bool.eq_iff_iff.mp hcontains)
  rw [Knows, ← or_assoc, not_or, ← hscope, ← hstage, ← builtinScalar?_eq_none]
  cases hmodule : (document.stageScope given stage).moduleOf? name with
  | some module =>
    rw [Scope.meaning?_of_module hmodule]
    exact ⟨fun h => (by cases h), fun h => (by cases h.1)⟩
  | none =>
    rw [Scope.meaning?_of_none hmodule]
    exact ⟨fun h => ⟨rfl, h⟩, And.right⟩

/-- **Resolving a reference makes its check.** -/
theorem failure?_resolve (stage : Stage) (t : TypeRef) :
    failure? (t.resolve (document.stageScope given stage))
      = (Check.reference stage t).fault? document given := by
  rw [TypeRef.resolve_eq, Check.fault?]
  cases hmeaning : (document.stageScope given stage).meaning? t.leaf with
  | none => rw [if_neg ((meaning?_stageScope_eq_none document given stage t.leaf).mp hmeaning)]; rfl
  | some leaf =>
    have hknows : document.Knows given t.leaf := by
      by_contra hnot
      rw [(meaning?_stageScope_eq_none document given stage t.leaf).mpr hnot] at hmeaning
      cases hmeaning
    rw [if_pos hknows]
    cases hdoubled : t.doubled? with
    | none => rfl
    | some inner =>
      show some _ = some (GenerateError.doubleExclusion _ (inner.expression _))
      rw [TypeRef.leaf_of_doubled? hdoubled, Scope.meaning, hmeaning]
      rfl

theorem failure?_resolveName (name : String) :
    failure? ((document.scope given).resolveName name)
      = (Check.member name).fault? document given := by
  rw [Scope.resolveName_eq, Check.fault?]
  have hmeaning := meaning?_stageScope_eq_none document given .types name
  rw [stageScope] at hmeaning
  split
  · next leaf hleaf =>
    rw [if_pos]
    · rfl
    · by_contra hnot
      rw [hmeaning.mpr hnot] at hleaf
      cases hleaf
  · next hnone => rw [if_neg (hmeaning.mp hnone)]; rfl

theorem failure?_ofValue (document : Document) (given scope : Scope) (argument : String)
    (value : Value) (t : TypeRef) :
    failure? (EnumDefault.ofValue argument value (t.typeIn scope).required)
      = (Check.default argument value t).fault? document given := by
  have htype := t.exists_required_typeIn scope
  cases value with
  | enumValue name =>
    rw [Check.fault?]
    split at htype
    · next hlist =>
      obtain ⟨inner, hinner⟩ := htype
      rw [hinner, if_pos hlist]
      rfl
    · next hlist =>
      obtain ⟨head, module?, hbare⟩ := htype
      rw [hbare, if_neg hlist]
      rfl
  | _ => rfl

/-! ## The first stage -/

section FirstStage

theorem failure?_ofFields (fields : List Field) :
    failure? (Attribute.ofFields (document.scope given) fields)
      = ((plainFields fields).map fun field => Check.reference .types field.type).findSome?
          (Check.fault? document given) := by
  rw [Attribute.ofFields_eq, List.map_eq_flatMap]
  refine failure?_mapM fun field _ => ?_
  rw [List.findSome?_singleton, ← failure?_resolve]
  exact failure?_bind_pure _ _

theorem failure?_ofInputs (inputs : List InputValue) :
    failure? (inputs.mapM (Attribute.ofInput (document.scope given)))
      = (inputs.map fun input => Check.reference .types input.type).findSome?
          (Check.fault? document given) := by
  rw [List.map_eq_flatMap]
  refine failure?_mapM fun input _ => ?_
  rw [List.findSome?_singleton, ← failure?_resolve]
  exact failure?_bind_pure _ _

/-- **Declaring a definition makes its checks.** -/
theorem failure?_declaration (definition : Definition) :
    failure? (Declaration.ofDefinition? (document.scope given) definition)
      = definition.typeChecks.findSome? (Check.fault? document given) := by
  cases definition with
  | object it =>
    rw [Declaration.ofDefinition?, Definition.typeChecks]
    split
    · rfl
    · rw [← failure?_ofFields]
      exact failure?_bind_pure _ _
  | inputObject it =>
    rw [Declaration.ofDefinition?, Definition.typeChecks]
    split
    · rfl
    · rw [← failure?_ofInputs]
      exact failure?_bind_pure _ _
  | interface it =>
    rw [Definition.typeChecks, ← failure?_ofFields]
    exact failure?_bind_pure _ _
  | union it =>
    have hmembers : failure? (it.members.mapM (document.scope given).resolveName)
        = (it.members.map Check.member).findSome? (Check.fault? document given) := by
      rw [List.map_eq_flatMap]
      refine failure?_mapM fun name _ => ?_
      rw [List.findSome?_singleton, failure?_resolveName]
    rw [Definition.typeChecks, ← hmembers]
    exact failure?_bind_pure _ _
  | enumeration it => rfl
  | scalar it => rfl
  | schema it => rfl
  | directive it => rfl

end FirstStage

/-! ## The second stage -/

section SecondStage

theorem failure?_ofInput (input : InputValue) :
    failure? (Parameter.ofInput (document.finalScope given) input)
      = input.checks.findSome? (Check.fault? document given) := by
  rw [InputValue.checks, List.findSome?_append, List.findSome?_singleton, ← failure?_resolve]
  refine failure?_bind fun type htype => ?_
  cases input.default? with
  | none => rfl
  | some value =>
    show failure? (EnumDefault.ofValue input.name value type.required >>= fun _ => pure _) = _
    rw [failure?_bind_pure, TypeRef.eq_typeIn htype, failure?_ofValue document given]
    exact List.findSome?_singleton.symm

theorem failure?_ofField (field : Field) :
    failure? (Stub.ofField (document.finalScope given) field)
      = field.checks.findSome? (Check.fault? document given) := by
  rw [Field.checks, List.findSome?_append, List.findSome?_singleton, ← failure?_resolve]
  refine failure?_bind fun returnType _ => ?_
  rw [failure?_bind_pure]
  exact failure?_mapM fun input _ => failure?_ofInput input

/-- What the document has a type for is provided. -/
theorem failure?_provided {name : String} (h : name ∈ document.typeNames) :
    failure? ((document.finalScope given).provided name) = none := by
  obtain ⟨module, hmodule⟩ := exists_moduleOf?_finalScope h given
  rw [Scope.provided, hmodule]
  rfl

/-- **The values of an object have a type** if the object is one of the
document. -/
theorem failure?_parentOf {object : ObjectType} (h : object.name ∈ document.typeNames) :
    failure? (ObjectBinding.parentOf (document.finalScope given) object) = none := by
  unfold ObjectBinding.parentOf
  split
  · rfl
  · rw [failure?_map, failure?_provided h]

/-- **Binding a definition of the document makes its checks.** -/
theorem failure?_binding {definition : Definition}
    (hmem : definition ∈ document.definitions.toList) :
    failure? (Binding.ofDefinition? (document.finalScope given) definition)
      = definition.resolverChecks.findSome? (Check.fault? document given) := by
  cases definition with
  | object it =>
    have htype : it.name ∈ document.typeNames := List.mem_filterMap.mpr ⟨_, hmem, rfl⟩
    rw [Binding.ofDefinition?, failure?_map, ObjectBinding.ofObject,
      failure?_bind fun _ _ => failure?_bind_pure _ _, failure?_parentOf htype, Option.none_or]
    exact failure?_mapM fun field _ => failure?_ofField field
  | enumeration it =>
    have htype : it.name ∈ document.typeNames := List.mem_filterMap.mpr ⟨_, hmem, rfl⟩
    rw [Binding.ofDefinition?, failure?_map, EnumBinding.ofEnum, failure?_bind_pure,
      failure?_provided htype]
    rfl
  | interface it => rfl
  | union it => rfl
  | inputObject it => rfl
  | scalar it => rfl
  | schema it => rfl
  | directive it => rfl

end SecondStage

/-! ## The run -/

/-- **What goes wrong in a run** is the first fault of its checks. -/
theorem failure?_generate (document : Document) (given : Scope) :
    failure? (document.generate given)
      = document.checks.findSome? (Check.fault? document given) := by
  have hdeclarations : failure? (document.declarations given)
      = (document.definitions.toList.flatMap Definition.typeChecks).findSome?
          (Check.fault? document given) := by
    rw [declarations, failure?_bind_pure]
    exact failure?_mapM fun definition _ => failure?_declaration definition
  have hbindings : failure? (document.bindings (document.finalScope given))
      = (document.definitions.toList.flatMap Definition.resolverChecks).findSome?
          (Check.fault? document given) := by
    rw [bindings, failure?_bind_pure]
    exact failure?_mapM fun definition hmem => failure?_binding hmem
  -- neither stage reads what the other one made, only the scope it leaves
  rw [generate_eq, failure?_bind fun _ _ => failure?_bind_pure _ _, hdeclarations, hbindings,
    checks, List.findSome?_append]

/-- A run succeeds just if all checks pass. -/
theorem exists_generate_iff : (∃ generated, document.generate given = .ok generated) ↔
    ∀ check ∈ document.checks, check.Passes document given := by
  rw [← failure?_eq_none, failure?_generate, List.findSome?_eq_none_iff]
  simp only [Check.fault?_eq_none]

/-- **A run succeeds just if all checks pass**, and otherwise it ends with
the error of the first one that does not. -/
theorem generate_checks_in_order (document : Document) (given : Scope) :
    ((∃ generated, document.generate given = .ok generated) ↔
      ∀ check ∈ document.checks, check.Passes document given) ∧
    ∀ error, document.generate given = .error error ↔
      ∃ before check after, document.checks = before ++ check :: after ∧
        (∀ earlier ∈ before, earlier.Passes document given) ∧
        ¬check.Passes document given ∧ check.fault? document given = some error := by
  refine ⟨exists_generate_iff, fun error => ?_⟩
  rw [← failure?_eq_some, failure?_generate, List.findSome?_eq_some_iff]
  constructor
  · rintro ⟨before, check, after, hchecks, hfault, hbefore⟩
    refine ⟨before, check, after, hchecks, fun earlier hearlier => ?_, ?_, hfault⟩
    · exact Check.fault?_eq_none.mp (hbefore earlier hearlier)
    · intro hpasses
      rw [Check.fault?_eq_none.mpr hpasses] at hfault
      cases hfault
  · rintro ⟨before, check, after, hchecks, hbefore, -, hfault⟩
    exact ⟨before, check, after, hchecks, hfault,
      fun earlier hearlier => Check.fault?_eq_none.mpr (hbefore earlier hearlier)⟩

end Document

end SchemaScaffold
