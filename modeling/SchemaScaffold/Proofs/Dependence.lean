import SchemaScaffold.Proofs.Checks

/-!
# What a run reads of the given names

A scope may provide many names, and a run asks it for few of them. For a
reference it asks for the leaf, and for a member of a union for the member.
But it also looks up every object and every enumeration that it binds, by
their own names, and these need not be referred to anywhere. If the answer to
such a look-up could be seen, a name that was given for something else would
show up in the modules.

It cannot, because the second stage does not ask what was given. It asks the
scope that the first stage leaves, in which whatever the document declares
belongs to the module of types; and a root object, which is not declared, has
no values whose type would be asked for. So two scopes that agree on the
names referred to lead to the same modules or to the same error
(`Document.generate_reads_referred_names`).

Giving more names is another matter, as it may change what a reference means.
What it cannot do is make a run fail: a check asks *whether* a name means
something, and what it means decides nothing about doubled exclusions or
defaults.
-/

namespace SchemaScaffold

/-- What is found first does not depend on what would be said of anything that
is not in the list. -/
theorem findSome?_congr {α β : Type} {p q : α → Option β} {xs : List α}
    (h : ∀ x ∈ xs, p x = q x) : xs.findSome? p = xs.findSome? q := by
  induction xs with
  | nil => rfl
  | cons x xs ih =>
    obtain ⟨hx, hxs⟩ := List.forall_mem_cons.mp h
    rw [List.findSome?_cons, List.findSome?_cons, hx, ih hxs]

/-- **The names that a definition refers to**: the leaves of the references
in it, and its members. -/
def Definition.referredNames : Definition → List String
  | .object it => it.fields.flatMap fun field => field.signature.map TypeRef.leaf
  | .interface it => it.fields.flatMap fun field => field.signature.map TypeRef.leaf
  | .inputObject it => it.fields.map fun input => input.type.leaf
  | .union it => it.members
  | .enumeration _ => []
  | .scalar _ => []
  | .schema _ => []
  | .directive _ => []

/-- **The names that a document refers to.** -/
def Document.referredNames (document : Document) : List String :=
  document.definitions.toList.flatMap Definition.referredNames

/-- The name whose meaning a check asks for, if it asks for one. -/
def Check.name? : Check → Option String
  | reference _ type => some type.leaf
  | member name => some name
  | default _ _ _ => none

theorem Field.leaf_mem_signature (field : Field) :
    field.type.leaf ∈ field.signature.map TypeRef.leaf :=
  List.mem_map_of_mem List.mem_cons_self

theorem Field.leaf_mem_signature_of_argument {field : Field} {input : InputValue}
    (h : input ∈ field.arguments) : input.type.leaf ∈ field.signature.map TypeRef.leaf :=
  List.mem_map_of_mem (List.mem_cons_of_mem _ (List.mem_map_of_mem h))

namespace Definition

variable {definition : Definition} {check : Check} {name : String}

theorem mem_referredNames_of_typeChecks (hcheck : check ∈ definition.typeChecks)
    (hname : check.name? = some name) : name ∈ definition.referredNames := by
  have hfields {fields : List Field}
      (h : check ∈ (plainFields fields).map fun field => .reference .types field.type) :
      name ∈ fields.flatMap fun field => field.signature.map TypeRef.leaf := by
    obtain ⟨field, hfield, rfl⟩ := List.mem_map.mp h
    cases hname
    exact List.mem_flatMap.mpr ⟨field, List.mem_of_mem_filter hfield, field.leaf_mem_signature⟩
  cases definition with
  | object it =>
    simp only [typeChecks] at hcheck
    split at hcheck
    · cases hcheck
    · exact hfields hcheck
  | inputObject it =>
    simp only [typeChecks] at hcheck
    split at hcheck
    · cases hcheck
    · obtain ⟨input, hinput, rfl⟩ := List.mem_map.mp hcheck
      cases hname
      exact List.mem_map_of_mem hinput
  | interface it => exact hfields hcheck
  | union it =>
    obtain ⟨member, hmember, rfl⟩ := List.mem_map.mp hcheck
    cases hname
    exact hmember
  | enumeration it => cases hcheck
  | scalar it => cases hcheck
  | schema it => cases hcheck
  | directive it => cases hcheck

theorem mem_referredNames_of_resolverChecks (hcheck : check ∈ definition.resolverChecks)
    (hname : check.name? = some name) : name ∈ definition.referredNames := by
  cases definition with
  | object it =>
    obtain ⟨field, hfield, hcheck⟩ := List.mem_flatMap.mp hcheck
    refine List.mem_flatMap.mpr ⟨field, List.mem_of_mem_filter hfield, ?_⟩
    obtain rfl | hcheck := List.mem_cons.mp hcheck
    · cases hname
      exact field.leaf_mem_signature
    · obtain ⟨input, hinput, hcheck⟩ := List.mem_flatMap.mp hcheck
      obtain rfl | hcheck := List.mem_cons.mp hcheck
      · cases hname
        exact Field.leaf_mem_signature_of_argument hinput
      · -- the check of a default asks for no name
        obtain ⟨value, -, rfl⟩ := List.mem_map.mp hcheck
        cases hname
  | _ => cases hcheck

end Definition

/-- **A check asks for a name that the document refers to.** -/
theorem Document.mem_referredNames_of_checks {document : Document} {check : Check} {name : String}
    (hcheck : check ∈ document.checks) (hname : check.name? = some name) :
    name ∈ document.referredNames := by
  obtain hcheck | hcheck := List.mem_append.mp hcheck
  · obtain ⟨definition, hmem, hcheck⟩ := List.mem_flatMap.mp hcheck
    exact List.mem_flatMap.mpr
      ⟨definition, hmem, Definition.mem_referredNames_of_typeChecks hcheck hname⟩
  · obtain ⟨definition, hmem, hcheck⟩ := List.mem_flatMap.mp hcheck
    exact List.mem_flatMap.mpr
      ⟨definition, hmem, Definition.mem_referredNames_of_resolverChecks hcheck hname⟩

/-! ## Scopes that agree -/

/-- **Whether two scopes agree on names**: both provide a name from the same
module, or neither does. -/
def Scope.AgreeOn (names : List String) (given given' : Scope) : Prop :=
  ∀ name ∈ names, given.moduleOf? name = given'.moduleOf? name

/-- A name with one module in two scopes has one meaning. -/
theorem Scope.meaning_congr {scope scope' : Scope} {name : String}
    (h : scope.moduleOf? name = scope'.moduleOf? name) :
    scope.meaning name = scope'.meaning name := by
  rw [meaning, meaning, meaning?, meaning?, h]

/-- A reference has one expression if its leaf has one module. -/
theorem TypeRef.typeIn_congr {scope scope' : Scope} {t : TypeRef}
    (h : scope.moduleOf? t.leaf = scope'.moduleOf? t.leaf) : t.typeIn scope = t.typeIn scope' := by
  rw [typeIn, typeIn, Scope.meaning_congr h]

namespace Document

variable {document : Document} {given given' : Scope} {name : String}

/-- **What the scope of a stage says of a name** depends on what was given
for that name only. -/
theorem moduleOf?_stageScope_congr (h : given.moduleOf? name = given'.moduleOf? name)
    (stage : Stage) : (document.stageScope given stage).moduleOf? name
      = (document.stageScope given' stage).moduleOf? name := by
  cases stage with
  | types => rw [stageScope, stageScope, moduleOf?_scope, moduleOf?_scope, h]
  | resolvers =>
    rw [stageScope, stageScope, moduleOf?_finalScope, moduleOf?_finalScope, moduleOf?_scope,
      moduleOf?_scope, h]

theorem knows_congr (h : given.moduleOf? name = given'.moduleOf? name) :
    document.Knows given name ↔ document.Knows given' name := by
  rw [Knows, Knows, Scope.contains_eq_true, Scope.contains_eq_true, h]

/-- **A check has one error** if the name it asks for has one module. -/
theorem fault?_congr {check : Check}
    (h : ∀ name, check.name? = some name → given.moduleOf? name = given'.moduleOf? name) :
    check.fault? document given = check.fault? document given' := by
  cases check with
  | reference stage type =>
    have hleaf := h type.leaf rfl
    rw [Check.fault?, Check.fault?]
    simp only [knows_congr hleaf]
    split
    · -- the expression in the error is that of a part, which has the same leaf
      refine Option.map_congr fun inner hinner => ?_
      rw [TypeRef.typeIn_congr]
      rw [TypeRef.leaf_of_doubled? hinner]
      exact moduleOf?_stageScope_congr hleaf stage
    · rfl
  | member name => simp only [Check.fault?, knows_congr (h name rfl)]
  | default argument value type => rfl

end Document

/-! ## What is made in scopes that agree -/

section Made

variable {scope scope' : Scope} {definition : Definition}

theorem Field.toAttribute_congr {field : Field}
    (h : Scope.AgreeOn (field.signature.map TypeRef.leaf) scope scope') :
    field.toAttribute scope = field.toAttribute scope' := by
  rw [toAttribute, toAttribute, TypeRef.typeIn_congr (h _ field.leaf_mem_signature)]

/-- A stub asks for the names in the signature of its field. -/
theorem Field.toStub_congr {field : Field}
    (h : Scope.AgreeOn (field.signature.map TypeRef.leaf) scope scope') :
    field.toStub scope = field.toStub scope' := by
  have hparameters : field.arguments.map (InputValue.toParameter scope)
      = field.arguments.map (InputValue.toParameter scope') := by
    refine List.map_congr_left fun input hinput => ?_
    rw [InputValue.toParameter, InputValue.toParameter,
      TypeRef.typeIn_congr (h _ (Field.leaf_mem_signature_of_argument hinput))]
  rw [toStub, toStub, TypeRef.typeIn_congr (h _ field.leaf_mem_signature), hparameters]

/-- **A declaration asks for the names that its definition refers to.** -/
theorem Definition.declaration?_congr
    (h : Scope.AgreeOn definition.referredNames scope scope') :
    definition.declaration? scope = definition.declaration? scope' := by
  have hfields {fields : List Field}
      (h : Scope.AgreeOn (fields.flatMap fun field => field.signature.map TypeRef.leaf)
        scope scope') :
      (plainFields fields).map (Field.toAttribute scope)
        = (plainFields fields).map (Field.toAttribute scope') := by
    refine List.map_congr_left fun field hfield => Field.toAttribute_congr fun name hname => ?_
    exact h name (List.mem_flatMap.mpr ⟨field, List.mem_of_mem_filter hfield, hname⟩)
  cases definition with
  | object it => rw [declaration?, declaration?, hfields h]
  | inputObject it =>
    have hinputs : it.fields.map (InputValue.toAttribute scope)
        = it.fields.map (InputValue.toAttribute scope') := by
      refine List.map_congr_left fun input hinput => ?_
      rw [InputValue.toAttribute, InputValue.toAttribute,
        TypeRef.typeIn_congr (h _ (List.mem_map_of_mem hinput))]
    rw [declaration?, declaration?, hinputs]
  | interface it => rw [declaration?, declaration?, hfields h]
  | union it =>
    have hmembers : it.members.map scope.meaning = it.members.map scope'.meaning :=
      List.map_congr_left fun name hname => Scope.meaning_congr (h name hname)
    rw [declaration?, declaration?, hmembers]
  | enumeration it => rfl
  | scalar it => rfl
  | schema it => rfl
  | directive it => rfl

/-- **A binding asks for its own name besides**, if that is declared. -/
theorem Definition.binding?_congr (h : Scope.AgreeOn definition.referredNames scope scope')
    (hown : Scope.AgreeOn definition.declaredName?.toList scope scope') :
    definition.binding? scope = definition.binding? scope' := by
  cases definition with
  | object it =>
    have hstubs : (computedFields it.fields).map (Field.toStub scope)
        = (computedFields it.fields).map (Field.toStub scope') := by
      refine List.map_congr_left fun field hfield => Field.toStub_congr fun name hname => ?_
      exact h name (List.mem_flatMap.mpr ⟨field, List.mem_of_mem_filter hfield, hname⟩)
    have hparent : it.parentIn? scope = it.parentIn? scope' := by
      simp only [ObjectType.parentIn?, Document.isRoot_ofObjectName]
      split
      · rfl
      · next hroot => rw [hown it.name (by simp [declaredName?, hroot])]
    rw [binding?, binding?, ObjectType.toBinding, ObjectType.toBinding, hstubs, hparent]
  | enumeration it =>
    rw [binding?, binding?, EnumType.toBinding, EnumType.toBinding,
      hown it.name List.mem_cons_self]
  | _ => rfl

end Made

/-! ## Two runs -/

namespace Document

variable {document : Document} {given given' : Scope}

/-- **The declarations of a document** ask for what it refers to. -/
theorem declarationsIn_congr (h : Scope.AgreeOn document.referredNames given given') :
    document.declarationsIn (document.scope given)
      = document.declarationsIn (document.scope given') := by
  refine List.filterMap_congr fun definition hmem =>
    Definition.declaration?_congr fun name hname => ?_
  exact moduleOf?_stageScope_congr (h name (List.mem_flatMap.mpr ⟨definition, hmem, hname⟩))
    .types

/-- **So do its bindings**: what they ask for besides belongs to the module of
types in either scope. -/
theorem bindingsIn_congr (h : Scope.AgreeOn document.referredNames given given') :
    document.bindingsIn (document.finalScope given)
      = document.bindingsIn (document.finalScope given') := by
  refine List.filterMap_congr fun definition hmem =>
    Definition.binding?_congr (fun name hname => ?_) fun name hname => ?_
  · exact moduleOf?_stageScope_congr (h name (List.mem_flatMap.mpr ⟨definition, hmem, hname⟩))
      .resolvers
  · have hdeclared := Option.mem_toList.mp hname
    rw [moduleOf?_finalScope_of_declared hmem hdeclared,
      moduleOf?_finalScope_of_declared hmem hdeclared]

/-- **What goes wrong** in a run asks for what the document refers to, too. -/
theorem failure?_generate_congr (h : Scope.AgreeOn document.referredNames given given') :
    failure? (document.generate given) = failure? (document.generate given') := by
  rw [failure?_generate, failure?_generate]
  refine findSome?_congr fun check hcheck => fault?_congr fun name hname => ?_
  exact h name (mem_referredNames_of_checks hcheck hname)

/-- A check that passes still does with more names given. -/
theorem passes_of_contains {check : Check}
    (h : ∀ name, given.contains name = true → given'.contains name = true)
    (hpasses : check.Passes document given) : check.Passes document given' := by
  have hknows {name : String} (hname : document.Knows given name) : document.Knows given' name :=
    hname.imp_right (Or.imp_left (h name))
  cases check with
  | reference stage type => exact hpasses.imp_left hknows
  | member name => exact hknows hpasses
  | default argument value type => exact hpasses

/-- **A run reads the names that the document refers to.** With scopes that
agree on these it ends with the same error, or it succeeds with the same
blocks in both modules – whatever else is given, be it for a name that the
document itself defines. And a run that succeeds still succeeds with more
names given, from whatever modules. -/
theorem generate_reads_referred_names (document : Document) :
    (∀ given given', Scope.AgreeOn document.referredNames given given' →
      (∃ error, document.generate given = .error error ∧
        document.generate given' = .error error) ∨
      ∃ generated generated', document.generate given = .ok generated ∧
        document.generate given' = .ok generated' ∧
        generated'.typeBlocks = generated.typeBlocks ∧
        generated'.resolverBlocks = generated.resolverBlocks) ∧
    ∀ given given' : Scope, (∀ name, given.contains name = true → given'.contains name = true) →
      (∃ generated, document.generate given = .ok generated) →
      ∃ generated', document.generate given' = .ok generated' := by
  constructor
  · intro given given' hagree
    have hfailure := failure?_generate_congr hagree
    cases hfault : failure? (document.generate given) with
    | some error =>
      exact .inl ⟨error, failure?_eq_some.mp hfault, failure?_eq_some.mp (hfailure ▸ hfault)⟩
    | none =>
      obtain ⟨generated, hgenerated⟩ := failure?_eq_none.mp hfault
      obtain ⟨generated', hgenerated'⟩ := failure?_eq_none.mp (hfailure ▸ hfault)
      refine .inr ⟨generated, generated', hgenerated, hgenerated', ?_⟩
      obtain ⟨-, -, rfl⟩ := generate_eq_ok.mp hgenerated
      obtain ⟨-, -, rfl⟩ := generate_eq_ok.mp hgenerated'
      refine ⟨?_, ?_⟩
      · show (document.declarationsIn (document.scope given')).map Declaration.block = _
        rw [← declarationsIn_congr hagree]
        rfl
      · show Binding.blocks (document.bindingsIn (document.finalScope given')) = _
        rw [← bindingsIn_congr hagree]
        rfl
  · intro given given' hmore hgenerated
    rw [exists_generate_iff] at hgenerated ⊢
    exact fun check hcheck => passes_of_contains hmore (hgenerated check hcheck)

/-- Given for the library as much as it refers to, and besides that its
union, its protocol and its root object as names from elsewhere. -/
def otherScope : Scope :=
  .ofList [("Date", "datetime"), ("Genre", "models"), ("Item", "catalogue"), ("Node", "graph"),
    ("Query", "graph")]

/-- All that is given for the library, from other modules, and its record. -/
def widerScope : Scope :=
  .ofList [("Book", "catalogue"), ("Date", "dates"), ("Genre", "genres"), ("Money", "money")]

/-- For the library nothing can be seen of its union, its protocol and its
root object being given, and with more names its modules can be generated,
too. -/
theorem generate_reads_referred_names_library :
    Scope.AgreeOn library.referredNames libraryScope otherScope ∧
    (∃ generated generated', library.generate libraryScope = .ok generated ∧
      library.generate otherScope = .ok generated' ∧
      generated'.typeBlocks = generated.typeBlocks ∧
      generated'.resolverBlocks = generated.resolverBlocks) ∧
    (∀ name, libraryScope.contains name = true → widerScope.contains name = true) ∧
    ∃ generated, library.generate widerScope = .ok generated := by
  have hagree : Scope.AgreeOn library.referredNames libraryScope otherScope := by
    unfold Scope.AgreeOn
    decide +kernel
  have hmore : ∀ name, libraryScope.contains name = true → widerScope.contains name = true := by
    have hkeys : ∀ name ∈ libraryScope.modules.keys, widerScope.contains name = true := by decide
    exact fun name hname =>
      hkeys name ((Table.mem_keys _ name).mpr (Scope.contains_eq_true.mp hname))
  obtain ⟨hsame, hmonotone⟩ := generate_reads_referred_names library
  obtain ⟨generated, hgenerated⟩ := exists_generate_library
  refine ⟨hagree, ?_, hmore, hmonotone libraryScope widerScope hmore ⟨generated, hgenerated⟩⟩
  obtain ⟨error, herror, -⟩ | hblocks := hsame libraryScope otherScope hagree
  · rw [hgenerated] at herror
    cases herror
  · exact hblocks

end Document

end SchemaScaffold
