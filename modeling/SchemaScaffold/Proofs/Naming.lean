import SchemaScaffold.Proofs.ParameterOrder
import SchemaScaffold.Proofs.References
import SchemaScaffold.Proofs.Written

/-!
# Names in snake case

Most names of the generated text are names of the schema in snake case, and
two names may have one snake case: `fooBar` and `foo_bar` are different
fields of a type, but a class that has both binds one attribute twice.
Nothing in the generation looks for this, and nothing is renamed. Where a
name stands beside one that is not made of the schema – a stub begins with
two parameters of that kind – nothing keeps the two apart either.

So whether a name is bound twice is a question to the schema, and
`Document.generate_names` answers it for the three places where names stand
side by side: the registry, the body of a class, and the parameter list of a
stub. In each of them the names are distinct just if the names they are made
of **stay apart** in snake case (`StayApart`). Two identifiers that do not
are still alike to a reader: they have the same letters, up to case
(`skeleton_eq_of_snakeCase_eq`).
-/

namespace SchemaScaffold

/-- **Whether names stay apart** when they are written in snake case. -/
def StayApart (names : List String) : Prop := names.Pairwise fun a b => snakeCase a ≠ snakeCase b

instance (names : List String) : Decidable (StayApart names) :=
  inferInstanceAs (Decidable (List.Pairwise _ _))

/-- Names stay apart just if none is there twice in snake case. -/
theorem nodup_map_snakeCase {names : List String} :
    (names.map snakeCase).Nodup ↔ StayApart names :=
  List.pairwise_map

/-! ## The names in the body of a class -/

namespace Declaration

/-- **The names in the body of a class**, in the order they are written. -/
def attributeNames : Declaration → List String
  | record _ _ attributes => (attributes.mergeSort Attribute.le).map Attribute.name
  | protocol _ attributes => (attributes.mergeSort Attribute.le).map Attribute.name
  | enumeration _ values => values
  | union _ _ => []

/-- Whether a line of a class binds a name, with a type or with a value. -/
def Binds (name line : String) : Prop :=
  ∃ rest, line = "    " ++ name ++ ": " ++ rest ∨ line = "    " ++ name ++ " = " ++ rest

theorem binds_attributeLines (attributes : List Attribute) :
    List.Forall₂ Binds ((attributes.mergeSort Attribute.le).map Attribute.name)
      (attributeLines attributes) := by
  rw [attributeLines, List.forall₂_map_left_iff, List.forall₂_map_right_iff]
  exact List.forall₂_same.mpr fun a _ => ⟨_, .inl String.append_assoc⟩

/-- **A class binds its names**, each in a line of its own. -/
theorem binds_classLines (declaration : Declaration) :
    List.Forall₂ Binds declaration.attributeNames declaration.classLines := by
  cases declaration with
  | record name bases attributes => exact binds_attributeLines attributes
  | protocol name attributes => exact binds_attributeLines attributes
  | enumeration name values =>
    refine List.forall₂_map_right_iff.mpr (List.forall₂_same.mpr fun value _ => ?_)
    exact ⟨_, .inr rfl⟩
  | union name members => exact .nil

end Declaration

namespace Definition

/-- The names that a class has as they are: those of the values of an
enumeration. -/
def valueNames : Definition → List String
  | enumeration it => it.values
  | _ => []

/-- **The names that a class has in snake case**: those of the fields that
are attributes. -/
def plainNames : Definition → List String
  | object it => (plainFields it.fields).map Field.name
  | inputObject it => it.fields.map InputValue.name
  | interface it => (plainFields it.fields).map Field.name
  | _ => []

variable {scope : Scope} {definition : Definition} {declaration : Declaration}

/-- **The names in a class** are the names of the schema, sorted. -/
theorem perm_attributeNames (h : definition.declaration? scope = some declaration) :
    declaration.attributeNames.Perm
      (definition.valueNames ++ definition.plainNames.map snakeCase) := by
  have hsorted {α : Type} (make : α → Attribute) (name : α → String) (items : List α)
      (hname : ∀ item, (make item).name = snakeCase (name item)) :
      (((items.map make).mergeSort Attribute.le).map Attribute.name).Perm
        ((items.map name).map snakeCase) := by
    have hmap : (items.map make).map Attribute.name = (items.map name).map snakeCase := by
      simp [Function.comp_def, hname]
    exact hmap ▸ (List.mergeSort_perm (items.map make) _).map Attribute.name
  cases definition with
  | object it =>
    obtain ⟨-, rfl⟩ := declaration?_object h
    exact hsorted (Field.toAttribute scope) Field.name _ fun _ => rfl
  | inputObject it =>
    obtain ⟨-, rfl⟩ := declaration?_inputObject h
    exact hsorted (InputValue.toAttribute scope) InputValue.name _ fun _ => rfl
  | interface it =>
    cases h
    exact hsorted (Field.toAttribute scope) Field.name _ fun _ => rfl
  | enumeration it =>
    cases h
    exact .of_eq (List.append_nil it.values).symm
  | union it =>
    cases h
    exact .refl _
  | scalar it => cases h
  | schema it => cases h
  | directive it => cases h

/-- **The names in a class are distinct** just if the values of an
enumeration are, or the names of the fields stay apart. -/
theorem nodup_attributeNames (h : definition.declaration? scope = some declaration) :
    declaration.attributeNames.Nodup ↔
      definition.valueNames.Nodup ∧ StayApart definition.plainNames := by
  rw [(perm_attributeNames h).nodup_iff, ← nodup_map_snakeCase]
  -- no definition has names of both sorts
  cases definition <;> simp [valueNames, plainNames]

end Definition

/-! ## The names of the parameters of a stub -/

namespace Stub

variable {owner : String} {parent? : Option TypeExpr}

/-- The name of the first parameter. -/
def parentName (owner : String) : Option TypeExpr → String
  | some _ => owner ++ "_"
  | none => "_"

/-- **The names of the parameters of a stub**, in order. -/
def parameterNames (owner : String) (parent? : Option TypeExpr) (stub : Stub) : List String :=
  parentName owner parent? :: "info" :: stub.parameters.map Parameter.name

/-- Whether a parameter is written with a name. -/
def IsNamed (name : String) (parameter : WrittenParameter) : Prop :=
  ∃ type, parameter.annotated = name ++ ": " ++ type

/-- **The parameters are written with their names.** -/
theorem isNamed_parameterList (owner : String) (parent? : Option TypeExpr) (stub : Stub) :
    List.Forall₂ IsNamed (stub.parameterNames owner parent?)
      (stub.parameterList owner parent?) := by
  refine .cons ?_ (.cons ⟨"GraphQLResolveInfo", rfl⟩ ?_)
  · cases parent? with
    | none => exact ⟨"None", rfl⟩
    | some parent =>
      have hcolon : "_: " = "_" ++ ": " := rfl
      refine ⟨parent.text Stage.resolvers.module, ?_⟩
      rw [parentText, parentName, hcolon, ← String.append_assoc]
  · refine List.forall₂_map_left_iff.mpr (List.forall₂_map_right_iff.mpr ?_)
    exact List.forall₂_same.mpr fun parameter _ => ⟨_, rfl⟩

/-- The first parameter does not have the name of the second. -/
theorem parentName_ne_info (owner : String) (parent? : Option TypeExpr) :
    parentName owner parent? ≠ "info" := by
  cases parent? with
  | none =>
    have hblank : "_" ≠ "info" := by decide
    exact hblank
  | some parent =>
    intro h
    have hlast := congrArg (fun text => text.toList.getLast?) h
    simp [parentName] at hlast

/-- The parameters for arguments have the names of these in snake case. -/
theorem parameterNames_eq (owner : String) (parent? : Option TypeExpr) (stub : Stub) :
    stub.parameterNames owner parent?
      = parentName owner parent? :: "info" ::
        (stub.parameters.map Parameter.schemaName).map snakeCase := by
  rw [parameterNames, List.map_map]
  rfl

/-- **The names of the parameters are distinct** just if those that are made
of arguments stay apart from each other and from the two in front. -/
theorem nodup_parameterNames {stub : Stub} : (stub.parameterNames owner parent?).Nodup ↔
    StayApart (stub.parameters.map Parameter.schemaName) ∧
      ∀ name ∈ stub.parameters.map Parameter.schemaName,
        snakeCase name ≠ parentName owner parent? ∧ snakeCase name ≠ "info" := by
  rw [parameterNames_eq, List.nodup_cons, List.nodup_cons, nodup_map_snakeCase, List.mem_cons,
    List.mem_map, List.mem_map]
  constructor
  · rintro ⟨hfirst, hinfo, hapart⟩
    exact ⟨hapart, fun name hname => ⟨fun h => hfirst (.inr ⟨name, hname, h⟩),
      fun h => hinfo ⟨name, hname, h⟩⟩⟩
  · rintro ⟨hapart, hothers⟩
    refine ⟨?_, ?_, hapart⟩
    · rintro (h | ⟨name, hname, h⟩)
      · exact parentName_ne_info owner parent? h
      · exact (hothers name hname).1 h
    · rintro ⟨name, hname, h⟩
      exact (hothers name hname).2 h

end Stub

/-! ## The names of a run -/

/-- The name of the first parameter of the stubs of an object. -/
def ObjectType.firstParameter (object : ObjectType) : String :=
  if isRootName object.name then "_" else snakeCase object.name ++ "_"

/-- It is the one that the stubs of its binding have. -/
theorem ObjectType.parentName_toBinding (scope : Scope) (object : ObjectType) :
    Stub.parentName (object.toBinding scope).name (object.toBinding scope).parent?
      = object.firstParameter := by
  show Stub.parentName (snakeCase object.name) (object.parentIn? scope) = _
  rw [parentIn?, Document.isRoot_ofObjectName, firstParameter]
  split <;> rfl

/-- **How a stub names its parameters**, as the stub for a field of an object
in the binding of the object. -/
structure Stub.NamesParameters (object : ObjectType) (it : ObjectBinding) (field : Field)
    (stub : Stub) : Prop where
  /-- The stub is written with its parameter list. -/
  text_eq : stub.text it.name it.parent?
    = stub.textWith it.name (stub.parameterList it.name it.parent?)
  /-- The list has the names of the parameters. -/
  isNamed : List.Forall₂ IsNamed (stub.parameterNames it.name it.parent?)
    (stub.parameterList it.name it.parent?)
  /-- These are two names in front and those of the arguments in snake
  case. -/
  names_eq : stub.parameterNames it.name it.parent?
    = object.firstParameter :: "info" :: (field.arguments.map InputValue.name).map snakeCase
  /-- They are distinct just if the names of the arguments stay apart, also
  from the two in front. -/
  nodup_iff : (stub.parameterNames it.name it.parent?).Nodup ↔
    StayApart (field.arguments.map InputValue.name) ∧
      ∀ name ∈ field.arguments.map InputValue.name,
        snakeCase name ≠ object.firstParameter ∧ snakeCase name ≠ "info"

/-- The parameters of a stub have the names of the arguments of its field. -/
theorem Field.map_schemaName_toStub (scope : Scope) (field : Field) :
    (field.toStub scope).parameters.map Parameter.schemaName
      = field.arguments.map InputValue.name := by
  rw [toStub, List.map_map]
  exact List.map_congr_left fun input _ => (input.toParameter_names scope).1

theorem Field.namesParameters_toStub (scope : Scope) (object : ObjectType) (field : Field) :
    (field.toStub scope).NamesParameters object (object.toBinding scope) field where
  text_eq := Stub.text_eq_textWith _ _ _
  isNamed := Stub.isNamed_parameterList _ _ _
  names_eq := by
    rw [Stub.parameterNames_eq, object.parentName_toBinding, field.map_schemaName_toStub]
  nodup_iff := by
    rw [Stub.nodup_parameterNames, object.parentName_toBinding, field.map_schemaName_toStub]

/-- **How a class names its attributes**, as the declaration of a
definition. -/
structure Declaration.NamesAttributes (definition : Definition) (declaration : Declaration) :
    Prop where
  /-- The declaration is that of the definition. -/
  name_eq : definition.declaredName? = some declaration.name
  /-- If it is a class, each of its names is bound in a line of its own, under
  the line that opens the class. -/
  exists_lines : declaration.isClass = true →
    ∃ opening lines, declaration.OpensClass opening ∧
      WritesClass opening lines declaration.text ∧
      List.Forall₂ Binds declaration.attributeNames lines
  /-- The names are those of the definition, in some order. -/
  perm : declaration.attributeNames.Perm
    (definition.valueNames ++ definition.plainNames.map snakeCase)
  /-- They are distinct just if the values are, and the names in snake case
  stay apart. -/
  nodup_iff : declaration.attributeNames.Nodup ↔
    definition.valueNames.Nodup ∧ StayApart definition.plainNames

theorem Definition.namesAttributes {scope : Scope} {definition : Definition}
    {declaration : Declaration} (h : definition.declaration? scope = some declaration) :
    declaration.NamesAttributes definition where
  name_eq := declaredName?_eq h
  exists_lines hclass := by
    obtain ⟨opening, hopens, hwrites⟩ := Declaration.writesClass_text hclass
    exact ⟨opening, _, hopens, hwrites, declaration.binds_classLines⟩
  perm := perm_attributeNames h
  nodup_iff := nodup_attributeNames h

namespace Document

variable {text : String} {document : Document} {given : Scope} {generated : Generated}

/-- **Where names are bound side by side.** The registry lists the names of
the objects and the enumerations, and is the last of its module; a class binds
the names of the fields that are attributes or the values of an enumeration, and
a stub has the names of the arguments of its field behind two others: that of
the value whose field is asked for, and `info`. Values are as they are, and the
other names of the schema are in snake case. So in each place the names are
distinct just if those of the schema stay apart, and for a stub also from the
two others. Two names of the schema that do not stay apart have the same
letters, up to case. -/
theorem generate_names (hparse : Document.parse text = .ok document)
    (h : document.generate given = .ok generated) :
    (∃ bindings, document.bindings generated.scope = .ok bindings ∧
      generated.resolverBlocks = Binding.blocks bindings ∧
      bindings.map Binding.name = document.boundNames.map snakeCase ∧
      (bindings ≠ [] → ∃ registry,
        generated.resolverBlocks = bindings.map Binding.block ++ [registry] ∧
        registry.body
          = "resolvers = [" ++ ", ".intercalate (document.boundNames.map snakeCase) ++ "]") ∧
      ((bindings.map Binding.name).Nodup ↔ StayApart document.boundNames) ∧
      ∀ it, .object it ∈ bindings → ∃ object, .object object ∈ document.definitions.toList ∧
        it.schemaName = object.name ∧
        List.Forall₂ (Stub.NamesParameters object it) (computedFields object.fields) it.stubs) ∧
    (∃ declarations, document.declarations given = .ok declarations ∧
      generated.typeBlocks = declarations.map Declaration.block ∧
      List.Forall₂ Declaration.NamesAttributes
        (document.definitions.toList.filter fun definition => definition.declaredName?.isSome)
        declarations) ∧
    ∀ name ∈ document.names, ∀ other ∈ document.names,
      snakeCase name = snakeCase other → skeleton name = skeleton other := by
  obtain ⟨hdeclarations, hbindings, rfl⟩ := generate_eq_ok.mp h
  refine ⟨⟨_, hbindings, rfl, map_name_bindingsIn _ _, fun hsome => ?_, ?_, fun it hit => ?_⟩,
    ⟨_, hdeclarations, rfl, ?_⟩, fun name hname other hother => ?_⟩
  · rw [← map_name_bindingsIn document (document.finalScope given)]
    exact Binding.exists_registry hsome
  · rw [map_name_bindingsIn, nodup_map_snakeCase]
  · obtain ⟨object, hmem, rfl⟩ := object_mem_bindingsIn.mp hit
    refine ⟨object, hmem, rfl, List.forall₂_map_right_iff.mpr (List.forall₂_same.mpr ?_)⟩
    exact fun field _ => field.namesParameters_toStub _ object
  · exact forall₂_declarationsIn fun definition _ declaration => definition.namesAttributes
  · have hidentifiers := (isIdentifier_of_parse hparse).1
    exact skeleton_eq_of_snakeCase_eq (hidentifiers name hname) (hidentifiers other hother)

/-- A schema with names that stay apart. -/
def apartText : String :=
  "enum Genre \x7b PROSE \x7d type Book \x7b fullTitle: Int like(ofGenre: Genre): Book \x7d"

/-- Where all names of a schema stay apart, so do those of the registry. -/
theorem generate_names_apart :
    ∃ document generated bindings, Document.parse apartText = .ok document ∧
      document.generate .empty = .ok generated ∧
      document.bindings generated.scope = .ok bindings ∧ (bindings.map Binding.name).Nodup := by
  have hrun : (Document.parse apartText).toOption.any (fun document =>
      (document.generate .empty).toOption.any fun _ =>
        decide (document.boundNames = ["Genre", "Book"])) = true := by
    decide +kernel
  have hapart : StayApart ["Genre", "Book"] := by decide +kernel
  obtain ⟨document, hparse, hgenerate⟩ := exists_ok_of_any hrun
  obtain ⟨generated, hgenerated, hbound⟩ := exists_ok_of_any hgenerate
  obtain ⟨⟨bindings, hbindings, -, -, -, hregistry, -⟩, -⟩ := generate_names hparse hgenerated
  refine ⟨document, generated, bindings, hparse, hgenerated, hbindings, hregistry.mpr ?_⟩
  rw [of_decide_eq_true hbound]
  exact hapart

end Document

/-! ## Distinct names that do not stay apart -/

namespace Definition

/-- The names of the fields of a definition. -/
def fieldNames : Definition → List String
  | object it => it.fields.map Field.name
  | interface it => it.fields.map Field.name
  | inputObject it => it.fields.map InputValue.name
  | _ => []

/-- The names of the arguments of each of its fields. -/
def argumentNames : Definition → List (List String)
  | object it => it.fields.map fun field => field.arguments.map InputValue.name
  | interface it => it.fields.map fun field => field.arguments.map InputValue.name
  | _ => []

/-- **Whether names are distinct** as they stand in the schema: those of the
fields of a definition, and those of the arguments of each field. -/
def HasDistinctNames (definition : Definition) : Prop :=
  definition.fieldNames.Nodup ∧ ∀ names ∈ definition.argumentNames, names.Nodup

instance (definition : Definition) : Decidable definition.HasDistinctNames :=
  inferInstanceAs (Decidable (_ ∧ _))

end Definition

namespace Document

/-- A schema with distinct names of which some do not stay apart. -/
def collidingText : String :=
  "type Pair \x7b left: Int Left: Int swap(info: Int): Pair \x7d enum pair \x7b BOTH \x7d"

/-- **Names that are bound twice**: in the registry those of the object and
of the enumeration, in the class of the object those of two fields, and in
its stub that of the argument and one in front of it. In the schema they are
all distinct. -/
theorem exists_names_bound_twice :
    ∃ document generated bindings declarations, Document.parse collidingText = .ok document ∧
      (∀ definition ∈ document.definitions.toList, definition.HasDistinctNames) ∧
      document.generate .empty = .ok generated ∧
      (document.bindings generated.scope = .ok bindings ∧
        generated.resolverBlocks = Binding.blocks bindings ∧
        ¬(bindings.map Binding.name).Nodup ∧
        ∃ it, .object it ∈ bindings ∧ ∃ stub ∈ it.stubs,
          ¬(stub.parameterNames it.name it.parent?).Nodup) ∧
      document.declarations .empty = .ok declarations ∧
        generated.typeBlocks = declarations.map Declaration.block ∧
        ∃ declaration ∈ declarations, ¬declaration.attributeNames.Nodup := by
  have hrun : (Document.parse collidingText).toOption.any (fun document =>
      (document.generate .empty).toOption.any fun _ =>
        decide (∀ definition ∈ document.definitions.toList, definition.HasDistinctNames)
          && decide (document.boundNames = ["Pair", "pair"])
          && document.definitions.toList.any fun definition => match definition with
            | .object it => decide (definition.plainNames = ["left", "Left"])
                && decide (definition.declaredName?.isSome = true)
                && (computedFields it.fields).any fun field =>
                  decide ("info" ∈ field.arguments.map InputValue.name)
            | _ => false) = true := by
    decide +kernel
  have hbound : ¬StayApart ["Pair", "pair"] := by decide +kernel
  have hplain : ¬StayApart ["left", "Left"] := by decide +kernel
  have hinfo : snakeCase "info" = "info" := by decide +kernel
  obtain ⟨document, hparse, hgenerate⟩ := exists_ok_of_any hrun
  obtain ⟨generated, hgenerated, hgood⟩ := exists_ok_of_any hgenerate
  obtain ⟨hdeclarations, hbindings, rfl⟩ := generate_eq_ok.mp hgenerated
  simp only [Bool.and_eq_true, decide_eq_true_eq] at hgood
  obtain ⟨⟨hdistinct, hnames⟩, hany⟩ := hgood
  obtain ⟨definition, hmem, htest⟩ := List.any_eq_true.mp hany
  cases definition with
  | object it =>
    simp only [Bool.and_eq_true, decide_eq_true_eq] at htest
    obtain ⟨⟨hfields, hdeclared⟩, hstub⟩ := htest
    obtain ⟨field, hfield, hargument⟩ := List.any_eq_true.mp hstub
    refine ⟨document, _, _, _, hparse, hdistinct, hgenerated, ⟨hbindings, rfl, ?_, ?_⟩,
      hdeclarations, rfl, ?_⟩
    · rw [map_name_bindingsIn, nodup_map_snakeCase, hnames]
      exact hbound
    · refine ⟨_, object_mem_bindingsIn.mpr ⟨it, hmem, rfl⟩, _, List.mem_map_of_mem hfield, ?_⟩
      rw [Stub.nodup_parameterNames, field.map_schemaName_toStub]
      exact fun h => (h.2 _ (of_decide_eq_true hargument)).2 hinfo
    · obtain ⟨declaration, hdeclaration⟩ :=
        Definition.exists_declaration (document.scope .empty) hdeclared
      refine ⟨declaration, List.mem_filterMap.mpr ⟨_, hmem, hdeclaration⟩, ?_⟩
      rw [Definition.nodup_attributeNames hdeclaration, hfields]
      exact fun h => hplain h.2
  | _ => cases htest

end Document

end SchemaScaffold
