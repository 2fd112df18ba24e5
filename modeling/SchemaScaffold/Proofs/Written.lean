import SchemaScaffold.Proofs.Result

/-!
# What is written for a definition

The text of a generated module is put together by functions that are told a
header, some lines, a binding. What comes out of them is said here letter by
letter, and of the schema: which class is opened with which bases, what its
body is if there is nothing to put there, what the line for a field is and
what the stub for one. Nothing here mentions how a text is made; the lemmas
at the end of each section do, and they are where a change to a writer has
to be answered for.

The line for a field is the one place where the two sides do not go by the
same thing. A schema says that a field may be left out by its *reference*,
and only the outermost level of it counts; the writer looks at the
*expression*. They agree for a reference that can be resolved
(`TypeRef.default?_of_resolve`), and only for such a one, since an exclusion
that is doubled has no option left to take off.
-/

namespace SchemaScaffold

/-! ## Classes -/

/-- **The bases of a class** as they are written: in brackets, or nothing. -/
inductive WritesBases : List String → String → Prop where
  /-- A class without bases. -/
  | nil : WritesBases [] ""
  /-- A class with bases. -/
  | cons {base : String} {bases : List String} :
    WritesBases (base :: bases) ("(" ++ ", ".intercalate (base :: bases) ++ ")")

/-- **The text of a class** that is opened by the given text and has the given
lines in its body. -/
inductive WritesClass (opening : String) : List String → String → Prop where
  /-- A body with nothing in it has a line for that. -/
  | nil : WritesClass opening [] (opening ++ "\n    ...")
  /-- Each line is under the one before. -/
  | cons {line : String} {lines : List String} :
    WritesClass opening (line :: lines) ("\n".intercalate (opening :: line :: lines))

/-- **What opens the class** of a declaration; a union is not a class. -/
inductive Declaration.OpensClass : Declaration → String → Prop where
  /-- A record is decorated, and has bases. -/
  | record {name basesText : String} {bases : List String} {attributes : List Attribute}
    (hbases : WritesBases bases basesText) :
    OpensClass (.record name bases attributes)
      ("@dataclass(frozen=True)\nclass " ++ name ++ basesText ++ ":")
  /-- A protocol has the one base that makes it one. -/
  | protocol {name : String} {attributes : List Attribute} :
    OpensClass (.protocol name attributes) ("class " ++ name ++ "(Protocol):")
  /-- So has an enumeration. -/
  | enumeration {name : String} {values : List String} :
    OpensClass (.enumeration name values) ("class " ++ name ++ "(Enum):")

namespace Declaration

theorem writesBases_basesText (bases : List String) : WritesBases bases (basesText bases) := by
  cases bases with
  | nil => exact .nil
  | cons base bases => exact .cons

theorem writesClass_classText (opening : String) (lines : List String) :
    WritesClass opening lines (classText opening lines) := by
  cases lines with
  | nil =>
    have htext : classText opening [] = opening ++ "\n    ..." := by
      have hempty : "\n" ++ Block.emptyBody = "\n    ..." := rfl
      show "\n".intercalate [opening, Block.emptyBody] = _
      rw [String.intercalate_cons_cons, String.intercalate_singleton, String.append_assoc, hempty]
    exact htext ▸ .nil
  | cons line lines => exact .cons

/-- Whether a declaration is a class. -/
def isClass : Declaration → Bool
  | record _ _ _ => true
  | protocol _ _ => true
  | enumeration _ _ => true
  | union _ _ => false

/-- The lines in the body of a class. -/
def classLines : Declaration → List String
  | record _ _ attributes => attributeLines attributes
  | protocol _ attributes => attributeLines attributes
  | enumeration _ values => values.map valueLine
  | union _ _ => []

/-- **A class is written** with what opens it, and its lines. -/
theorem writesClass_text {declaration : Declaration} (h : declaration.isClass = true) :
    ∃ opening, declaration.OpensClass opening ∧
      WritesClass opening declaration.classLines declaration.text := by
  cases declaration with
  | record name bases attributes =>
    exact ⟨_, .record (writesBases_basesText bases), writesClass_classText _ _⟩
  | protocol name attributes => exact ⟨_, .protocol, writesClass_classText _ _⟩
  | enumeration name values => exact ⟨_, .enumeration, writesClass_classText _ _⟩
  | union name members => cases h

end Declaration

/-! ## Lines -/

/-- **The line for a field** of the given name and type: its name in snake
case, the expression for its type, and a default unless the reference excludes
null. -/
def WritesAttribute (scope : Scope) (name : String) (reference : TypeRef) (line : String) : Prop :=
  ∃ type, reference.resolve scope = .ok type ∧
    line = "    " ++ snakeCase name ++ ": " ++ type.text ".types"
      ++ if reference.isNonNull then "" else " = None"

/-- **The default of a field**: none, if its reference excludes null at the
outermost level. -/
theorem TypeRef.default?_of_resolve {scope : Scope} {t : TypeRef} {type : TypeExpr}
    (h : t.resolve scope = .ok type) :
    type.default? = if t.isNonNull then none else some "None" := by
  obtain ⟨leaf, hmeaning, hsound, rfl⟩ := resolve_eq_ok.mp h
  obtain ⟨head, module?, rfl⟩ := Scope.exists_bare_of_meaning hmeaning
  clear h hmeaning
  induction t, hsound using sound_induction with
  | named name => rfl
  | nonNullNamed name => rfl
  | list inner hinner ih => rfl
  | nonNullList inner hinner ih => rfl

theorem writesAttribute_line {scope : Scope} {name : String} {reference : TypeRef}
    {type : TypeExpr} (h : reference.resolve scope = .ok type) :
    WritesAttribute scope name reference (Attribute.line { name := snakeCase name, type }) := by
  refine ⟨type, h, ?_⟩
  rw [Attribute.line, TypeRef.default?_of_resolve h]
  cases reference.isNonNull <;> rfl

/-! ## Stubs -/

/-- **The parameter for an argument.** A default is a value of the enumeration
that the argument has for its type, and then the type is the one without the
option. -/
inductive WritesParameter (scope : Scope) (argument : InputValue) : String → Prop where
  /-- An argument without a default. -/
  | plain {type : TypeExpr} (htype : argument.type.resolve scope = .ok type)
    (hnone : argument.default? = none) :
    WritesParameter scope argument (snakeCase argument.name ++ ": " ++ type.text ".resolvers")
  /-- An argument with a default. -/
  | withDefault {type : TypeExpr} {enumeration value : String} {module? : Option String}
    (htype : argument.type.resolve scope = .ok type)
    (hrequired : type.required = .bare enumeration module?)
    (hsome : argument.default? = some (.enumValue value)) :
    WritesParameter scope argument
      (snakeCase argument.name ++ ": " ++ (TypeExpr.bare enumeration module?).text ".resolvers"
        ++ (" = " ++ (enumeration ++ "." ++ value)))

/-- **The first parameter** of the stubs of an object: the value whose field is
asked for, and a root object has none. -/
inductive WritesFirst (scope : Scope) (object : ObjectType) : String → Prop where
  /-- The first parameter for a root object. -/
  | root (hroot : object.name = "Query" ∨ object.name = "Mutation") :
    WritesFirst scope object "_: None"
  /-- The first parameter for any other object. -/
  | value {module : String} (hquery : object.name ≠ "Query") (hmutation : object.name ≠ "Mutation")
    (hmodule : scope.moduleOf? object.name = some module) :
    WritesFirst scope object (snakeCase object.name ++ "_: "
      ++ (TypeExpr.imported object.name module).text ".resolvers")

/-- **The stub for a field** of an object. -/
inductive WritesStub (scope : Scope) (object : ObjectType) (field : Field) : String → Prop where
  /-- A function that is named for the object and the field, and takes the
  value, the request and the arguments, in order. -/
  | intro {first : String} {parameters : List String} {returned : TypeExpr}
    (hfirst : WritesFirst scope object first)
    (hparameters : List.Forall₂ (WritesParameter scope) field.arguments parameters)
    (hreturned : field.type.resolve scope = .ok returned) :
    WritesStub scope object field
      ("def resolve_" ++ snakeCase object.name ++ "_" ++ snakeCase field.name ++ "("
        ++ ", ".intercalate (first :: "info: GraphQLResolveInfo" :: parameters)
        ++ ") -> " ++ returned.text ".resolvers" ++ ":\n" ++ "    ...")

section Stubs

variable {scope : Scope} {object : ObjectType} {field : Field}

theorem writesParameter_text {argument : InputValue} {parameter : Parameter}
    (h : Parameter.ofInput scope argument = .ok parameter) :
    WritesParameter scope argument parameter.text := by
  obtain ⟨type, htype, hrest⟩ := bind_eq_ok.mp h
  cases hdefault : argument.default? with
  | none =>
    rw [hdefault] at hrest
    obtain rfl := Except.ok.inj hrest
    have htext : Parameter.text { schemaName := argument.name, type, default? := none }
        = snakeCase argument.name ++ ": " ++ type.text ".resolvers" := String.append_empty
    exact htext ▸ .plain htype hdefault
  | some value =>
    rw [hdefault] at hrest
    obtain ⟨default, hvalue, hok⟩ := bind_eq_ok.mp hrest
    obtain rfl := Except.ok.inj hok
    unfold EnumDefault.ofValue at hvalue
    split at hvalue
    · next name enumeration module? hrequired =>
      obtain rfl := Except.ok.inj hvalue
      rw [hrequired]
      exact .withDefault htype hrequired hdefault
    · cases hvalue
    · cases hvalue

/-- An object has values of a type that the scope provides, unless it is a root
object. -/
theorem parentOf_eq_ok {parent? : Option TypeExpr}
    (h : ObjectBinding.parentOf scope object = .ok parent?) :
    (object.name = "Query" ∨ object.name = "Mutation") ∧ parent? = none ∨
      object.name ≠ "Query" ∧ object.name ≠ "Mutation" ∧
        ∃ module, scope.moduleOf? object.name = some module ∧
          parent? = some (.imported object.name module) := by
  rw [ObjectBinding.parentOf, BindingKind.ofObjectName] at h
  by_cases hquery : object.name = "Query"
  · rw [if_pos hquery] at h
    exact .inl ⟨.inl hquery, (Except.ok.inj h).symm⟩
  · by_cases hmutation : object.name = "Mutation"
    · rw [if_neg hquery, if_pos hmutation] at h
      exact .inl ⟨.inr hmutation, (Except.ok.inj h).symm⟩
    · rw [if_neg hquery, if_neg hmutation] at h
      obtain ⟨type, htype, hok⟩ := map_eq_ok.mp h
      unfold Scope.provided at htype
      split at htype
      · next module hmodule =>
        obtain rfl := Except.ok.inj htype
        exact .inr ⟨hquery, hmutation, module, hmodule, hok.symm⟩
      · cases htype

theorem writesFirst_parentText {parent? : Option TypeExpr}
    (h : ObjectBinding.parentOf scope object = .ok parent?) :
    WritesFirst scope object (Stub.parentText (snakeCase object.name) parent?) := by
  obtain ⟨hroot, rfl⟩ | ⟨hquery, hmutation, module, hmodule, rfl⟩ := parentOf_eq_ok h
  · exact .root hroot
  · exact .value hquery hmutation hmodule

/-- **A stub is written** for its field. -/
theorem writesStub_text {parent? : Option TypeExpr} {stub : Stub}
    (hparent : ObjectBinding.parentOf scope object = .ok parent?)
    (h : Stub.ofField scope field = .ok stub) :
    WritesStub scope object field (stub.text (snakeCase object.name) parent?) := by
  obtain ⟨returned, hreturned, hrest⟩ := bind_eq_ok.mp h
  obtain ⟨parameters, hparameters, hok⟩ := bind_eq_ok.mp hrest
  obtain rfl := Except.ok.inj hok
  refine .intro (writesFirst_parentText hparent) ?_ hreturned
  exact List.forall₂_map_right_iff.mpr
    ((mapM_eq_ok.mp hparameters).imp fun _ _ => writesParameter_text)

end Stubs

/-! ## Bindings -/

/-- **The call that makes the binding** of an object. -/
inductive WritesCall (object : ObjectType) : String → Prop where
  /-- The object that queries start from. -/
  | query (h : object.name = "Query") : WritesCall object "QueryType()"
  /-- The object that mutations start from. -/
  | mutation (h : object.name = "Mutation") : WritesCall object "MutationType()"
  /-- Any other object, by its name. -/
  | object (hquery : object.name ≠ "Query") (hmutation : object.name ≠ "Mutation") :
    WritesCall object ("ObjectType(" ++ ("\"" ++ object.name ++ "\"") ++ ")")

/-- The call that makes the binding of an object, as a binding has it. -/
def ObjectBinding.call (binding : ObjectBinding) : String :=
  binding.kind.maker ++ "("
    ++ (if binding.parent?.isSome then TypeExpr.quote binding.schemaName else "") ++ ")"

/-- The call that makes the binding of an enumeration. -/
def EnumBinding.call (binding : EnumBinding) : String :=
  BindingKind.enumeration.maker ++ "("
    ++ TypeExpr.quote binding.schemaName ++ ", values=" ++ binding.target.head ++ ")"

theorem ObjectBinding.opening_eq_call (binding : ObjectBinding) :
    binding.opening = binding.name ++ " = " ++ binding.call := by
  simp only [opening, call, String.append_assoc]

theorem EnumBinding.text_eq_call (binding : EnumBinding) :
    binding.text = binding.name ++ " = " ++ binding.call := by
  simp only [text, call, String.append_assoc]

section Bindings

variable {scope : Scope}

theorem writesCall_call {object : ObjectType} {parent? : Option TypeExpr} {stubs : List Stub}
    (h : ObjectBinding.parentOf scope object = .ok parent?) :
    WritesCall object (ObjectBinding.call { schemaName := object.name, parent?, stubs }) := by
  unfold ObjectBinding.call ObjectBinding.kind BindingKind.ofObjectName
  obtain ⟨hroot, rfl⟩ | ⟨hquery, hmutation, module, -, rfl⟩ := parentOf_eq_ok h
  · by_cases hquery : object.name = "Query"
    · rw [if_pos hquery]
      exact .query hquery
    · have hmutation := hroot.resolve_left hquery
      rw [if_neg hquery, if_pos hmutation]
      exact .mutation hmutation
  · rw [if_neg hquery, if_neg hmutation]
    exact .object hquery hmutation

/-- **What a binding of an object is made of**: the call for the object, and a
stub for each field with arguments, in order. -/
theorem ObjectBinding.writes {object : ObjectType} {binding : ObjectBinding}
    (h : ofObject scope object = .ok binding) :
    binding.name = snakeCase object.name ∧ WritesCall object binding.call ∧
      List.Forall₂ (fun field stub => stub.schemaName = field.name ∧
          WritesStub scope object field (stub.text binding.name binding.parent?))
        (computedFields object.fields) binding.stubs := by
  obtain ⟨parent?, hparent, hrest⟩ := bind_eq_ok.mp h
  obtain ⟨stubs, hstubs, hok⟩ := bind_eq_ok.mp hrest
  obtain rfl := Except.ok.inj hok
  refine ⟨rfl, writesCall_call hparent, (mapM_eq_ok.mp hstubs).imp fun field stub hstub => ?_⟩
  exact ⟨congrArg Stub.schemaName (Stub.eq_of_ofField hstub), writesStub_text hparent hstub⟩

/-- What the binding of an enumeration is made of. -/
theorem EnumBinding.writes {enumeration : EnumType} {binding : EnumBinding}
    (h : ofEnum scope enumeration = .ok binding) :
    binding.name = snakeCase enumeration.name ∧ binding.call
      = "EnumType(" ++ ("\"" ++ enumeration.name ++ "\"") ++ ", values=" ++ enumeration.name
        ++ ")" := by
  obtain ⟨target, htarget, hok⟩ := bind_eq_ok.mp h
  obtain rfl := Except.ok.inj hok
  obtain rfl := Scope.eq_of_provided htarget
  exact ⟨rfl, rfl⟩

end Bindings

namespace Binding

variable {bindings : List Binding}

theorem blocks_of_ne_nil (h : bindings ≠ []) :
    blocks bindings = bindings.map block ++ [registry bindings] := by
  cases bindings with
  | nil => exact absurd rfl h
  | cons binding bindings => rfl

/-- The registry is the last of the blocks, if there are any. -/
theorem exists_registry (h : bindings ≠ []) : ∃ registry,
    blocks bindings = bindings.map block ++ [registry] ∧
      registry.body = "resolvers = [" ++ ", ".intercalate (bindings.map name) ++ "]" :=
  ⟨_, blocks_of_ne_nil h, rfl⟩

theorem blocks_eq_nil : blocks bindings = [] ↔ bindings = [] := by
  cases bindings with
  | nil => exact ⟨fun _ => rfl, fun _ => rfl⟩
  | cons binding bindings => exact ⟨fun h => (by cases h), fun h => (by cases h)⟩

end Binding

/-! ## What is made of a definition -/

namespace Document

variable {document : Document} {given scope : Scope} {definition : Definition}

/-- In a run that succeeds every definition is looked at with success. -/
theorem ofDefinition?_of_declarations {declarations : List Declaration}
    (h : document.declarations given = .ok declarations)
    (hmem : definition ∈ document.definitions.toList) :
    Declaration.ofDefinition? (document.scope given) definition
      = .ok (definition.declaration? (document.scope given)) := by
  obtain ⟨found, hfound, -⟩ := bind_eq_ok.mp h
  obtain ⟨declaration?, hok⟩ := exists_mapM_eq_ok.mp ⟨found, hfound⟩ definition hmem
  rw [hok, Declaration.eq_of_ofDefinition? hok]

theorem ofDefinition?_of_bindings {bindings : List Binding}
    (h : document.bindings scope = .ok bindings) (hmem : definition ∈ document.definitions.toList) :
    Binding.ofDefinition? scope definition = .ok (definition.binding? scope) := by
  obtain ⟨found, hfound, -⟩ := bind_eq_ok.mp h
  obtain ⟨binding?, hok⟩ := exists_mapM_eq_ok.mp ⟨found, hfound⟩ definition hmem
  rw [hok, Binding.eq_of_ofDefinition? hok]

end Document

end SchemaScaffold
