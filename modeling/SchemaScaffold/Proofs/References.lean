import SchemaScaffold.Failure
import SchemaScaffold.Proofs.Acceptance
import SchemaScaffold.Proofs.Checks
import SchemaScaffold.Proofs.Identifier
import SchemaScaffold.Proofs.Reader

/-!
# The names and references of a schema text

A schema declares names and lists some, and it speaks of types in
references. References stand in four places: the types of fields, of
arguments, of the fields of input objects, and of the arguments of
directives. Names and references reach the document as they are read. So
what the grammar says of *one* name (`Sdl.yields_bareName`) and of *one*
reference (`Sdl.yields_typeRef`) holds of all that a document has, and one
lemma for each construct of the grammar carries it there
(`Sdl.yields_clause`).

What the grammar says of a reference is that a name or a list may have one
exclamation mark behind it, and not that marks may be repeated. A reference
that excludes null twice at one level is therefore never the fault of a
text, and `Document.generate_of_text_excludes_once` says so of the whole way
from the text to the modules. The error for it is there for documents that
were put together otherwise.

What it says of a name is that it is an identifier, and so are the leaves of
references (`Document.isIdentifier_of_parse`).
-/

namespace SchemaScaffold

/-! ## The names and references of a definition -/

/-- The names of a field: its own, and those of its arguments. -/
def Field.names (field : Field) : List String := field.name :: field.arguments.map InputValue.name

/-- **The names of a definition**: its own, those it lists, and those of its
parts. -/
def Definition.names : Definition → List String
  | .object it => it.name :: (it.implements ++ it.fields.flatMap Field.names)
  | .interface it => it.name :: it.fields.flatMap Field.names
  | .inputObject it => it.name :: it.fields.map InputValue.name
  | .directive it => it.name :: it.arguments.map InputValue.name
  | .enumeration it => it.name :: it.values
  | .union it => it.name :: it.members
  | .scalar it => [it.name]
  | .schema _ => []

/-- **The names of a document**, in order of definition. -/
def Document.names (document : Document) : List String :=
  document.definitions.toList.flatMap Definition.names

/-- **The references of a definition**, in order. -/
def Definition.references : Definition → List TypeRef
  | .object it => it.fields.flatMap Field.signature
  | .interface it => it.fields.flatMap Field.signature
  | .inputObject it => it.fields.map InputValue.type
  | .directive it => it.arguments.map InputValue.type
  | .enumeration _ => []
  | .union _ => []
  | .scalar _ => []
  | .schema _ => []

/-- **The references of a document**, in order of definition. -/
def Document.references (document : Document) : List TypeRef :=
  document.definitions.toList.flatMap Definition.references

namespace Sdl

/-- The names of a field as it is written. -/
def FieldClause.names (clause : FieldClause) : List String :=
  clause.name :: clause.arguments.map InputClause.name

/-- **The names of a statement**: its own, those it lists, and those of its
parts. -/
def Statement.names : Statement → List String
  | object name implements _ fields => name :: (implements ++ fields.flatMap FieldClause.names)
  | interface name _ fields => name :: fields.flatMap FieldClause.names
  | inputObject name _ fields => name :: fields.map InputClause.name
  | directive name arguments => name :: arguments.map InputClause.name
  | enumeration name _ values => name :: values.map EnumClause.name
  | union name _ members => name :: members
  | scalar name _ => [name]
  | schema _ _ => []

/-- The references of a field as it is written. -/
def FieldClause.signature (clause : FieldClause) : List TypeRef :=
  clause.type :: clause.arguments.map InputClause.type

/-- **The references of a statement**, in order. -/
def Statement.references : Statement → List TypeRef
  | object _ _ _ fields => fields.flatMap FieldClause.signature
  | interface _ _ fields => fields.flatMap FieldClause.signature
  | inputObject _ _ fields => fields.map InputClause.type
  | directive _ arguments => arguments.map InputClause.type
  | enumeration _ _ _ => []
  | union _ _ _ => []
  | scalar _ _ => []
  | schema _ _ => []

/-- That every reference of a statement has a property. -/
def Statement.AllReferences (P : TypeRef → Prop) (statement : Statement) : Prop :=
  ∀ t ∈ statement.references, P t

section Kept

variable {N : String → Prop} {P : TypeRef → Prop}

/-- That the name of an argument has a property, and its type another. -/
def InputClause.All (N : String → Prop) (P : TypeRef → Prop) (clause : InputClause) : Prop :=
  N clause.name ∧ P clause.type

/-- That every name of a field has a property, and every reference
another. -/
def FieldClause.All (N : String → Prop) (P : TypeRef → Prop) (clause : FieldClause) : Prop :=
  (∀ name ∈ clause.names, N name) ∧ ∀ t ∈ clause.signature, P t

/-- **That every name of a statement has a property**, and every reference
another. -/
def Statement.All (N : String → Prop) (P : TypeRef → Prop) (statement : Statement) : Prop :=
  (∀ name ∈ statement.names, N name) ∧ statement.AllReferences P

theorem InputClause.all_map {clauses : List InputClause} (h : ∀ clause ∈ clauses, clause.All N P) :
    (∀ name ∈ clauses.map InputClause.name, N name) ∧ ∀ t ∈ clauses.map InputClause.type, P t :=
  ⟨List.forall_mem_map.mpr fun clause hmem => (h clause hmem).1,
    List.forall_mem_map.mpr fun clause hmem => (h clause hmem).2⟩

theorem FieldClause.all_flatMap {clauses : List FieldClause}
    (h : ∀ clause ∈ clauses, clause.All N P) :
    (∀ name ∈ clauses.flatMap FieldClause.names, N name) ∧
      ∀ t ∈ clauses.flatMap FieldClause.signature, P t :=
  ⟨List.forall_mem_flatMap.mpr fun clause hmem => (h clause hmem).1,
    List.forall_mem_flatMap.mpr fun clause hmem => (h clause hmem).2⟩

theorem Statement.all_object {name : String} {listed : List String} {applied : List Applied}
    {fields : List FieldClause} (hname : N name) (hlisted : ∀ n ∈ listed, N n)
    (hfields : ∀ clause ∈ fields, clause.All N P) :
    (Statement.object name listed applied fields).All N P := by
  obtain ⟨hnames, hreferences⟩ := FieldClause.all_flatMap hfields
  exact ⟨List.forall_mem_cons.mpr ⟨hname, List.forall_mem_append.mpr ⟨hlisted, hnames⟩⟩, hreferences⟩

theorem Statement.all_interface {name : String} {applied : List Applied}
    {fields : List FieldClause} (hname : N name) (hfields : ∀ clause ∈ fields, clause.All N P) :
    (Statement.interface name applied fields).All N P := by
  obtain ⟨hnames, hreferences⟩ := FieldClause.all_flatMap hfields
  exact ⟨List.forall_mem_cons.mpr ⟨hname, hnames⟩, hreferences⟩

theorem Statement.all_inputObject {name : String} {applied : List Applied}
    {fields : List InputClause} (hname : N name) (hfields : ∀ clause ∈ fields, clause.All N P) :
    (Statement.inputObject name applied fields).All N P := by
  obtain ⟨hnames, hreferences⟩ := InputClause.all_map hfields
  exact ⟨List.forall_mem_cons.mpr ⟨hname, hnames⟩, hreferences⟩

theorem Statement.all_directive {name : String} {arguments : List InputClause} (hname : N name)
    (harguments : ∀ clause ∈ arguments, clause.All N P) :
    (Statement.directive name arguments).All N P := by
  obtain ⟨hnames, hreferences⟩ := InputClause.all_map harguments
  exact ⟨List.forall_mem_cons.mpr ⟨hname, hnames⟩, hreferences⟩

end Kept

/-! ## Definitions keep the names and references of their statements -/

theorem InputClause.name_type_eq {clause : InputClause} {input : InputValue}
    (h : clause.inputValue = .ok input) : input.name = clause.name ∧ input.type = clause.type := by
  obtain ⟨default?, -, h⟩ := bind_eq_ok.mp h
  obtain ⟨_, -, hok⟩ := bind_eq_ok.mp h
  rw [← Except.ok.inj hok]
  exact ⟨rfl, rfl⟩

theorem InputClause.map_name_eq {clauses : List InputClause} {inputs : List InputValue}
    (h : clauses.mapM InputClause.inputValue = .ok inputs) :
    inputs.map InputValue.name = clauses.map InputClause.name :=
  map_eq_of_mapM (fun _ _ hinput => (InputClause.name_type_eq hinput).1) h

theorem InputClause.map_type_eq {clauses : List InputClause} {inputs : List InputValue}
    (h : clauses.mapM InputClause.inputValue = .ok inputs) :
    inputs.map InputValue.type = clauses.map InputClause.type :=
  map_eq_of_mapM (fun _ _ hinput => (InputClause.name_type_eq hinput).2) h

theorem FieldClause.names_signature_eq {clause : FieldClause} {field : Field}
    (h : clause.field = .ok field) :
    field.names = clause.names ∧ field.signature = clause.signature := by
  obtain ⟨arguments, harguments, h⟩ := bind_eq_ok.mp h
  obtain ⟨_, -, hok⟩ := bind_eq_ok.mp h
  rw [← Except.ok.inj hok, Field.names, names, Field.signature, FieldClause.signature,
    InputClause.map_name_eq harguments, InputClause.map_type_eq harguments]
  exact ⟨rfl, rfl⟩

theorem FieldClause.flatMap_names_eq {clauses : List FieldClause} {fields : List Field}
    (h : clauses.mapM FieldClause.field = .ok fields) :
    fields.flatMap Field.names = clauses.flatMap FieldClause.names := by
  rw [List.flatMap_def, List.flatMap_def,
    map_eq_of_mapM (fun _ _ hfield => (FieldClause.names_signature_eq hfield).1) h]

theorem FieldClause.flatMap_signature_eq {clauses : List FieldClause} {fields : List Field}
    (h : clauses.mapM FieldClause.field = .ok fields) :
    fields.flatMap Field.signature = clauses.flatMap FieldClause.signature := by
  rw [List.flatMap_def, List.flatMap_def,
    map_eq_of_mapM (fun _ _ hfield => (FieldClause.names_signature_eq hfield).2) h]

theorem EnumClause.value_eq {clause : EnumClause} {value : String}
    (h : clause.value = .ok value) : value = clause.name := by
  obtain ⟨_, -, hok⟩ := bind_eq_ok.mp h
  exact (Except.ok.inj hok).symm

/-- **A definition has the names and the references of its statement.** -/
theorem Statement.names_references_eq {statement : Statement} {extending : Bool}
    {definition : Definition} (h : statement.definition extending = .ok definition) :
    definition.names = statement.names ∧ definition.references = statement.references := by
  cases statement with
  | object name implements applied fields =>
    obtain ⟨_, -, h⟩ := bind_eq_ok.mp h
    obtain ⟨fields, hfields, hok⟩ := bind_eq_ok.mp h
    rw [← Except.ok.inj hok]
    exact ⟨congrArg (fun names => name :: (implements ++ names))
      (FieldClause.flatMap_names_eq hfields), FieldClause.flatMap_signature_eq hfields⟩
  | interface name applied fields =>
    obtain ⟨_, -, h⟩ := bind_eq_ok.mp h
    obtain ⟨fields, hfields, hok⟩ := bind_eq_ok.mp h
    rw [← Except.ok.inj hok]
    exact ⟨congrArg (name :: ·) (FieldClause.flatMap_names_eq hfields),
      FieldClause.flatMap_signature_eq hfields⟩
  | inputObject name applied fields =>
    obtain ⟨_, -, h⟩ := bind_eq_ok.mp h
    obtain ⟨inputs, hinputs, hok⟩ := bind_eq_ok.mp h
    rw [← Except.ok.inj hok]
    exact ⟨congrArg (name :: ·) (InputClause.map_name_eq hinputs), InputClause.map_type_eq hinputs⟩
  | directive name arguments =>
    obtain ⟨inputs, hinputs, hok⟩ := bind_eq_ok.mp h
    rw [← Except.ok.inj hok]
    exact ⟨congrArg (name :: ·) (InputClause.map_name_eq hinputs), InputClause.map_type_eq hinputs⟩
  | enumeration name applied values =>
    obtain ⟨_, -, h⟩ := bind_eq_ok.mp h
    obtain ⟨found, hfound, hok⟩ := bind_eq_ok.mp h
    rw [← Except.ok.inj hok]
    refine ⟨congrArg (name :: ·) ?_, rfl⟩
    have hvalues := map_eq_of_mapM (g := id) (fun _ _ => EnumClause.value_eq) hfound
    rwa [List.map_id] at hvalues
  | schema applied roots =>
    obtain ⟨_, -, h⟩ := bind_eq_ok.mp h
    obtain ⟨_, -, hok⟩ := bind_eq_ok.mp h
    rw [← Except.ok.inj hok]
    exact ⟨rfl, rfl⟩
  | scalar name applied | union name applied members =>
    obtain ⟨_, -, hok⟩ := bind_eq_ok.mp h
    rw [← Except.ok.inj hok]
    exact ⟨rfl, rfl⟩

/-! ## What is read of one is read of all -/

section Grammar

open Reader

variable {α : Type} {N : String → Prop} {P : TypeRef → Prop} {Q : α → Prop} {R : Statement → Prop}

theorem yields_between {opening closing : Char} {p : Reader α} (hp : p.Yields Q) :
    (between opening closing p).Yields Q :=
  hp.seqRight.seqLeft

/-- What is said of every item is said of none. -/
theorem yields_orNone {p : Reader (List α)} (hp : p.Yields fun items => ∀ item ∈ items, Q item) :
    (orNone p).Yields fun items => ∀ item ∈ items, Q item :=
  .withDefault (List.forall_mem_nil _) hp

theorem yields_directivesAndBody {body : Reader (List α)}
    (hbody : body.Yields fun items => ∀ item ∈ items, Q item) :
    (directivesAndBody body).Yields fun read => ∀ item ∈ read.snd, Q item :=
  (yields_bind fun _ => hbody.bind fun _ hitems => yields_pure hitems).orElse
    (yields_bind fun _ => yields_pure (List.forall_mem_nil _))

section Names

variable (hN : bareName.Yields N)

include hN

theorem yields_name : name.Yields N := yields_lexeme hN

/-- Some names are not those of values, but those of values are names. -/
theorem yields_enumName : enumName.Yields N := yields_lexeme hN.seqRight

theorem yields_declaration {word : String} {rest : String → Reader Statement}
    (hrest : ∀ name, N name → (rest name).Yields R) :
    (declaration word rest).Yields fun clause => R clause.statement :=
  yields_bind fun _ => yields_bind fun _ => (yields_name hN).bind fun name hname =>
    (hrest name hname).bind fun _ hstatement => yields_pure hstatement

theorem yields_extension {word : String} {rest : String → Reader Statement}
    (hrest : ∀ name, N name → (rest name).Yields R) :
    (extension word rest).Yields fun clause => R clause.statement :=
  yields_bind fun _ => yields_bind fun _ => (yields_name hN).bind fun name hname =>
    (hrest name hname).bind fun _ hstatement => yields_pure hstatement

theorem yields_implements : implements.Yields fun names => ∀ name ∈ names, N name :=
  yields_bind fun _ => yields_bind fun _ => (yields_name hN).sepBy1

theorem yields_members : members.Yields fun names => ∀ name ∈ names, N name :=
  yields_bind fun _ => yields_bind fun _ => (yields_name hN).sepBy1

theorem yields_enumValues : enumValues.Yields fun clauses => ∀ clause ∈ clauses, N clause.name :=
  yields_between <| .many1 <| yields_bind fun _ => (yields_enumName hN).bind fun _ hname =>
    yields_bind fun _ => yields_pure hname

end Names

section References

variable (hN : bareName.Yields N) (hP : typeRef.Yields P)

include hN hP

theorem yields_inputClause : inputClause.Yields (InputClause.All N P) :=
  yields_bind fun _ => (yields_name hN).bind fun _ hname => yields_bind fun _ =>
    hP.bind fun _ htype => yields_bind fun _ => yields_bind fun _ => yields_pure ⟨hname, htype⟩

theorem yields_arguments : arguments.Yields fun clauses => ∀ clause ∈ clauses, clause.All N P :=
  yields_orNone (yields_between (yields_inputClause hN hP).many1)

theorem yields_fieldClause : fieldClause.Yields (FieldClause.All N P) := by
  refine yields_bind fun _ => (yields_name hN).bind fun _ hname => (yields_arguments hN hP).bind
    fun clauses hclauses => yields_bind fun _ => hP.bind fun _ htype =>
      yields_bind fun _ => yields_pure ?_
  obtain ⟨hnames, htypes⟩ := InputClause.all_map hclauses
  exact ⟨List.forall_mem_cons.mpr ⟨hname, hnames⟩, List.forall_mem_cons.mpr ⟨htype, htypes⟩⟩

theorem yields_fields : fields.Yields fun clauses => ∀ clause ∈ clauses, clause.All N P :=
  yields_between (yields_fieldClause hN hP).many1

theorem yields_inputFields : inputFields.Yields fun clauses => ∀ clause ∈ clauses, clause.All N P :=
  yields_between (yields_inputClause hN hP).many1

/-! ### Clauses

One lemma for each kind. -/

omit hN hP in
/-- A schema block keeps nothing that anything is asked of. -/
theorem yields_schemaClause : schemaClause.Yields fun clause => clause.statement.All N P := by
  refine .orElse (yields_bind fun _ => yields_bind fun _ => yields_bind fun _ => ?_)
    (yields_bind fun _ => yields_bind fun _ => yields_bind fun _ => ?_)
  all_goals exact yields_pure ⟨List.forall_mem_nil _, List.forall_mem_nil _⟩

omit hP in
theorem yields_scalarClause : scalarClause.Yields fun clause => clause.statement.All N P := by
  refine .orElse (yields_declaration hN fun name hname => ?_)
    (yields_extension hN fun name hname => ?_)
  all_goals exact .map _ <| yields_of_forall fun _ =>
    ⟨List.forall_mem_singleton.mpr hname, List.forall_mem_nil _⟩

theorem yields_objectClause : objectClause.Yields fun clause => clause.statement.All N P := by
  refine .orElse (yields_declaration hN fun name hname => ?_)
    (yields_extension hN fun name hname => .orElse ?_ ?_)
  · exact (yields_orNone (yields_implements hN)).bind fun _ hlisted => yields_bind fun _ =>
      (yields_orNone (yields_fields hN hP)).bind fun _ hfields =>
        yields_pure (Statement.all_object hname hlisted hfields)
  · exact (yields_orNone (yields_implements hN)).bind fun _ hlisted =>
      (yields_directivesAndBody (yields_fields hN hP)).bind fun _ hfields =>
        yields_pure (Statement.all_object hname hlisted hfields)
  · exact (yields_implements hN).bind fun _ hlisted =>
      yields_pure (Statement.all_object hname hlisted (List.forall_mem_nil _))

theorem yields_interfaceClause :
    interfaceClause.Yields fun clause => clause.statement.All N P := by
  refine .orElse (yields_declaration hN fun name hname => yields_bind fun _ =>
      yields_bind fun _ => ?_)
    (yields_extension hN fun name hname => yields_bind fun _ => ?_)
  · exact (yields_orNone (yields_fields hN hP)).bind fun _ hfields =>
      yields_pure (Statement.all_interface hname hfields)
  · exact (yields_directivesAndBody (yields_fields hN hP)).bind fun _ hfields =>
      yields_pure (Statement.all_interface hname hfields)

omit hP in
theorem yields_unionClause : unionClause.Yields fun clause => clause.statement.All N P := by
  refine .orElse (yields_declaration hN fun name hname => yields_bind fun _ => ?_)
    (yields_extension hN fun name hname => ?_)
  · exact (yields_orNone (yields_members hN)).bind fun _ hmembers =>
      yields_pure ⟨List.forall_mem_cons.mpr ⟨hname, hmembers⟩, List.forall_mem_nil _⟩
  · exact (yields_directivesAndBody (yields_members hN)).bind fun _ hmembers =>
      yields_pure ⟨List.forall_mem_cons.mpr ⟨hname, hmembers⟩, List.forall_mem_nil _⟩

omit hP in
theorem yields_enumerationClause :
    enumerationClause.Yields fun clause => clause.statement.All N P := by
  refine .orElse (yields_declaration hN fun name hname => yields_bind fun _ => ?_)
    (yields_extension hN fun name hname => ?_)
  · exact (yields_orNone (yields_enumValues hN)).bind fun _ hvalues => yields_pure
      ⟨List.forall_mem_cons.mpr ⟨hname, List.forall_mem_map.mpr hvalues⟩, List.forall_mem_nil _⟩
  · exact (yields_directivesAndBody (yields_enumValues hN)).bind fun _ hvalues => yields_pure
      ⟨List.forall_mem_cons.mpr ⟨hname, List.forall_mem_map.mpr hvalues⟩, List.forall_mem_nil _⟩

theorem yields_inputObjectClause :
    inputObjectClause.Yields fun clause => clause.statement.All N P := by
  refine .orElse (yields_declaration hN fun name hname => yields_bind fun _ => ?_)
    (yields_extension hN fun name hname => ?_)
  · exact (yields_orNone (yields_inputFields hN hP)).bind fun _ hfields =>
      yields_pure (Statement.all_inputObject hname hfields)
  · exact (yields_directivesAndBody (yields_inputFields hN hP)).bind fun _ hfields =>
      yields_pure (Statement.all_inputObject hname hfields)

theorem yields_directiveClause :
    directiveClause.Yields fun clause => clause.statement.All N P :=
  yields_bind fun _ => yields_bind fun _ => yields_bind fun _ => (yields_name hN).bind
    fun _ hname => (yields_arguments hN hP).bind fun _ harguments => yields_bind fun _ =>
      yields_bind fun _ => yields_bind fun _ => yields_bind fun _ =>
        yields_pure (Statement.all_directive hname harguments)

/-- **What every name and every reference that is read has**, every one of a
clause has. -/
theorem yields_clause : clause.Yields fun clause => clause.statement.All N P :=
  yields_schemaClause.orElse ((yields_scalarClause hN).orElse ((yields_objectClause hN hP).orElse
    ((yields_interfaceClause hN hP).orElse ((yields_unionClause hN).orElse
      ((yields_enumerationClause hN).orElse ((yields_inputObjectClause hN hP).orElse
        (yields_directiveClause hN hP)))))))

theorem yields_clauses :
    clauses.Yields fun clauses => ∀ clause ∈ clauses, clause.statement.All N P :=
  (yields_clause hN hP).many1.seqLeft

end References

/-! ### One name -/

/-- **A name that is read is an identifier.** -/
theorem yields_bareName : bareName.Yields IsIdentifier := by
  intro text name rest h
  obtain ⟨first, middle, hfirst, h⟩ := bind_eq_some.mp h
  obtain ⟨others, final, hothers, h⟩ := bind_eq_some.mp h
  obtain ⟨rfl, rfl⟩ := Prod.mk.inj (Option.some.inj h)
  have hstart : isNameStart first = true := by
    cases text with
    | nil => cases hfirst
    | cons c text =>
      rw [satisfy] at hfirst
      split at hfirst
      · next hc =>
        obtain ⟨rfl, rfl⟩ := Prod.mk.inj (Option.some.inj hfirst)
        exact hc
      · cases hfirst
  have hrest : ∀ c ∈ others, isNameChar c = true := by
    obtain ⟨rfl, -⟩ := Prod.mk.inj (Option.some.inj hothers)
    exact List.all_eq_true.mp List.all_takeWhile
  constructor
  · rw [String.toList_ofList]
    exact hstart
  · rw [String.toList_ofList]
    exact List.forall_mem_cons.mpr ⟨isNameChar_of_isNameStart hstart, hrest⟩

/-! ### One reference -/

/-- **The reference for a type is sound.** A mark is written behind a name or a
list only, and neither excludes null by itself. -/
theorem WrittenType.isSound_reference (type : WrittenType) : type.reference.isSound = true := by
  induction type with
  | named name nullable => cases nullable <;> rfl
  | list inner nullable ih =>
    cases nullable with
    | true => exact ih
    | false => exact ih

/-- **A reference that is read is sound.** -/
theorem yields_typeRef : typeRef.Yields fun t => t.isSound = true :=
  .map _ (yields_of_forall WrittenType.isSound_reference)

/-- A mark does not change the leaf. -/
theorem WrittenType.leaf_exclude (nullable : Bool) (base : TypeRef) :
    (exclude nullable base).leaf = base.leaf := by
  cases nullable <;> rfl

/-- **The leaf of a reference that is read** is a name that is read. -/
theorem yields_typeRef_leaf (hN : bareName.Yields N) : typeRef.Yields fun t => N t.leaf := by
  refine .map _ (yields_lexeme (.recursive fun inner hinner => .orElse ?_ ?_))
  · refine hN.bind fun name hname => .map _ (yields_of_forall fun nullable => ?_)
    rw [WrittenType.reference, WrittenType.leaf_exclude]
    exact hname
  · refine hinner.seqRight.seqLeft.bind fun type hleaf =>
      .map _ (yields_of_forall fun nullable => ?_)
    rw [WrittenType.reference, WrittenType.leaf_exclude]
    exact hleaf

end Grammar

end Sdl

/-! ## What is checked is a reference of the document -/

/-- What is checked of an argument is its type. -/
theorem InputValue.eq_type_of_mem_checks {input : InputValue} {stage : Stage} {t : TypeRef}
    (h : .reference stage t ∈ input.checks) : t = input.type := by
  obtain h | h := List.mem_append.mp h
  · cases List.mem_singleton.mp h
    rfl
  · obtain ⟨value, -, heq⟩ := List.mem_map.mp h
    cases heq

/-- What is checked of a field is in its signature. -/
theorem Field.mem_signature_of_mem_checks {field : Field} {stage : Stage} {t : TypeRef}
    (h : .reference stage t ∈ field.checks) : t ∈ field.signature := by
  obtain h | h := List.mem_append.mp h
  · cases List.mem_singleton.mp h
    exact List.mem_cons_self
  · obtain ⟨input, hinput, h⟩ := List.mem_flatMap.mp h
    rw [InputValue.eq_type_of_mem_checks h]
    exact List.mem_cons_of_mem _ (List.mem_map_of_mem hinput)

namespace Definition

variable {definition : Definition} {stage : Stage} {t : TypeRef} {fields : List Field}

theorem mem_signature_of_mem_plainFields
    (h : .reference stage t ∈ (plainFields fields).map fun field =>
      Check.reference .types field.type) : t ∈ fields.flatMap Field.signature := by
  obtain ⟨field, hfield, heq⟩ := List.mem_map.mp h
  cases heq
  exact List.mem_flatMap.mpr ⟨field, List.mem_of_mem_filter hfield, List.mem_cons_self⟩

/-- **What is checked of a definition** is one of its references, in either
stage. -/
theorem mem_references_of_mem_checks
    (h : .reference stage t ∈ definition.typeChecks ++ definition.resolverChecks) :
    t ∈ definition.references := by
  obtain h | h := List.mem_append.mp h
  · cases definition with
    | object it =>
      rw [typeChecks] at h
      split at h
      · cases h
      · exact mem_signature_of_mem_plainFields h
    | inputObject it =>
      rw [typeChecks] at h
      split at h
      · cases h
      · obtain ⟨input, hinput, heq⟩ := List.mem_map.mp h
        cases heq
        exact List.mem_map_of_mem hinput
    | interface it => exact mem_signature_of_mem_plainFields h
    | union it =>
      obtain ⟨name, -, heq⟩ := List.mem_map.mp h
      cases heq
    | enumeration it | scalar it | schema it | directive it => cases h
  · cases definition with
    | object it =>
      obtain ⟨field, hfield, h⟩ := List.mem_flatMap.mp h
      exact List.mem_flatMap.mpr
        ⟨field, List.mem_of_mem_filter hfield, Field.mem_signature_of_mem_checks h⟩
    | _ => cases h

end Definition

namespace Document

variable {document : Document} {text : String} {given : Scope}

theorem mem_references_of_mem_checks {stage : Stage} {t : TypeRef}
    (h : .reference stage t ∈ document.checks) : t ∈ document.references := by
  have hdefinition : ∃ definition ∈ document.definitions.toList,
      .reference stage t ∈ definition.typeChecks ++ definition.resolverChecks := by
    obtain h | h := List.mem_append.mp h
    · obtain ⟨definition, hmem, h⟩ := List.mem_flatMap.mp h
      exact ⟨definition, hmem, List.mem_append_left _ h⟩
    · obtain ⟨definition, hmem, h⟩ := List.mem_flatMap.mp h
      exact ⟨definition, hmem, List.mem_append_right _ h⟩
  obtain ⟨definition, hmem, h⟩ := hdefinition
  exact List.mem_flatMap.mpr ⟨definition, hmem, Definition.mem_references_of_mem_checks h⟩

/-! ## From the text to the modules -/

/-- **What every name and every reference that is read has**, every one of
an accepted document has. -/
theorem forall_mem_of_parse {N : String → Prop} {P : TypeRef → Prop} (hN : Sdl.bareName.Yields N)
    (hP : Sdl.typeRef.Yields P) (h : Document.parse text = .ok document) :
    (∀ name ∈ document.names, N name) ∧ ∀ t ∈ document.references, P t := by
  obtain ⟨clauses, ⟨⟨rest, hread⟩, -⟩, hdeclares⟩ := exists_declares_of_parse h
  have hall := Sdl.yields_clauses hN hP text.toList clauses rest hread
  rw [names, references]
  generalize document.definitions.toList = definitions at hdeclares
  clear hread
  induction hdeclares with
  | nil => exact ⟨List.forall_mem_nil _, List.forall_mem_nil _⟩
  | cons hclause _ ih =>
    obtain ⟨⟨hnames, hreferences⟩, hothers⟩ := List.forall_mem_cons.mp hall
    obtain ⟨hnamesEq, hreferencesEq⟩ := Sdl.Statement.names_references_eq hclause.2
    obtain ⟨hothersNames, hothersReferences⟩ := ih hothers
    rw [List.flatMap_cons, List.flatMap_cons, hnamesEq, hreferencesEq]
    exact ⟨List.forall_mem_append.mpr ⟨hnames, hothersNames⟩,
      List.forall_mem_append.mpr ⟨hreferences, hothersReferences⟩⟩

theorem forall_mem_references {P : TypeRef → Prop} (hP : Sdl.typeRef.Yields P)
    (h : Document.parse text = .ok document) : ∀ t ∈ document.references, P t :=
  (forall_mem_of_parse (Reader.yields_of_forall fun _ => trivial) hP h).2

/-- **The names of an accepted document are identifiers**, and so are the
leaves of its references. -/
theorem isIdentifier_of_parse (h : Document.parse text = .ok document) :
    (∀ name ∈ document.names, IsIdentifier name) ∧
      ∀ t ∈ document.references, IsIdentifier t.leaf :=
  forall_mem_of_parse Sdl.yields_bareName (Sdl.yields_typeRef_leaf Sdl.yields_bareName) h

/-- **A run on sound references** ends with no doubled exclusion. -/
theorem generate_ne_doubleExclusion (h : ∀ t ∈ document.references, t.isSound = true)
    (reference : TypeRef) (found : TypeExpr) :
    document.generate given ≠ .error (.doubleExclusion reference found) := by
  intro herror
  have hfault := failure?_eq_some.mpr herror
  rw [failure?_generate] at hfault
  obtain ⟨check, hcheck, hfault⟩ := List.exists_of_findSome?_eq_some hfault
  cases check with
  | reference stage t =>
    rw [Check.fault?] at hfault
    split at hfault
    · -- the only check with this error is that of a reference with a doubled exclusion
      rw [(TypeRef.doubled?_eq_none t).mpr (h t (mem_references_of_mem_checks hcheck))] at hfault
      cases hfault
    · cases hfault
  | member name =>
    rw [Check.fault?] at hfault
    split at hfault <;> cases hfault
  | default argument value type =>
    cases value with
    | enumValue name =>
      rw [Check.fault?] at hfault
      split at hfault <;> cases hfault
    | _ => cases hfault

/-- **No schema text brings up a doubled exclusion.** No reference of an
accepted document excludes null twice at one level, whatever stands around
it, and so no run on the document ends with the error for that, whatever
was given; nor does a run on the text. A sound reference has one fault
only, that its leaf means nothing. -/
theorem generate_of_text_excludes_once (text : String) :
    (∀ document, Document.parse text = .ok document →
      (∀ t ∈ document.references, t.isSound = true) ∧
      ∀ given reference found,
        document.generate given ≠ .error (.doubleExclusion reference found)) ∧
    (∀ reference found,
      Generated.ofText text ≠ .error (.generate (.doubleExclusion reference found))) ∧
    ∀ (t : TypeRef) (scope : Scope) (error : GenerateError), t.isSound = true →
      t.resolve scope = .error error → error = .unresolvedType t.leaf := by
  have hdocument (document : Document) (h : Document.parse text = .ok document) :
      (∀ t ∈ document.references, t.isSound = true) ∧ ∀ given reference found,
        document.generate given ≠ .error (.doubleExclusion reference found) :=
    have hsound := forall_mem_references Sdl.yields_typeRef h
    ⟨hsound, fun _ => generate_ne_doubleExclusion hsound⟩
  refine ⟨hdocument, fun reference found herror => ?_, fun t scope error hsound herror => ?_⟩
  · unfold Generated.ofText at herror
    split at herror
    · cases herror
    · next document hparse =>
      split at herror
      · next error hgenerate =>
        cases herror
        exact (hdocument document hparse).2 .empty reference found hgenerate
      · cases herror
  · rw [TypeRef.resolve_eq, (TypeRef.doubled?_eq_none t).mpr hsound] at herror
    split at herror
    · exact (Except.error.inj herror).symm
    · cases herror

/-- A text with marks wherever they may stand: around lists in lists, in
arguments and in the fields of input objects. -/
def markedText : String :=
  "type A \x7bf(x: [[B!]!]!): [A!]! g: [[C!]]!\x7d input B \x7bx: [[B!]!]\x7d " ++
    "directive @d(y: [Int!]!) on FIELD"

/-- **A run on a text full of marks fails**, because the leaf of the first
reference to be checked means nothing, and not for the marks. -/
theorem generate_of_text_excludes_once_marked :
    ∃ document, Document.parse markedText = .ok document ∧
      document.references.length = 5 ∧ (∀ t ∈ document.references, t.isSound = true) ∧
      (∃ error, document.generate .empty = .error error) ∧
      ∀ reference found, document.generate .empty ≠ .error (.doubleExclusion reference found) := by
  have hrun : (Document.parse markedText).toOption.any (fun document =>
      decide (document.references.length = 5)
        && (failure? (document.generate .empty)).isSome) = true := by
    decide +kernel
  obtain ⟨document, hparse, hgood⟩ := exists_ok_of_any hrun
  obtain ⟨hlength, hfails⟩ := Bool.and_eq_true_iff.mp hgood
  obtain ⟨error, herror⟩ := Option.isSome_iff_exists.mp hfails
  obtain ⟨hsound, honce⟩ := (generate_of_text_excludes_once markedText).1 document hparse
  exact ⟨document, hparse, of_decide_eq_true hlength, hsound, ⟨error, failure?_eq_some.mp herror⟩,
    honce .empty⟩

end Document

end SchemaScaffold
