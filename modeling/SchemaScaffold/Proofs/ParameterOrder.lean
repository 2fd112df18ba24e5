import SchemaScaffold.Proofs.Run
import SchemaScaffold.Sdl.Parse

/-!
# The order of parameters

A function may have parameters with a default, and then a parameter without
one must not follow: a definition that has it otherwise is refused when the
module is read. The attributes of a record are under the same rule, and they
are sorted for it. The parameters of a stub are not. They stand in the order
of the arguments of the field, behind two that have no default, and each has
a default just if its argument has one.

So a stub keeps the rule just if its field does (`Field.defaultsLast_toStub`),
and nothing in a schema makes a field keep it: there arguments are given by
name, and their order means nothing. `Document.generate_keeps_argument_order`
says when the module of resolvers is one that can be read, and
`Document.exists_misplaced_default` has a schema for which it is not.
-/

namespace SchemaScaffold

/-! ## Defaults that come last -/

section DefaultsLast

variable {α β γ δ : Type} {default? : α → Option β} {items : List α}

/-- **Whether defaults come last**: nothing without a default follows
something with one. -/
def DefaultsLast (default? : α → Option β) (items : List α) : Prop :=
  items.Pairwise fun a b => (default? a).isSome = true → (default? b).isSome = true

instance : Decidable (DefaultsLast default? items) :=
  inferInstanceAs (Decidable (List.Pairwise _ _))

/-- In front there may be anything without a default. -/
theorem defaultsLast_cons_of_none {a : α} (h : default? a = none) :
    DefaultsLast default? (a :: items) ↔ DefaultsLast default? items := by
  simp [DefaultsLast, h]

/-- What has defaults in the same places has them last or not. -/
theorem defaultsLast_map {other? : γ → Option δ} {f : α → γ}
    (h : ∀ a, (other? (f a)).isSome = (default? a).isSome) :
    DefaultsLast other? (items.map f) ↔ DefaultsLast default? items := by
  simp [DefaultsLast, List.pairwise_map, h]

end DefaultsLast

/-! ## The parameters of a stub as they are written -/

/-- **A parameter as it is written**: what stands in front of its default,
and the default. -/
structure WrittenParameter where
  /-- The name with the type. -/
  annotated : String
  /-- The default. -/
  default? : Option String

/-- The text of a parameter. -/
def WrittenParameter.text (parameter : WrittenParameter) : String :=
  parameter.annotated ++ (match parameter.default? with
    | some default => " = " ++ default
    | none => "")

/-- How a parameter is written. -/
def Parameter.written (parameter : Parameter) : WrittenParameter :=
  { annotated := parameter.name ++ ": " ++ parameter.type.text Stage.resolvers.module
    default? := parameter.default?.map EnumDefault.text }

theorem Parameter.text_eq_written (parameter : Parameter) :
    parameter.text = parameter.written.text := by
  rw [text, written, WrittenParameter.text]
  cases parameter.default? <;> rfl

namespace Stub

variable {owner : String} {parent? : Option TypeExpr}

/-- **The parameter list of a stub**: the value whose field is asked for, the
request, and the parameters for the arguments. -/
def parameterList (owner : String) (parent? : Option TypeExpr) (stub : Stub) :
    List WrittenParameter :=
  ⟨parentText owner parent?, none⟩ :: ⟨"info: GraphQLResolveInfo", none⟩
    :: stub.parameters.map Parameter.written

/-- The text of a stub with a given parameter list. -/
def textWith (owner : String) (stub : Stub) (parameters : List WrittenParameter) : String :=
  "def resolve_" ++ owner ++ "_" ++ stub.name ++ "("
    ++ ", ".intercalate (parameters.map WrittenParameter.text)
    ++ ") -> " ++ stub.returnType.text Stage.resolvers.module ++ ":\n" ++ Block.emptyBody

/-- **A stub is written with its parameter list.** -/
theorem text_eq_textWith (owner : String) (parent? : Option TypeExpr) (stub : Stub) :
    stub.text owner parent? = stub.textWith owner (stub.parameterList owner parent?) := by
  have hwithout (annotated : String) :
      WrittenParameter.text ⟨annotated, none⟩ = annotated := by
    simp [WrittenParameter.text]
  have hparameters : (stub.parameters.map Parameter.written).map WrittenParameter.text
      = stub.parameters.map Parameter.text := by
    rw [List.map_map]
    exact List.map_congr_left fun parameter _ => parameter.text_eq_written.symm
  unfold text textWith parameterList
  rw [List.map_cons, List.map_cons, hwithout, hwithout, hparameters]

/-- The two parameters in front have no default. -/
theorem defaultsLast_parameterList {stub : Stub} :
    DefaultsLast WrittenParameter.default? (stub.parameterList owner parent?) ↔
      DefaultsLast Parameter.default? stub.parameters := by
  rw [parameterList, defaultsLast_cons_of_none rfl, defaultsLast_cons_of_none rfl]
  exact defaultsLast_map fun parameter => Option.isSome_map

end Stub

/-! ## The parameters of a stub and the arguments of its field -/

section Arguments

variable {scope : Scope}

/-- A parameter has the name of its argument, and a default just if it has
one. -/
theorem InputValue.toParameter_names (scope : Scope) (input : InputValue) :
    (input.toParameter scope).schemaName = input.name ∧
      (input.toParameter scope).default?.isSome = input.default?.isSome := by
  rw [toParameter]
  cases input.default? <;> exact ⟨rfl, rfl⟩

/-- **The parameters are the arguments, in order.** -/
theorem Field.map_parameters_toStub (scope : Scope) (field : Field) :
    (field.toStub scope).parameters.map (fun it => (it.schemaName, it.default?.isSome))
      = field.arguments.map fun it => (it.name, it.default?.isSome) := by
  rw [toStub, List.map_map]
  refine List.map_congr_left fun input _ => ?_
  obtain ⟨hname, hdefault⟩ := input.toParameter_names scope
  exact Prod.ext hname hdefault

/-- **A stub has its defaults last just if its field has.** -/
theorem Field.defaultsLast_toStub {owner : String} {parent? : Option TypeExpr} {field : Field} :
    DefaultsLast WrittenParameter.default? ((field.toStub scope).parameterList owner parent?) ↔
      DefaultsLast InputValue.default? field.arguments := by
  rw [Stub.defaultsLast_parameterList, toStub]
  exact defaultsLast_map fun input => (input.toParameter_names scope).2

end Arguments

/-! ## The stubs of a module -/

/-- The binding of an object, if a binding is one. -/
def Binding.object? : Binding → Option ObjectBinding
  | .object it => some it
  | .enumeration _ => none

theorem Binding.eq_of_object? {binding : Binding} {it : ObjectBinding}
    (h : binding.object? = some it) : binding = .object it := by
  cases binding with
  | object found => exact congrArg _ (Option.some.inj h)
  | enumeration found => cases h

namespace Document

variable {document : Document} {given : Scope} {generated : Generated}

/-- **The parameters of stubs stand in the order of the arguments.** A stub
is written with its parameter list, in which the parameters for the
arguments follow two without a default, in order, each with a default just
if its argument has one. Whether defaults come last is therefore a question
to the schema: the stubs of a module all have theirs last just if no field
of an object has an argument without a default behind one with a default. -/
theorem generate_keeps_argument_order (h : document.generate given = .ok generated) :
    ∃ bindings, document.bindings generated.scope = .ok bindings ∧
      generated.resolverBlocks = Binding.blocks bindings ∧
      (∀ it, .object it ∈ bindings → ∃ object, .object object ∈ document.definitions.toList ∧
        it.schemaName = object.name ∧
        List.Forall₂ (fun field stub => stub.schemaName = field.name ∧
            stub.text it.name it.parent?
              = stub.textWith it.name (stub.parameterList it.name it.parent?) ∧
            stub.parameters.map (fun it => (it.schemaName, it.default?.isSome))
              = field.arguments.map (fun it => (it.name, it.default?.isSome)) ∧
            (DefaultsLast WrittenParameter.default? (stub.parameterList it.name it.parent?) ↔
              DefaultsLast InputValue.default? field.arguments))
          (computedFields object.fields) it.stubs) ∧
      ((∀ it, .object it ∈ bindings → ∀ stub ∈ it.stubs,
          DefaultsLast WrittenParameter.default? (stub.parameterList it.name it.parent?)) ↔
        ∀ object, .object object ∈ document.definitions.toList →
          ∀ field ∈ computedFields object.fields,
            DefaultsLast InputValue.default? field.arguments) := by
  obtain ⟨-, hbindings, rfl⟩ := generate_eq_ok.mp h
  refine ⟨_, hbindings, rfl, fun it hit => ?_, fun hstubs object hmem field hfield => ?_,
    fun hfields it hit stub hstub => ?_⟩
  · obtain ⟨object, hmem, rfl⟩ := object_mem_bindingsIn.mp hit
    refine ⟨object, hmem, rfl, List.forall₂_map_right_iff.mpr (List.forall₂_same.mpr ?_)⟩
    exact fun field _ => ⟨rfl, Stub.text_eq_textWith _ _ _, field.map_parameters_toStub _,
      Field.defaultsLast_toStub⟩
  · have hit : .object (object.toBinding (document.finalScope given))
        ∈ document.bindingsIn (document.finalScope given) :=
      object_mem_bindingsIn.mpr ⟨object, hmem, rfl⟩
    exact Field.defaultsLast_toStub.mp (hstubs _ hit _ (List.mem_map_of_mem hfield))
  · obtain ⟨object, hmem, rfl⟩ := object_mem_bindingsIn.mp hit
    obtain ⟨field, hfield, rfl⟩ := List.mem_map.mp hstub
    exact Field.defaultsLast_toStub.mpr (hfields object hmem field hfield)

/-- A schema with a field that has its default last. -/
def lastDefaultText : String :=
  "enum Color \x7b RED \x7d type Query \x7b paint(layers: Int!, color: Color = RED): Color \x7d"

/-- Where the argument with a default comes last in the schema, so does the
parameter. -/
theorem generate_keeps_argument_order_lastDefault :
    ∃ document generated bindings, Document.parse lastDefaultText = .ok document ∧
      document.generate .empty = .ok generated ∧
      document.bindings generated.scope = .ok bindings ∧
      ∀ it, .object it ∈ bindings → ∀ stub ∈ it.stubs,
        DefaultsLast WrittenParameter.default? (stub.parameterList it.name it.parent?) := by
  have hrun : (Document.parse lastDefaultText).toOption.any (fun document =>
      (document.generate .empty).toOption.any fun _ =>
        document.definitions.toList.all fun definition => match definition with
          | .object it => (computedFields it.fields).all fun field =>
              decide (DefaultsLast InputValue.default? field.arguments)
          | _ => true) = true := by
    decide +kernel
  obtain ⟨document, hparse, hgenerate⟩ := exists_ok_of_any hrun
  obtain ⟨generated, hgenerated, hlast⟩ := exists_ok_of_any hgenerate
  obtain ⟨bindings, hbindings, -, -, hiff⟩ := generate_keeps_argument_order hgenerated
  refine ⟨document, generated, bindings, hparse, hgenerated, hbindings,
    hiff.mpr fun object hmem field hfield => ?_⟩
  have hobject := List.all_eq_true.mp hlast _ hmem
  exact of_decide_eq_true (List.all_eq_true.mp hobject field hfield)

/-- The same schema with the two arguments the other way round. -/
def firstDefaultText : String :=
  "enum Color \x7b RED \x7d type Query \x7b paint(color: Color = RED, layers: Int!): Color \x7d"

/-- The first line of the stub for that schema, and its body. -/
def firstDefaultStub : String :=
  "def resolve_query_paint(_: None, info: GraphQLResolveInfo, "
    ++ "color: Color = Color.RED, layers: int) -> Optional[Color]:\n    ..."

/-- **A default that is not the last**: the stub has a parameter without a
default behind one with a default, and the module of resolvers cannot be
read. -/
theorem exists_misplaced_default :
    ∃ document generated bindings it stub, Document.parse firstDefaultText = .ok document ∧
      document.generate .empty = .ok generated ∧
      document.bindings generated.scope = .ok bindings ∧
      generated.resolverBlocks = Binding.blocks bindings ∧
      .object it ∈ bindings ∧ stub ∈ it.stubs ∧
      stub.text it.name it.parent? = firstDefaultStub ∧
      ¬DefaultsLast WrittenParameter.default? (stub.parameterList it.name it.parent?) := by
  have hrun : (Document.parse firstDefaultText).toOption.any (fun document =>
      (document.generate .empty).toOption.any fun generated =>
        (document.bindings generated.scope).toOption.any fun bindings =>
          decide (generated.resolverBlocks = Binding.blocks bindings)
            && bindings.any fun binding => binding.object?.any fun it => it.stubs.any fun stub =>
              decide (stub.text it.name it.parent? = firstDefaultStub ∧
                ¬DefaultsLast WrittenParameter.default? (stub.parameterList it.name it.parent?)))
      = true := by
    decide +kernel
  obtain ⟨document, hparse, hgenerate⟩ := exists_ok_of_any hrun
  obtain ⟨generated, hgenerated, hbind⟩ := exists_ok_of_any hgenerate
  obtain ⟨bindings, hbindings, hgood⟩ := exists_ok_of_any hbind
  obtain ⟨hblocks, hany⟩ := Bool.and_eq_true_iff.mp hgood
  obtain ⟨binding, hbinding, hobject⟩ := List.any_eq_true.mp hany
  obtain ⟨it, hit, hstubs⟩ := (Option.any_eq_true _ _).mp hobject
  obtain ⟨stub, hstub, htest⟩ := List.any_eq_true.mp hstubs
  obtain ⟨htext, hmisplaced⟩ := of_decide_eq_true htest
  exact ⟨document, generated, bindings, it, stub, hparse, hgenerated, hbindings,
    of_decide_eq_true hblocks, Binding.eq_of_object? hit ▸ hbinding, hstub, htext, hmisplaced⟩

end Document

end SchemaScaffold
