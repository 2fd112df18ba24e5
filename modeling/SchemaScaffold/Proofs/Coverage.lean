import Mathlib.Data.List.Perm.Basic
import SchemaScaffold.Proofs.Run
import SchemaScaffold.Proofs.Written

/-!
# Where each field goes

Both stages look at the fields of an object, and each takes a part of them:
a field without arguments becomes an attribute in the module of types, a
field with arguments a stub in the module of resolvers. The parts are told
apart in two places that do not know of each other, and the attributes are
sorted on top of that. So it is not plain from either stage that no field
goes both ways, and none neither way.

`Document.generate_covers` says where each field goes, definition by
definition and letter by letter. What the module of types has for a definition
is `IsTyped`, what the module of resolvers has for it is `IsBound`. In the first
the fields are those without arguments, in the order of the lines they became;
that they are *these* fields, each once, is a permutation and does not depend on
what the sorting looks at. In the second they are the others, in order.
-/

namespace SchemaScaffold

/-! ## Sorted results -/

/-- **What is written in another order** belongs to the same things, in that
order. -/
theorem exists_perm_forall₂ {α β : Type} {R : α → β → Prop} {xs : List α} {ys zs : List β}
    (h : List.Forall₂ R xs ys) (hperm : zs.Perm ys) : ∃ ws, ws.Perm xs ∧ List.Forall₂ R ws zs := by
  have hcomp : Relation.Comp (List.Forall₂ R) List.Perm xs zs := ⟨ys, h, hperm.symm⟩
  rw [List.forall₂_comp_perm_eq_perm_comp_forall₂] at hcomp
  obtain ⟨ws, hws, hall⟩ := hcomp
  exact ⟨ws, hws.symm, hall⟩

/-- The fields without arguments and those with make up all fields. -/
theorem plainFields_append_computedFields (fields : List Field) :
    (plainFields fields ++ computedFields fields).Perm fields := by
  simpa [plainFields, computedFields] using
    List.filter_append_perm (fun field => field.arguments.isEmpty) fields

/-! ## The lines for fields -/

section Lines

variable {scope : Scope} {attributes : List Attribute}

theorem writesAttribute_of_ofField {field : Field} {a : Attribute}
    (h : Attribute.ofField scope field = .ok a) :
    WritesAttribute scope field.name field.type a.line := by
  obtain ⟨type, htype, hok⟩ := bind_eq_ok.mp h
  obtain rfl := Except.ok.inj hok
  exact writesAttribute_line htype

theorem writesAttribute_of_ofInput {input : InputValue} {a : Attribute}
    (h : Attribute.ofInput scope input = .ok a) :
    WritesAttribute scope input.name input.type a.line := by
  obtain ⟨type, htype, hok⟩ := bind_eq_ok.mp h
  obtain rfl := Except.ok.inj hok
  exact writesAttribute_line htype

/-- **The lines of attributes** are those of the fields that the attributes
were made of, each once. -/
theorem exists_lines {α : Type} {name : α → String} {reference : α → TypeRef}
    {make : α → Except GenerateError Attribute} {items : List α}
    (hmake : ∀ item a, make item = .ok a →
      WritesAttribute scope (name item) (reference item) a.line)
    (h : items.mapM make = .ok attributes) :
    ∃ annotated, annotated.Perm items ∧
      List.Forall₂ (fun item => WritesAttribute scope (name item) (reference item)) annotated
        (Declaration.attributeLines attributes) := by
  obtain ⟨annotated, hperm, hall⟩ :=
    exists_perm_forall₂ (mapM_eq_ok.mp h) (List.mergeSort_perm attributes Attribute.le)
  exact ⟨annotated, hperm, List.forall₂_map_right_iff.mpr (hall.imp hmake)⟩

end Lines

/-! ## What there is for a definition -/

/-- **What the module of types has for a definition.** -/
inductive IsTyped (scope : Scope) : Definition → Block → Prop where
  /-- For an object a record, with a line for each field without arguments,
  and with the fields that have arguments these are all. -/
  | object {it : ObjectType} {block : Block} {annotated : List Field} {basesText : String}
    {lines : List String} (hquery : it.name ≠ "Query") (hmutation : it.name ≠ "Mutation")
    (hplain : annotated.Perm (plainFields it.fields))
    (hall : (annotated ++ computedFields it.fields).Perm it.fields)
    (hlines : List.Forall₂ (fun field => WritesAttribute scope field.name field.type) annotated
      lines)
    (hbases : WritesBases it.implements basesText)
    (hbody : WritesClass ("@dataclass(frozen=True)\nclass " ++ it.name ++ basesText ++ ":") lines
      block.body) :
    IsTyped scope (.object it) block
  /-- For an input object a record, with a line for each field. -/
  | inputObject {it : InputObjectType} {block : Block} {annotated : List InputValue}
    {lines : List String} (hquery : it.name ≠ "Query") (hmutation : it.name ≠ "Mutation")
    (hall : annotated.Perm it.fields)
    (hlines : List.Forall₂ (fun input => WritesAttribute scope input.name input.type) annotated
      lines)
    (hbody : WritesClass ("@dataclass(frozen=True)\nclass " ++ it.name ++ ":") lines block.body) :
    IsTyped scope (.inputObject it) block
  /-- For an interface a protocol, with a line for each field without
  arguments. -/
  | interface {it : InterfaceType} {block : Block} {annotated : List Field} {lines : List String}
    (hplain : annotated.Perm (plainFields it.fields))
    (hlines : List.Forall₂ (fun field => WritesAttribute scope field.name field.type) annotated
      lines)
    (hbody : WritesClass ("class " ++ it.name ++ "(Protocol):") lines block.body) :
    IsTyped scope (.interface it) block
  /-- For an enumeration a class, with a line for each value. -/
  | enumeration {it : EnumType} {block : Block}
    (hbody : WritesClass ("class " ++ it.name ++ "(Enum):")
      (it.values.map fun value => "    " ++ value ++ " = " ++ ("\"" ++ value ++ "\"")) block.body) :
    IsTyped scope (.enumeration it) block
  /-- For a union a name for one of its members. -/
  | union {it : UnionType} {block : Block} {members : List TypeExpr}
    (hmembers : List.Forall₂ (fun name type => scope.resolveName name = .ok type) it.members
      members)
    (hbody : block.body = it.name ++ " = Union["
      ++ ", ".intercalate (members.map (TypeExpr.text ".types")) ++ "]") :
    IsTyped scope (.union it) block

/-- **What the module of resolvers has for a definition.** -/
inductive IsBound (scope : Scope) : Definition → Block → Prop where
  /-- For an object the line that binds it, and a stub for each field with
  arguments, in order, under a line that attaches it to the object. -/
  | object {it : ObjectType} {block : Block} {call : String} {stubs : List String}
    (hcall : WritesCall it call)
    (hstubs : List.Forall₂ (fun field stub => ∃ function, WritesStub scope it field function ∧
        stub = "@" ++ snakeCase it.name ++ ".field(" ++ ("\"" ++ field.name ++ "\"") ++ ")\n"
          ++ function)
      (computedFields it.fields) stubs)
    (hbody : block.body = "\n".intercalate ((snakeCase it.name ++ " = " ++ call) :: stubs)) :
    IsBound scope (.object it) block
  /-- For an enumeration the line that binds it. -/
  | enumeration {it : EnumType} {block : Block}
    (hbody : block.body = snakeCase it.name ++ " = "
      ++ ("EnumType(" ++ ("\"" ++ it.name ++ "\"") ++ ", values=" ++ it.name ++ ")")) :
    IsBound scope (.enumeration it) block

namespace Definition

variable {scope : Scope} {definition : Definition} {declaration : Declaration} {binding : Binding}

theorem ne_of_isRootName {name : String} (h : ¬isRootName name = true) :
    name ≠ "Query" ∧ name ≠ "Mutation" := by
  simpa [isRootName] using h

/-- **The declaration of a definition** is what the module of types has for
it. -/
theorem isTyped_block (h : Declaration.ofDefinition? scope definition = .ok (some declaration)) :
    IsTyped scope definition declaration.block := by
  cases definition with
  | object it =>
    simp only [Declaration.ofDefinition?] at h
    split at h
    · cases h
    · next hroot =>
      obtain ⟨attributes, hattributes, hok⟩ := bind_eq_ok.mp h
      cases Except.ok.inj hok
      rw [Attribute.ofFields_eq] at hattributes
      obtain ⟨annotated, hperm, hlines⟩ :=
        exists_lines (fun _ _ => writesAttribute_of_ofField) hattributes
      have hall := (hperm.append_right _).trans (plainFields_append_computedFields it.fields)
      obtain ⟨hquery, hmutation⟩ := ne_of_isRootName hroot
      exact .object hquery hmutation hperm hall hlines (Declaration.writesBases_basesText _)
        (Declaration.writesClass_classText _ _)
  | inputObject it =>
    simp only [Declaration.ofDefinition?] at h
    split at h
    · cases h
    · next hroot =>
      obtain ⟨attributes, hattributes, hok⟩ := bind_eq_ok.mp h
      cases Except.ok.inj hok
      obtain ⟨annotated, hperm, hlines⟩ :=
        exists_lines (fun _ _ => writesAttribute_of_ofInput) hattributes
      obtain ⟨hquery, hmutation⟩ := ne_of_isRootName hroot
      refine .inputObject hquery hmutation hperm hlines ?_
      have hopening : "@dataclass(frozen=True)\nclass " ++ it.name ++ ":"
          = "@dataclass(frozen=True)\nclass " ++ it.name ++ "" ++ ":" := by
        rw [String.append_empty]
      exact hopening ▸ Declaration.writesClass_classText _ _
  | interface it =>
    obtain ⟨attributes, hattributes, hok⟩ := bind_eq_ok.mp h
    cases Except.ok.inj hok
    rw [Attribute.ofFields_eq] at hattributes
    obtain ⟨annotated, hperm, hlines⟩ :=
      exists_lines (fun _ _ => writesAttribute_of_ofField) hattributes
    exact .interface hperm hlines (Declaration.writesClass_classText _ _)
  | enumeration it =>
    cases Except.ok.inj h
    exact .enumeration (Declaration.writesClass_classText _ _)
  | union it =>
    obtain ⟨members, hmembers, hok⟩ := bind_eq_ok.mp h
    cases Except.ok.inj hok
    exact .union (mapM_eq_ok.mp hmembers) rfl
  | scalar it => cases h
  | schema it => cases h
  | directive it => cases h

/-- **The binding of a definition** is what the module of resolvers has for
it. -/
theorem isBound_block (h : Binding.ofDefinition? scope definition = .ok (some binding)) :
    IsBound scope definition binding.block := by
  cases definition with
  | object it =>
    obtain ⟨made, hmade, hok⟩ := bind_eq_ok.mp h
    cases Except.ok.inj hok
    obtain ⟨hname, hcall, hstubs⟩ := ObjectBinding.writes hmade
    have hopening : made.opening = snakeCase it.name ++ " = " ++ made.call :=
      hname ▸ made.opening_eq_call
    refine .object hcall (List.forall₂_map_right_iff.mpr (hstubs.imp ?_))
      (congrArg (fun line => "\n".intercalate (line :: made.stubs.map made.attached)) hopening)
    rintro field stub ⟨hfield, hstub⟩
    exact ⟨_, hstub, by rw [ObjectBinding.attached, hname, hfield]; rfl⟩
  | enumeration it =>
    obtain ⟨made, hmade, hok⟩ := bind_eq_ok.mp h
    cases Except.ok.inj hok
    obtain ⟨hname, hcall⟩ := EnumBinding.writes hmade
    exact .enumeration (by rw [← hname, ← hcall]; exact made.text_eq_call)
  | interface it => cases h
  | union it => cases h
  | inputObject it => cases h
  | scalar it => cases h
  | schema it => cases h
  | directive it => cases h

end Definition

namespace Document

variable {document : Document} {given scope : Scope} {generated : Generated}

/-- **Where each field goes.** The module of types has a block for each
definition that is declared, and the module of resolvers for each one that
is bound, both in order of definition. For an object the fields without
arguments have a line each and those with arguments a stub each, in order,
and these are all its fields; a root object has the stubs only. An interface
has the lines only, and so has an input object, for all of its fields. Behind
the blocks for definitions the module of resolvers has one more, for its
registry, unless it has none. -/
theorem generate_covers (h : document.generate given = .ok generated) :
    List.Forall₂ (IsTyped (document.scope given))
      (document.definitions.toList.filter fun definition => definition.declaredName?.isSome)
      generated.typeBlocks ∧
    ∃ bound, List.Forall₂ (IsBound generated.scope)
        (document.definitions.toList.filter fun definition => definition.boundName?.isSome) bound ∧
      (bound = [] → generated.resolverBlocks = []) ∧
      (bound ≠ [] → ∃ registry, generated.resolverBlocks = bound ++ [registry] ∧
        registry.body
          = "resolvers = [" ++ ", ".intercalate (document.boundNames.map snakeCase) ++ "]") := by
  obtain ⟨hdeclarations, hbindings, rfl⟩ := generate_eq_ok.mp h
  have hbound : List.Forall₂ (IsBound (document.finalScope given))
      (document.definitions.toList.filter fun definition => definition.boundName?.isSome)
      ((document.bindingsIn (document.finalScope given)).map Binding.block) := by
    refine List.forall₂_map_right_iff.mpr
      (forall₂_bindingsIn fun definition hmem binding hbinding => ?_)
    apply Definition.isBound_block
    exact (ofDefinition?_of_bindings hbindings hmem).trans (congrArg Except.ok hbinding)
  refine ⟨List.forall₂_map_right_iff.mpr (forall₂_declarationsIn ?_), _, hbound, fun hnone => ?_,
    fun hsome => ?_⟩
  · intro definition hmem declaration hdeclaration
    apply Definition.isTyped_block
    rw [ofDefinition?_of_declarations hdeclarations hmem, hdeclaration]
  · exact Binding.blocks_eq_nil.mpr (List.map_eq_nil_iff.mp hnone)
  · rw [← map_name_bindingsIn document (document.finalScope given)]
    exact Binding.exists_registry fun hnil => hsome (hnil ▸ rfl)

/-- The library has five blocks in the module of types, where its scalar and
its root object have none, and three blocks in the module of resolvers
besides the registry. -/
theorem generate_covers_library :
    ∃ generated, library.generate libraryScope = .ok generated ∧
      generated.typeBlocks.length = 5 ∧ generated.resolverBlocks.length = 4 := by
  obtain ⟨generated, hgenerated⟩ := exists_generate_library
  obtain ⟨htypes, bound, hbound, -, hregistry⟩ := generate_covers hgenerated
  have hlength : bound.length = 3 := hbound.length_eq.symm.trans (by decide)
  obtain ⟨registry, hblocks, -⟩ := hregistry (List.ne_nil_of_length_pos (by omega))
  refine ⟨generated, hgenerated, htypes.length_eq.symm.trans (by decide), ?_⟩
  rw [hblocks, List.length_append, hlength]
  rfl

end Document

end SchemaScaffold
