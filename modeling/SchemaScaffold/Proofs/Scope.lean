import SchemaScaffold.Generated
import SchemaScaffold.Proofs.Table

/-!
# The scopes of a run

Two scopes matter in a run, and each can be said name by name. The first
stage reads names in the scope of the document: its own types, under what
was given (`Document.moduleOf?_scope`). The second one reads them in the
**final** scope, in which a type that the first stage declares belongs to
the module of types, whatever was given for it
(`Document.moduleOf?_finalScope`).

That the scope after the first stage *is* the final one is not settled
here: it depends on what the blocks of the stage use. What is settled is
how a scope grows by them (`Scope.moduleOf?_afterStage`) – all names that
are added get one module, so only which names there are can matter.
-/

namespace SchemaScaffold

variable {name module : String}

/-! ## Growing -/

namespace Scope

/-- **A scope added to another one** wins over it. -/
theorem moduleOf?_widen_entries (scope other : Scope) (name : String) :
    (scope.widen other.entries).moduleOf? name
      = (other.moduleOf? name).or (scope.moduleOf? name) := by
  -- entries are read from the end, and for the rows of a table that is all the same
  rw [moduleOf?_widen, entries, Table.find?_reverse other.modules.ascending]
  rfl

/-- **Names added with one module** have it, and the others keep
theirs. -/
theorem moduleOf?_widen_of_forall_snd {entries : List (String × String)}
    (h : ∀ entry ∈ entries, entry.snd = module) (scope : Scope) (name : String) :
    (scope.widen entries).moduleOf? name
      = if name ∈ entries.map Prod.fst then some module else scope.moduleOf? name := by
  have hreverse : ∀ entry ∈ entries.reverse, entry.snd = module :=
    fun entry hentry => h entry (List.mem_reverse.mp hentry)
  rw [moduleOf?_widen, Table.find?_of_forall_snd hreverse]
  simp only [List.map_reverse, List.mem_reverse]
  split <;> rfl

/-- A scope contains the names it has a module for. -/
theorem contains_eq_true {scope : Scope} :
    scope.contains name = true ↔ ∃ module, scope.moduleOf? name = some module :=
  Option.isSome_iff_exists

/-- A scope does not lead to a module that none of its entries has. -/
theorem moduleOf?_ne_of_entries {scope : Scope} (h : ∀ entry ∈ scope.entries, entry.snd ≠ module)
    (name : String) : scope.moduleOf? name ≠ some module :=
  fun hname => h _ (Table.mem_rows_of_get? hname) rfl

end Scope

/-! ## The scope of the document -/

namespace Document

variable {document : Document} {given : Scope}

/-- **What the scope of a document says of a name**: what was given, or
else that a type of the document belongs to the module of types. -/
theorem moduleOf?_scope (document : Document) (given : Scope) (name : String) :
    (document.scope given).moduleOf? name
      = (given.moduleOf? name).or
          (if name ∈ document.typeNames then some Stage.types.module else none) := by
  have hmodule : ∀ entry ∈ document.typeNames.map fun name => (name, Stage.types.module),
      entry.snd = Stage.types.module := by
    intro entry hentry
    obtain ⟨name, -, rfl⟩ := List.mem_map.mp hentry
    rfl
  rw [scope, Scope.moduleOf?_widen_entries, Scope.ofList,
    Scope.moduleOf?_widen_of_forall_snd hmodule, List.map_map, Scope.moduleOf?_empty]
  simp only [Function.comp_def, List.map_id']

/-- **Putting the types of a document under a scope twice** is putting
them there once. -/
theorem scope_scope (document : Document) (given : Scope) :
    document.scope (document.scope given) = document.scope given := by
  refine Scope.ext fun name => ?_
  rw [moduleOf?_scope, moduleOf?_scope, Option.or_assoc, Option.or_self]

/-- A type of the document is in its scope. -/
theorem exists_moduleOf?_scope (h : name ∈ document.typeNames) (given : Scope) :
    ∃ module, (document.scope given).moduleOf? name = some module := by
  rw [moduleOf?_scope, if_pos h]
  cases given.moduleOf? name with
  | none => exact ⟨_, rfl⟩
  | some module => exact ⟨module, rfl⟩

end Document

/-! ## The final scope -/

/-- **The name that a definition declares in the module of types**, if it
has a declaration there. -/
def Definition.declaredName? : Definition → Option String
  | .object it => if isRootName it.name then none else some it.name
  | .inputObject it => if isRootName it.name then none else some it.name
  | .interface it => some it.name
  | .enumeration it => some it.name
  | .union it => some it.name
  | .scalar _ => none
  | .schema _ => none
  | .directive _ => none

/-- What a definition declares in the module of types is a type. -/
theorem Definition.typeName?_of_declaredName? {definition : Definition}
    (h : definition.declaredName? = some name) : definition.typeName? = some name := by
  have hnonroot (own : String) : (if isRootName own then none else some own) = some name →
      some own = some name := by
    intro hif
    split at hif
    · cases hif
    · exact hif
  cases definition with
  | object it => exact hnonroot it.name h
  | inputObject it => exact hnonroot it.name h
  | interface it => exact h
  | enumeration it => exact h
  | union it => exact h
  | scalar it => cases h
  | schema it => cases h
  | directive it => cases h

namespace Document

variable {document : Document} {given : Scope}

/-- **The names declared in the module of types**, in order of
definition. -/
def declaredNames (document : Document) : List String :=
  document.definitions.toList.filterMap Definition.declaredName?

/-- What the module of types declares is a type of the document. -/
theorem mem_typeNames_of_mem_declaredNames (h : name ∈ document.declaredNames) :
    name ∈ document.typeNames := by
  obtain ⟨definition, hdefinition, hname⟩ := List.mem_filterMap.mp h
  exact List.mem_filterMap.mpr
    ⟨definition, hdefinition, Definition.typeName?_of_declaredName? hname⟩

/-- **The final scope of a document**: the names that the module of types
declares belong to it, whatever was given for them. -/
def finalScope (document : Document) (given : Scope) : Scope :=
  (document.scope given).widen (document.declaredNames.map fun name => (name, Stage.types.module))

/-- The scope that a stage reads names in. -/
def stageScope (document : Document) (given : Scope) : Stage → Scope
  | .types => document.scope given
  | .resolvers => document.finalScope given

/-- **What the final scope says of a name.** -/
theorem moduleOf?_finalScope (document : Document) (given : Scope) (name : String) :
    (document.finalScope given).moduleOf? name
      = if name ∈ document.declaredNames then some Stage.types.module
        else (document.scope given).moduleOf? name := by
  have hmodule : ∀ entry ∈ document.declaredNames.map fun name => (name, Stage.types.module),
      entry.snd = Stage.types.module := by
    intro entry hentry
    obtain ⟨name, -, rfl⟩ := List.mem_map.mp hentry
    rfl
  rw [finalScope, Scope.moduleOf?_widen_of_forall_snd hmodule, List.map_map]
  simp only [Function.comp_def, List.map_id']

/-- A type of the document is in its final scope. -/
theorem exists_moduleOf?_finalScope (h : name ∈ document.typeNames) (given : Scope) :
    ∃ module, (document.finalScope given).moduleOf? name = some module := by
  rw [moduleOf?_finalScope]
  split
  · exact ⟨_, rfl⟩
  · exact exists_moduleOf?_scope h given

/-- **The final scope contains no other names** than the scope of the
document: only what some of them belong to has changed. -/
theorem contains_finalScope (document : Document) (given : Scope) (name : String) :
    (document.finalScope given).contains name = (document.scope given).contains name := by
  rw [Bool.eq_iff_iff, Scope.contains_eq_true, Scope.contains_eq_true, moduleOf?_finalScope]
  split
  · next h =>
    have htype := mem_typeNames_of_mem_declaredNames h
    exact ⟨fun _ => exists_moduleOf?_scope htype given, fun _ => ⟨_, rfl⟩⟩
  · exact Iff.rfl

end Document

/-! ## After a stage -/

/-- **The scope after a stage.** A name that is imported by the blocks of
the stage from its own module belongs to that module, and the others
belong where they did. -/
theorem Scope.moduleOf?_afterStage (scope : Scope) (stage : Stage) (blocks : List Block)
    (name : String) :
    (scope.afterStage stage blocks).moduleOf? name
      = if ⟨name, stage.module⟩ ∈ Module.imports blocks then some stage.module
        else scope.moduleOf? name := by
  have hmodule : ∀ entry ∈ Module.ownNames stage.module blocks, entry.snd = stage.module := by
    intro entry hentry
    obtain ⟨i, hi, rfl⟩ := List.mem_map.mp hentry
    exact eq_of_beq (List.mem_filter.mp hi).2
  have hname : name ∈ (Module.ownNames stage.module blocks).map Prod.fst
      ↔ ⟨name, stage.module⟩ ∈ Module.imports blocks := by
    rw [Module.ownNames, List.map_map, List.mem_map]
    constructor
    · rintro ⟨i, hi, rfl⟩
      obtain ⟨himports, hown⟩ := List.mem_filter.mp hi
      rw [← eq_of_beq hown]
      exact himports
    · intro himports
      exact ⟨_, List.mem_filter.mpr ⟨himports, beq_self_eq_true _⟩, rfl⟩
  rw [afterStage, moduleOf?_widen_of_forall_snd hmodule]
  simp only [hname]

end SchemaScaffold
