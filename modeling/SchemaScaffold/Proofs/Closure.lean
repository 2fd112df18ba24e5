import SchemaScaffold.Proofs.Header
import SchemaScaffold.Proofs.Pieces
import SchemaScaffold.Proofs.Run

/-!
# Generated modules are closed

A generated module can be read on its own: every type that it mentions is
one that every module has, or one that it provides itself and then writes
in quotation marks, or one that its header imports
(`Mention.IsClosed`). The three places that have to agree for this are
the text of a block, the list of types that goes with it, and the header
made from the lists. The pieces of a text tell its mentions, and the rest
is to find each of them in the list.

Quotation marks are only there where a whole expression is written. So
what is mentioned by its head must never be one of the module's own names.
In the module of types that is so for the makers of declarations. In the
module of resolvers *no* name is the module's own, because the scope that
its types are read in never leads there (`Document.moduleOf?_finalScope_ne`)
unless a name was given to the module beforehand.

The other way round, what a header lists is needed by some block
(`Generated.lists_header`).
-/

namespace SchemaScaffold

variable {stage : Stage} {type : TypeExpr} {i : Import} {blocks : List Block}

/-- **The header of the module** that a stage made. -/
def Generated.header (generated : Generated) (stage : Stage) : ImportHeader :=
  Module.header stage.module (generated.blocks stage)

/-- **Whether a mention of a type can be read** in a module with the given
header: each of the names in it is one that every module has, or one of the
module's own, written in quotation marks, or an imported one. -/
def Mention.IsClosed (module : String) (header : ImportHeader) (mention : Mention) : Prop :=
  ∀ node ∈ mention.type.nodes,
    node.module? = none ∨
    (node.module? = some module ∧
      ∃ before after, mention.text module = before ++ TypeExpr.quote node.head ++ after) ∨
    ∃ source, node.module? = some source ∧ header.Lists ⟨node.head, source⟩

/-! ## Mentions -/

namespace Module

theorem lists_header {module : String} :
    (header module blocks).Lists i ↔ i ∈ imports blocks ∧ i.module ≠ module :=
  ImportHeader.lists_ofImports module (imports blocks) i

theorem mem_imports_of_usedTypes {block : Block} (hblock : block ∈ blocks)
    (htype : type ∈ block.usedTypes) (hi : i ∈ type.imports) : i ∈ imports blocks :=
  List.mem_flatMap.mpr ⟨block, hblock, List.mem_flatMap.mpr ⟨type, htype, hi⟩⟩

end Module

namespace Mention

/-- A whole expression can be read if its imports are there. -/
theorem isClosed_whole (himports : ∀ i ∈ type.imports, i ∈ Module.imports blocks) :
    (whole type).IsClosed stage.module (Module.header stage.module blocks) := by
  intro node hnode
  cases hmodule : node.module? with
  | none => exact .inl rfl
  | some source =>
    refine .inr ?_
    by_cases hown : source = stage.module
    · -- only a name at the core can be the module's own, and such a name is quoted
      obtain ⟨before, after, htext⟩ := TypeExpr.text_of_node hnode stage.module
      have htyping : stage.module ≠ TypeExpr.typingModule := by
        cases stage <;> decide
      rw [hown] at hmodule ⊢
      rw [TypeExpr.text_of_own hmodule htyping] at htext
      exact .inl ⟨rfl, before, after, htext⟩
    · have hi := himports _ (TypeExpr.mem_imports_of_node hnode hmodule)
      exact .inr ⟨source, rfl, Module.lists_header.mpr ⟨hi, hown⟩⟩

/-- Either mention of a type can be read if its imports are there and none
of them is of the module's own. -/
theorem isClosed_of_foreign {mention : Mention}
    (himports : ∀ i ∈ mention.type.imports, i ∈ Module.imports blocks ∧ i.module ≠ stage.module) :
    mention.IsClosed stage.module (Module.header stage.module blocks) := by
  intro node hnode
  cases hmodule : node.module? with
  | none => exact .inl rfl
  | some source =>
    have hi := himports _ (TypeExpr.mem_imports_of_node hnode hmodule)
    exact .inr (.inr ⟨source, rfl, Module.lists_header.mpr hi⟩)

end Mention

/-- A name that a scope accounts for is none of a module that the scope
never leads to. -/
theorem Scope.Accounts.module_ne {scope : Scope} (h : scope.Accounts i)
    (hscope : ∀ name, scope.moduleOf? name ≠ some stage.module) : i.module ≠ stage.module := by
  intro hmodule
  obtain hforeign | hgiven := h
  · exact stage.module_notMem_foreignModules (hmodule ▸ hforeign)
  · exact hscope i.name (hmodule ▸ hgiven)

/-! ## The module of types -/

namespace Declaration

/-- What a declaration is made with comes from elsewhere. -/
theorem module_ne_of_mem_support {declaration : Declaration} (h : i ∈ declaration.support.imports) :
    i.module ≠ Stage.types.module := by
  intro hmodule
  have hforeign := Stage.module_mem_foreignModules (mem_support h)
  exact Stage.types.module_notMem_foreignModules (hmodule ▸ hforeign)

/-- **What a declaration is made with is imported** by the module of the
declarations. -/
theorem lists_support {declarations : List Declaration} {declaration : Declaration}
    (hmem : declaration ∈ declarations) (hi : i ∈ declaration.support.imports) :
    (Module.header Stage.types.module (declarations.map block)).Lists i :=
  Module.lists_header.mpr ⟨Module.mem_imports_of_usedTypes (List.mem_map.mpr ⟨_, hmem, rfl⟩)
    (List.mem_append_right _ List.mem_cons_self) hi, module_ne_of_mem_support hi⟩

/-- **What a declaration mentions can be read** in the module of the
declarations. -/
theorem isClosed_mentions {declarations : List Declaration} {declaration : Declaration}
    {mention : Mention} (hmem : declaration ∈ declarations) (h : mention ∈ declaration.mentions) :
    mention.IsClosed Stage.types.module
      (Module.header Stage.types.module (declarations.map block)) := by
  obtain rfl | hpart := List.mem_cons.mp h
  · exact Mention.isClosed_of_foreign fun i hi => Module.lists_header.mp (lists_support hmem hi)
  · obtain ⟨type, htype, rfl⟩ := List.mem_map.mp hpart
    refine Mention.isClosed_whole fun i hi => ?_
    exact Module.mem_imports_of_usedTypes (List.mem_map.mpr ⟨_, hmem, rfl⟩)
      (List.mem_append_left _ htype) hi

end Declaration

/-! ## The module of resolvers -/

section Resolvers

variable {scope : Scope} {mention : Mention}

/-- A default is of the type of its parameter. -/
theorem InputValue.type_of_mem_mentions {input : InputValue}
    (h : mention ∈ (input.toParameter scope).mentions) :
    mention.type = (input.toParameter scope).type := by
  unfold toParameter Parameter.mentions at *
  cases hdefault : input.default? with
  | none =>
    rw [hdefault] at h
    rw [List.mem_singleton.mp h]
    rfl
  | some value =>
    rw [hdefault] at h
    obtain rfl | h := List.mem_cons.mp h
    · rfl
    · rw [List.mem_singleton.mp h]
      rfl

/-- What a stub mentions is the type of the values or a type it uses. -/
theorem Field.type_mem_of_mem_mentions {field : Field} {parent? : Option TypeExpr}
    (h : mention ∈ (field.toStub scope).mentions parent?) :
    mention.type ∈ parent?.toList ∨ mention.type ∈ (field.toStub scope).usedTypes := by
  obtain hparent | h := List.mem_append.mp h
  · obtain ⟨parent, hmem, rfl⟩ := List.mem_map.mp hparent
    exact .inl hmem
  · refine .inr ?_
    obtain rfl | h := List.mem_cons.mp h
    · exact List.mem_cons_self
    · refine List.mem_cons_of_mem _ (List.mem_append.mpr ?_)
      obtain hparameter | hreturn := List.mem_append.mp h
      · obtain ⟨parameter, hmem, hmention⟩ := List.mem_flatMap.mp hparameter
        obtain ⟨input, hinput, rfl⟩ := List.mem_map.mp hmem
        rw [InputValue.type_of_mem_mentions hmention]
        exact .inl (List.mem_map.mpr ⟨_, hmem, rfl⟩)
      · rw [List.mem_singleton.mp hreturn]
        exact .inr (List.mem_singleton.mpr rfl)

/-- **What a binding mentions it uses.** -/
theorem Binding.type_mem_usedTypes {document : Document} {binding : Binding}
    (hmem : binding ∈ document.bindingsIn scope) (h : mention ∈ binding.mentions) :
    mention.type ∈ binding.usedTypes := by
  obtain ⟨it, -, rfl⟩ | ⟨it, -, rfl⟩ := Document.mem_bindingsIn.mp hmem
  · obtain rfl | h := List.mem_cons.mp h
    · exact List.mem_cons_self
    · obtain ⟨stub, hstub, hmention⟩ := List.mem_flatMap.mp h
      obtain ⟨field, hfield, rfl⟩ := List.mem_map.mp hstub
      refine List.mem_cons_of_mem _ (List.mem_append.mpr ?_)
      exact (Field.type_mem_of_mem_mentions hmention).imp id
        fun hused => List.mem_flatMap.mpr ⟨_, hstub, hused⟩
  · obtain rfl | h := List.mem_cons.mp h
    · exact List.mem_cons_self
    · rw [List.mem_singleton.mp h]
      exact List.mem_cons_of_mem _ (List.mem_singleton.mpr rfl)

namespace Document

variable {document : Document} {given : Scope}

/-- **The final scope does not lead to the module of resolvers**, if what
was given does not. -/
theorem moduleOf?_finalScope_ne
    (hgiven : ∀ name, given.moduleOf? name ≠ some Stage.resolvers.module)
    (document : Document) (name : String) :
    (document.finalScope given).moduleOf? name ≠ some Stage.resolvers.module := by
  have htypes : some Stage.types.module ≠ some Stage.resolvers.module := by decide
  rw [moduleOf?_finalScope, moduleOf?_scope]
  split
  · exact htypes
  · cases hname : given.moduleOf? name with
    | some module =>
      rw [Option.some_or, ← hname]
      exact hgiven name
    | none =>
      rw [Option.none_or]
      split
      · exact htypes
      · exact nofun

/-- **What a binding mentions can be read** in the module of the
bindings. -/
theorem isClosed_mentions (hgiven : ∀ name, given.moduleOf? name ≠ some Stage.resolvers.module)
    {binding : Binding} (hmem : binding ∈ document.bindingsIn (document.finalScope given))
    (h : mention ∈ binding.mentions) :
    mention.IsClosed Stage.resolvers.module (Module.header Stage.resolvers.module
      (Binding.blocks (document.bindingsIn (document.finalScope given)))) := by
  refine Mention.isClosed_of_foreign fun i hi => ?_
  have himports : i ∈ Module.imports
      (Binding.blocks (document.bindingsIn (document.finalScope given))) := by
    rw [Binding.imports_blocks]
    exact Module.mem_imports_of_usedTypes (List.mem_map.mpr ⟨binding, hmem, rfl⟩)
      (Binding.type_mem_usedTypes hmem h) hi
  have haccounts := (Binding.explains_blocks himports).accounts
  exact ⟨himports, haccounts.module_ne (moduleOf?_finalScope_ne hgiven document)⟩

end Document

end Resolvers

/-! ## Both modules -/

/-- **What a header lists is needed** by some block of the module, and is
not the module's own. -/
theorem Generated.lists_header {generated : Generated} (h : (generated.header stage).Lists i) :
    i.module ≠ stage.module ∧
    ∃ block ∈ generated.blocks stage, ∃ type ∈ block.usedTypes, i ∈ type.imports := by
  obtain ⟨himports, hmodule⟩ := Module.lists_header.mp h
  obtain ⟨block, hblock, hi⟩ := List.mem_flatMap.mp himports
  exact ⟨hmodule, block, hblock, List.mem_flatMap.mp hi⟩

namespace Document

variable {document : Document} {given : Scope} {generated : Generated}

/-- **The generated modules are closed.** Each declaration is written as
pieces that mention what it is made with and its parts, each binding as
pieces that mention what makes it and the signatures of its stubs, and
whatever is mentioned can be read in the module it is written in. The
module opens with its header, which has one line for each module that it
imports from, and a name in that line is needed by a block and is not the
module's own.

Only for the module of resolvers something is asked of what was given:
that it provides no name from that module itself. -/
theorem generate_closes_imports
    (hgiven : ∀ name, given.moduleOf? name ≠ some Stage.resolvers.module)
    (h : document.generate given = .ok generated) :
    (∃ declarations, document.declarations given = .ok declarations ∧
      generated.typeBlocks = declarations.map Declaration.block ∧
      ∀ declaration ∈ declarations,
        declaration.text = Piece.textOf Stage.types.module declaration.pieces ∧
        (Piece.mentions declaration.pieces).Perm declaration.mentions ∧
        ∀ mention ∈ declaration.mentions,
          mention.IsClosed Stage.types.module (generated.header .types)) ∧
    (∃ bindings, document.bindings generated.scope = .ok bindings ∧
      generated.resolverBlocks = Binding.blocks bindings ∧
      ∀ binding ∈ bindings,
        binding.text = Piece.textOf Stage.resolvers.module binding.pieces ∧
        Piece.mentions binding.pieces = binding.mentions ∧
        ∀ mention ∈ binding.mentions,
          mention.IsClosed Stage.resolvers.module (generated.header .resolvers)) ∧
    ∀ stage,
      (∃ rest, generated.text stage
        = "\n".intercalate ((generated.header stage).rows.map ImportHeader.line) ++ rest) ∧
      ((generated.header stage).rows.map Prod.fst).Nodup ∧
      ∀ i, (generated.header stage).Lists i → i.module ≠ stage.module ∧
        ∃ block ∈ generated.blocks stage, ∃ type ∈ block.usedTypes, i ∈ type.imports := by
  obtain ⟨hdeclarations, hbindings, rfl⟩ := generate_eq_ok.mp h
  refine ⟨⟨_, hdeclarations, rfl, fun declaration hmem => ?_⟩,
    ⟨_, hbindings, rfl, fun binding hmem => ?_⟩, fun stage => ?_⟩
  · exact ⟨declaration.text_eq, declaration.perm_mentions_pieces,
      fun mention => Declaration.isClosed_mentions hmem⟩
  · exact ⟨binding.text_eq, binding.mentions_pieces, fun mention => isClosed_mentions hgiven hmem⟩
  · exact ⟨Module.exists_text_eq _ _,
      ImportHeader.nodup_rows (ImportHeader.divided_ofImports _ _), fun i => Generated.lists_header⟩

/-- The modules of the library are closed: nothing was given to the module
of resolvers. -/
theorem generate_closes_imports_library :
    ∃ generated bindings, library.generate libraryScope = .ok generated ∧
      library.bindings generated.scope = .ok bindings ∧
      ∀ binding ∈ bindings, ∀ mention ∈ binding.mentions,
        mention.IsClosed ".resolvers" (generated.header .resolvers) := by
  have hgiven : ∀ name, libraryScope.moduleOf? name ≠ some Stage.resolvers.module :=
    Scope.moduleOf?_ne_of_entries (by decide)
  obtain ⟨generated, hgenerated⟩ := exists_generate_library
  obtain ⟨-, ⟨bindings, hbindings, -, hclosed⟩, -⟩ := generate_closes_imports hgiven hgenerated
  exact ⟨generated, bindings, hgenerated, hbindings, fun binding hmem => (hclosed binding hmem).2.2⟩

end Document

end SchemaScaffold
