import SchemaScaffold.Proofs.Checks
import SchemaScaffold.Proofs.Closure

/-!
# Schemas in another order

A schema may define its types in any order, and refer to a type before it
defines it. So the order should decide nothing but the order of what is
generated. Three things could break this. A name could be looked up among
the definitions seen so far; a later definition could win over an earlier
one; and a header could show in which order its imports were collected.

The first two are a matter of scopes. A scope is asked for names only, and
what it answers for a document depends on which names there are
(`Document.scope_of_perm`, `Document.finalScope_of_perm`). The third is
settled by the header being a set (`Module.header_perm`). What is left is
that each definition is declared and bound by itself, and a list made one
by one is reordered with what it is made from.

Whether a run succeeds is then a property of the checks as a set
(`Document.exists_generate_of_perm`). The *error* of a run that fails is
not covered: it is that of the first check to fail, and another order may
have another first.
-/

namespace SchemaScaffold

namespace Document

variable {document document' : Document} {given : Scope}

section Reordered

variable (h : document'.definitions.toList.Perm document.definitions.toList)

include h

/-! ## The scopes -/

/-- The types are the same ones. -/
theorem mem_typeNames_of_perm (name : String) :
    name ∈ document'.typeNames ↔ name ∈ document.typeNames :=
  (h.filterMap Definition.typeName?).mem_iff

/-- The same names are declared. -/
theorem mem_declaredNames_of_perm (name : String) :
    name ∈ document'.declaredNames ↔ name ∈ document.declaredNames :=
  (h.filterMap Definition.declaredName?).mem_iff

/-- **The scope of a document does not depend on the order.** -/
theorem scope_of_perm (given : Scope) : document'.scope given = document.scope given := by
  refine Scope.ext fun name => ?_
  simp only [moduleOf?_scope, mem_typeNames_of_perm h]

/-- **Neither does its final scope.** -/
theorem finalScope_of_perm (given : Scope) :
    document'.finalScope given = document.finalScope given := by
  refine Scope.ext fun name => ?_
  simp only [moduleOf?_finalScope, mem_declaredNames_of_perm h, scope_of_perm h]

/-! ## The checks -/

/-- The checks are the same ones, in another order. -/
theorem checks_perm : document'.checks.Perm document.checks :=
  (h.flatMap_right _).append (h.flatMap_right _)

/-- **A check passes in either order.** -/
theorem passes_of_perm (check : Check) :
    check.Passes document' given ↔ check.Passes document given := by
  cases check <;> simp only [Check.Passes, Knows, mem_typeNames_of_perm h]

/-- **A run succeeds in either order or in none.** -/
theorem exists_generate_of_perm :
    (∃ generated, document'.generate given = .ok generated) ↔
      ∃ generated, document.generate given = .ok generated := by
  simp only [exists_generate_iff, (checks_perm h).mem_iff, passes_of_perm h]

/-! ## What is generated -/

/-- The declarations are reordered like the definitions. -/
theorem declarationsIn_perm (scope : Scope) :
    (document'.declarationsIn scope).Perm (document.declarationsIn scope) :=
  h.filterMap _

/-- The bindings are reordered like the definitions. -/
theorem bindingsIn_perm (scope : Scope) :
    (document'.bindingsIn scope).Perm (document.bindingsIn scope) :=
  h.filterMap _

/-- The header of the module of resolvers is that of the bindings, because
the registry imports nothing. -/
theorem header_blocks_of_perm (module : String) (scope : Scope) :
    Module.header module (Binding.blocks (document'.bindingsIn scope))
      = Module.header module (Binding.blocks (document.bindingsIn scope)) := by
  have hperm := (bindingsIn_perm h scope).map Binding.block
  unfold Module.header
  rw [Binding.imports_blocks, Binding.imports_blocks]
  exact Module.header_perm hperm module

/-- **Both headers are the same ones.** -/
theorem header_result_of_perm (stage : Stage) :
    (document'.result given).header stage = (document.result given).header stage := by
  cases stage with
  | types =>
    have hperm := (declarationsIn_perm h (document.scope given)).map Declaration.block
    show Module.header _ ((document'.declarationsIn (document'.scope given)).map _) = _
    rw [scope_of_perm h]
    exact Module.header_perm hperm _
  | resolvers =>
    show Module.header _ (Binding.blocks (document'.bindingsIn (document'.finalScope given))) = _
    rw [finalScope_of_perm h]
    exact header_blocks_of_perm h _ _

/-- **The order of the definitions decides the order of the blocks and
nothing else.** In either order the modules can be generated, or in none.
The scope at the end is the same; the blocks of the module of types are
the same ones, reordered; the bindings are, too, and so the registry lists
the same names as often. The texts of a module open with the same header. -/
theorem generate_ignores_order (given : Scope) :
    ((∃ generated', document'.generate given = .ok generated') ↔
      ∃ generated, document.generate given = .ok generated) ∧
    ∀ generated generated', document.generate given = .ok generated →
      document'.generate given = .ok generated' →
      generated'.scope = generated.scope ∧
      generated'.typeBlocks.Perm generated.typeBlocks ∧
      (∃ bindings bindings', document.bindings generated.scope = .ok bindings ∧
        document'.bindings generated'.scope = .ok bindings' ∧
        generated.resolverBlocks = Binding.blocks bindings ∧
        generated'.resolverBlocks = Binding.blocks bindings' ∧
        (bindings'.map Binding.block).Perm (bindings.map Binding.block) ∧
        (bindings'.map Binding.name).Perm (bindings.map Binding.name)) ∧
      ∀ stage, (generated'.header stage).lines = (generated.header stage).lines ∧
        ∃ rest rest',
          generated.text stage = "\n".intercalate (generated.header stage).lines ++ rest ∧
          generated'.text stage = "\n".intercalate (generated.header stage).lines ++ rest' := by
  refine ⟨exists_generate_of_perm h, fun generated generated' hgenerated hgenerated' => ?_⟩
  obtain ⟨-, hbindings, rfl⟩ := generate_eq_ok.mp hgenerated
  obtain ⟨-, hbindings', rfl⟩ := generate_eq_ok.mp hgenerated'
  have hperm := bindingsIn_perm h (document.finalScope given)
  refine ⟨finalScope_of_perm h given, ?_,
    ⟨_, _, hbindings, hbindings', rfl, rfl, ?_, ?_⟩, fun stage => ?_⟩
  · show ((document'.declarationsIn (document'.scope given)).map Declaration.block).Perm _
    rw [scope_of_perm h]
    exact (declarationsIn_perm h _).map _
  · rw [finalScope_of_perm h]
    exact hperm.map _
  · rw [finalScope_of_perm h]
    exact hperm.map _
  · have htext (it : Generated) :
        ∃ rest, it.text stage = "\n".intercalate (it.header stage).lines ++ rest := by
      rw [ImportHeader.lines_eq]
      exact Module.exists_text_eq stage.module (it.blocks stage)
    obtain ⟨rest, hrest⟩ := htext (document.result given)
    obtain ⟨rest', hrest'⟩ := htext (document'.result given)
    rw [header_result_of_perm h stage] at hrest' ⊢
    exact ⟨rfl, rest, rest', hrest, hrest'⟩

end Reordered

/-- The library in the opposite order, where every name is used before it is
defined: its modules can be generated too, with the same scope at the end
and the same headers. -/
theorem generate_ignores_order_reversedLibrary :
    reversedLibrary.definitions.toList.Perm library.definitions.toList ∧
    ∃ generated generated', library.generate libraryScope = .ok generated ∧
      reversedLibrary.generate libraryScope = .ok generated' ∧
      generated'.scope = generated.scope ∧
      generated'.typeBlocks.Perm generated.typeBlocks ∧
      ∀ stage, (generated'.header stage).lines = (generated.header stage).lines := by
  have hperm : reversedLibrary.definitions.toList.Perm library.definitions.toList := by
    rw [reversedLibrary, definitions_ofList]
    exact List.reverse_perm _
  obtain ⟨hsucceeds, hsame⟩ := generate_ignores_order hperm libraryScope
  obtain ⟨generated, hgenerated⟩ := exists_generate_library
  obtain ⟨generated', hgenerated'⟩ := hsucceeds.mpr ⟨generated, hgenerated⟩
  obtain ⟨hscope, hblocks, -, hheaders⟩ := hsame generated generated' hgenerated hgenerated'
  exact ⟨hperm, generated, generated', hgenerated, hgenerated', hscope, hblocks,
    fun stage => (hheaders stage).1⟩

end Document

end SchemaScaffold
