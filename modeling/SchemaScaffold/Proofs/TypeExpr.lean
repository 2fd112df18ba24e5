import Mathlib.Data.List.Basic
import SchemaScaffold.TypeExpr.Basic

/-!
# The names in a type expression

An expression is a chain of wrappers around one name, its **core**. The
wrappers come from `typing`, so of all the imports of an expression
only that of the core says anything about the schema (`mem_imports`).

The text of an expression and its imports go over the same **nodes**. A
node with a module has its import among those of the expression
(`mem_imports_of_node`), and the text of every node stands somewhere in
the text of the whole (`text_of_node`) – in quotation marks just if the
module it is read in provides it (`text_of_own`).
-/

namespace SchemaScaffold

namespace TypeExpr

variable {type node : TypeExpr} {i : Import} {module : String}

/-- **The name inside all wrappers.** -/
def core : TypeExpr → TypeExpr
  | bare name module? => bare name module?
  | optional inner => inner.core
  | sequence inner => inner.core

/-- **The expressions an expression is made of**: itself, and then those
its argument is made of. -/
def nodes : TypeExpr → List TypeExpr
  | bare name module? => [bare name module?]
  | optional inner => optional inner :: inner.nodes
  | sequence inner => sequence inner :: inner.nodes

/-! ## Imports -/

/-- The imports are those of the nodes, in order. -/
theorem imports_eq_nodes (type : TypeExpr) : type.imports = type.nodes.filterMap headImport? := by
  induction type with
  | bare name module? => cases module? <;> rfl
  | optional inner ih => rw [imports, nodes, ih]; rfl
  | sequence inner ih => rw [imports, nodes, ih]; rfl

/-- **A node that a module provides is imported from it.** -/
theorem mem_imports_of_node (hnode : node ∈ type.nodes) (hmodule : node.module? = some module) :
    ⟨node.head, module⟩ ∈ type.imports := by
  rw [imports_eq_nodes, List.mem_filterMap]
  exact ⟨node, hnode, by rw [headImport?, hmodule]; rfl⟩

/-- The imports of the wrappers. -/
def wrapperImports : List Import := [⟨"Optional", typingModule⟩, ⟨"Sequence", typingModule⟩]

/-- **An import is that of a wrapper or that of the core.** -/
theorem mem_imports_wrapper_or_core (h : i ∈ type.imports) :
    i ∈ wrapperImports ∨ i ∈ type.core.imports := by
  induction type with
  | bare name module? => exact .inr h
  | optional inner ih =>
    rcases List.mem_cons.mp h with rfl | h
    · exact .inl List.mem_cons_self
    · exact ih h
  | sequence inner ih =>
    rcases List.mem_cons.mp h with rfl | h
    · exact .inl (List.mem_cons_of_mem _ List.mem_cons_self)
    · exact ih h

/-- So it is from the module of the wrappers, if it is not that of the
core. -/
theorem mem_imports (h : i ∈ type.imports) : i.module = typingModule ∨ i ∈ type.core.imports := by
  have hwrappers : ∀ i ∈ wrapperImports, i.module = typingModule := by decide
  exact (mem_imports_wrapper_or_core h).imp_left (hwrappers i)

/-- What the core imports, the expression imports. -/
theorem mem_imports_of_core (h : i ∈ type.core.imports) : i ∈ type.imports := by
  induction type with
  | bare name module? => exact h
  | optional inner ih => exact List.mem_cons_of_mem _ (ih h)
  | sequence inner ih => exact List.mem_cons_of_mem _ (ih h)

/-- Taking an option off leaves the core. -/
@[simp] theorem core_required (type : TypeExpr) : type.required.core = type.core := by
  cases type <;> rfl

/-! ## Texts -/

/-- A node stands somewhere in the text. -/
theorem text_of_node (hnode : node ∈ type.nodes) (module : String) :
    ∃ before after, type.text module = before ++ node.text module ++ after := by
  induction type with
  | bare name module? =>
    rw [List.mem_singleton.mp hnode]
    exact ⟨"", "", by rw [String.empty_append, String.append_empty]⟩
  | optional inner ih =>
    rcases List.mem_cons.mp hnode with rfl | hnode
    · exact ⟨"", "", by rw [String.empty_append, String.append_empty]⟩
    · obtain ⟨before, after, h⟩ := ih hnode
      exact ⟨"Optional[" ++ before, after ++ "]", by simp only [text, h, String.append_assoc]⟩
  | sequence inner ih =>
    rcases List.mem_cons.mp hnode with rfl | hnode
    · exact ⟨"", "", by rw [String.empty_append, String.append_empty]⟩
    · obtain ⟨before, after, h⟩ := ih hnode
      exact ⟨"Sequence[" ++ before, after ++ "]", by simp only [text, h, String.append_assoc]⟩

/-- **What a module itself provides is written there in quotation
marks.** -/
theorem text_of_own (hmodule : node.module? = some module) (htyping : module ≠ typingModule) :
    node.text module = quote node.head := by
  cases node with
  | bare name module? => exact if_pos hmodule
  | optional inner => exact absurd (Option.some.inj hmodule).symm htyping
  | sequence inner => exact absurd (Option.some.inj hmodule).symm htyping

end TypeExpr

end SchemaScaffold
