import SchemaScaffold.Proofs.Checks

/-!
# Null in references and in expressions

A reference admits null unless it says otherwise, and an expression admits
it only where it says so. Turning the one into the other therefore turns
every level around: a level that says nothing becomes an option, and an
exclusion becomes nothing. This is more than a change of words, since an
exclusion is a level of a reference while a missing option is no level of an
expression – `[Int!]!` has four levels, its expression `Sequence[int]` two.

What is settled here is that nothing gets lost on the way. The levels of an
expression can be told from those of the reference (`TypeRef.Renders`), and
the reference from the expression and the name of the leaf
(`TypeExpr.reference`). The name has to be told: `ID` and a type `UUID` that
is given for the module `uuid` have the same expression.

All this holds of sound references, those without a doubled exclusion. They
are of four kinds, for an exclusion is always one of a name or of a list, and
the proofs go by these (`TypeRef.sound_induction`).
-/

namespace SchemaScaffold

/-! ## References and their levels -/

namespace TypeRef

/-- **The references a reference is made of**: itself, and then those its
inner one is made of. -/
def parts : TypeRef → List TypeRef
  | named name => [named name]
  | nonNull inner => nonNull inner :: inner.parts
  | list inner => list inner :: inner.parts

/-- The number of levels that are lists. -/
def lists : TypeRef → Nat
  | named _ => 0
  | nonNull inner => inner.lists
  | list inner => inner.lists + 1

/-- The reference without an exclusion at its outermost level. -/
def admitting : TypeRef → TypeRef
  | named name => named name
  | nonNull inner => inner
  | list inner => list inner

/-- A reference is sound just if none of its parts excludes null from what
excludes null already. -/
theorem isSound_iff (t : TypeRef) :
    t.isSound = true ↔ ∀ inner, nonNull (nonNull inner) ∉ t.parts := by
  induction t with
  | named name => simp [isSound, parts]
  | list inner ih => simp [isSound, parts, ih]
  | nonNull inner ih =>
    rw [isSound, Bool.and_eq_true, ih]
    constructor
    · rintro ⟨houter, hinner⟩ s hs
      obtain h | h := List.mem_cons.mp hs
      · cases h
        cases houter
      · exact hinner s h
    · refine fun h => ⟨?_, fun s hs => h s (List.mem_cons_of_mem _ hs)⟩
      cases inner with
      | named name => rfl
      | list inner => rfl
      | nonNull inner => exact absurd List.mem_cons_self (h inner)

end TypeRef

/-! ## Expressions and their levels -/

namespace TypeExpr

/-- The number of levels that are sequences. -/
def sequences : TypeExpr → Nat
  | bare _ _ => 0
  | optional inner => inner.sequences
  | sequence inner => inner.sequences + 1

/-- **The reference that an expression stands for**, if the name at its core
stands for the leaf. Every level excludes null, and an option takes the
exclusion off again. -/
def reference (leaf : String) : TypeExpr → TypeRef
  | bare _ _ => .nonNull (.named leaf)
  | optional inner => (inner.reference leaf).admitting
  | sequence inner => .nonNull (.list (inner.reference leaf))

end TypeExpr

namespace TypeRef

variable {t : TypeRef} {head : String} {module? : Option String}

@[simp] theorem expression_nonNull_named (leaf : TypeExpr) (name : String) :
    (nonNull (named name)).expression leaf = leaf := rfl

@[simp] theorem expression_nonNull_list (leaf : TypeExpr) (inner : TypeRef) :
    (nonNull (list inner)).expression leaf = .sequence (inner.expression leaf) := rfl

/-- **An expression admits null at its outermost level** just if the reference
does. -/
theorem isOptional_expression (h : t.isSound = true) :
    (t.expression (.bare head module?)).isOptional = !t.isNonNull := by
  induction t, h using sound_induction with
  | named name => rfl
  | nonNullNamed name => rfl
  | list inner hinner ih => rfl
  | nonNullList inner hinner ih => rfl

/-- **There is a sequence for every list.** -/
theorem sequences_expression (h : t.isSound = true) :
    (t.expression (.bare head module?)).sequences = t.lists := by
  induction t, h using sound_induction with
  | named name => rfl
  | nonNullNamed name => rfl
  | list inner hinner ih => exact congrArg (· + 1) ih
  | nonNullList inner hinner ih => exact congrArg (· + 1) ih

/-- **A reference can be read back** from its expression and its leaf. -/
theorem reference_expression (h : t.isSound = true) :
    (t.expression (.bare head module?)).reference t.leaf = t := by
  induction t, h using sound_induction with
  | named name => rfl
  | nonNullNamed name => rfl
  | list inner hinner ih => exact congrArg TypeRef.list ih
  | nonNullList inner hinner ih => exact congrArg (fun t => nonNull (.list t)) ih

/-- **No option stands directly inside another.** -/
theorem notMem_nodes_expression (h : t.isSound = true) (inner : TypeExpr) :
    .optional (.optional inner) ∉ (t.expression (.bare head module?)).nodes := by
  induction t, h using sound_induction with
  | named name => simp [expression, TypeExpr.nodes]
  | nonNullNamed name => simp [TypeExpr.nodes]
  | list inner hinner ih => simpa [expression, TypeExpr.nodes] using ih
  | nonNullList inner hinner ih => simpa [TypeExpr.nodes] using ih

/-- **The sequences of an expression** are those of what the lists of the
reference contain. -/
theorem sequence_mem_nodes_expression (h : t.isSound = true) {type : TypeExpr} :
    .sequence type ∈ (t.expression (.bare head module?)).nodes ↔
      ∃ s, list s ∈ t.parts ∧ s.expression (.bare head module?) = type := by
  induction t, h using sound_induction with
  | named name => simp [expression, TypeExpr.nodes, parts]
  | nonNullNamed name => simp [TypeExpr.nodes, parts]
  | list inner hinner ih =>
    simp [expression, TypeExpr.nodes, parts, ih, or_and_right, exists_or, eq_comm]
  | nonNullList inner hinner ih =>
    simp [TypeExpr.nodes, parts, ih, or_and_right, exists_or, eq_comm]

/-- The parts of a sound reference are sound. -/
theorem isSound_of_mem_parts {s : TypeRef} (h : t.isSound = true) (hs : s ∈ t.parts) :
    s.isSound = true := by
  induction t with
  | named name => exact List.mem_singleton.mp hs ▸ h
  | list inner ih =>
    obtain rfl | hs := List.mem_cons.mp hs
    · exact h
    · exact ih h hs
  | nonNull inner ih =>
    obtain rfl | hs := List.mem_cons.mp hs
    · exact h
    · exact ih (Bool.and_eq_true_iff.mp h).2 hs

/-- **A reference has a sequence for its expression** just if it is a list that
excludes null. -/
theorem expression_eq_sequence (h : t.isSound = true) {type : TypeExpr} :
    t.expression (.bare head module?) = .sequence type ↔
      ∃ s, t = nonNull (list s) ∧ s.expression (.bare head module?) = type := by
  induction t, h using sound_induction with
  | named name => simp [expression]
  | nonNullNamed name => simp
  | list inner hinner ih => simp [expression]
  | nonNullList inner hinner ih => simp

end TypeRef

/-! ## What resolving tells -/

/-- **Whether a scope knows a name**: it provides it, or every schema has a
scalar of that name. -/
def Scope.Knows (scope : Scope) (name : String) : Prop :=
  scope.contains name = true ∨ name ∈ builtinNames

instance (scope : Scope) (name : String) : Decidable (scope.Knows name) :=
  inferInstanceAs (Decidable (_ ∨ _))

/-- The names that mean something are those that are known. -/
theorem Scope.meaning?_eq_none (scope : Scope) (name : String) :
    scope.meaning? name = none ↔ ¬scope.Knows name := by
  rw [Knows, not_or, ← builtinScalar?_eq_none, contains_eq_true]
  cases hmodule : scope.moduleOf? name with
  | some module =>
    rw [meaning?_of_module hmodule]
    exact ⟨nofun, fun h => absurd ⟨module, rfl⟩ h.1⟩
  | none =>
    rw [meaning?_of_none hmodule]
    exact ⟨fun h => ⟨nofun, h⟩, And.right⟩

namespace TypeRef

/-- **What an expression says of the reference** it stands for, and of the
scope it was found in. -/
structure Renders (scope : Scope) (t : TypeRef) (type : TypeExpr) : Prop where
  /-- It is optional just if the reference admits null. -/
  optional : type.isOptional = true ↔ t.isNonNull = false
  /-- It has a sequence for every list. -/
  sequences : type.sequences = t.lists
  /-- No option stands directly inside another. -/
  options : ∀ inner, .optional (.optional inner) ∉ type.nodes
  /-- A sequence stands directly inside another just for a list that excludes
  null inside a list. -/
  directly : ∀ inner, .sequence (.sequence inner) ∈ type.nodes ↔
    ∃ s, list (nonNull (list s)) ∈ t.parts ∧ s.resolve scope = .ok inner
  /-- At its core is the leaf, from the module that provides it. -/
  provided : ∀ module, scope.moduleOf? t.leaf = some module →
    type.core = .imported t.leaf module
  /-- A leaf that no module provides is a scalar. -/
  scalar : scope.moduleOf? t.leaf = none → builtinScalar? t.leaf = some type.core
  /-- With the name of the leaf, the reference can be read back. -/
  reference : type.reference t.leaf = t

variable {scope : Scope} {t : TypeRef} {leaf : TypeExpr}

/-- The leaf of a part is the leaf of the whole. -/
theorem leaf_of_mem_parts {s : TypeRef} (hs : s ∈ t.parts) : s.leaf = t.leaf := by
  induction t with
  | named name => rw [List.mem_singleton.mp hs]
  | list inner ih =>
    obtain rfl | hs := List.mem_cons.mp hs
    · rfl
    · exact ih hs
  | nonNull inner ih =>
    obtain rfl | hs := List.mem_cons.mp hs
    · rfl
    · exact ih hs

/-- **A sound reference is rendered** by its expression. -/
theorem renders_expression (hmeaning : scope.meaning? t.leaf = some leaf)
    (h : t.isSound = true) : t.Renders scope (t.expression leaf) := by
  obtain ⟨head, module?, rfl⟩ := Scope.exists_bare_of_meaning hmeaning
  refine ⟨?_, sequences_expression h, notMem_nodes_expression h, fun inner => ?_, ?_, ?_,
    reference_expression h⟩
  · rw [isOptional_expression h, Bool.not_eq_true']
  · rw [sequence_mem_nodes_expression h]
    constructor
    · rintro ⟨r, hr, hsequence⟩
      have hsound : r.isSound = true :=
        show (list r).isSound = true from isSound_of_mem_parts h hr
      obtain ⟨s, rfl, rfl⟩ := (expression_eq_sequence hsound).mp hsequence
      refine ⟨s, hr, resolve_eq_ok.mpr ⟨_, ?_, hsound, rfl⟩⟩
      rw [← hmeaning, ← leaf_of_mem_parts hr]
      rfl
    · rintro ⟨s, hs, hresolve⟩
      obtain ⟨found, hfound, -, rfl⟩ := resolve_eq_ok.mp hresolve
      have hleaf : (list (nonNull (list s))).leaf = t.leaf := leaf_of_mem_parts hs
      obtain rfl := Option.some.inj ((hleaf ▸ hmeaning).symm.trans hfound)
      exact ⟨_, hs, rfl⟩
  · intro module hmodule
    rw [core_expression, ← Option.some.inj (hmeaning.symm.trans (Scope.meaning?_of_module hmodule))]
  · intro hmodule
    rw [core_expression, ← Scope.meaning?_of_none hmodule, hmeaning]

/-- **The three ways that resolving ends.** -/
theorem resolve_cases (scope : Scope) (t : TypeRef) :
    (¬scope.Knows t.leaf ∧ t.resolve scope = .error (.unresolvedType t.leaf)) ∨
    (scope.Knows t.leaf ∧ t.isSound = false ∧
      ∃ reference found, t.resolve scope = .error (.doubleExclusion reference found)) ∨
    (scope.Knows t.leaf ∧ t.isSound = true ∧
      ∃ type, t.resolve scope = .ok type ∧ t.Renders scope type) := by
  have hmeaning := scope.meaning?_eq_none t.leaf
  rw [resolve_eq]
  cases hleaf : scope.meaning? t.leaf with
  | none => exact .inl ⟨hmeaning.mp hleaf, rfl⟩
  | some leaf =>
    have hknows : scope.Knows t.leaf := by
      by_contra hnot
      rw [hmeaning.mpr hnot] at hleaf
      cases hleaf
    cases hdoubled : t.doubled? with
    | none =>
      have hsound := (doubled?_eq_none t).mp hdoubled
      exact .inr (.inr ⟨hknows, hsound, _, rfl, renders_expression hleaf hsound⟩)
    | some inner =>
      have hsound : ¬t.isSound = true := fun h => by
        rw [(doubled?_eq_none t).mpr h] at hdoubled
        cases hdoubled
      exact .inr (.inl ⟨hknows, Bool.not_eq_true _ ▸ hsound, _, _, rfl⟩)

/-- **Resolving loses nothing.** It fails in two ways: at a leaf that the scope
does not know, and, if it knows the leaf, at an exclusion of what excludes
null already. Otherwise the reference has an expression, which says of it what
it has to say, and references with the same leaf and the same expression are
equal, in whatever scopes it was found. -/
theorem resolve_loses_nothing (scope : Scope) (t : TypeRef) :
    (∀ name, t.resolve scope = .error (.unresolvedType name) ↔
      name = t.leaf ∧ ¬scope.Knows t.leaf) ∧
    ((∃ reference found, t.resolve scope = .error (.doubleExclusion reference found)) ↔
      scope.Knows t.leaf ∧ ∃ inner, nonNull (nonNull inner) ∈ t.parts) ∧
    (scope.Knows t.leaf → (∀ inner, nonNull (nonNull inner) ∉ t.parts) →
      ∃ type, t.resolve scope = .ok type ∧ t.Renders scope type) ∧
    ∀ (other : TypeRef) (scope' : Scope) (type : TypeExpr), other.leaf = t.leaf →
      t.resolve scope = .ok type → other.resolve scope' = .ok type → other = t := by
  have hdoubled : t.isSound = false ↔ ∃ inner, nonNull (nonNull inner) ∈ t.parts := by
    rw [← Bool.not_eq_true, isSound_iff]
    simp only [not_forall, not_not]
  refine ⟨fun name => ?_, ?_, fun hknows hsingle => ?_, fun other scope' type hleaf ht hother => ?_⟩
  · obtain ⟨hnot, h⟩ | ⟨hknows, -, reference, found, h⟩ | ⟨hknows, -, type, h, -⟩ :=
      resolve_cases scope t
    · simp [h, hnot, eq_comm]
    · simp [h, hknows]
    · simp [h, hknows]
  · rw [← hdoubled]
    obtain ⟨hnot, h⟩ | ⟨hknows, hsound, reference, found, h⟩ | ⟨hknows, hsound, type, h, -⟩ :=
      resolve_cases scope t
    · simp [h, hnot]
    · simp [h, hknows, hsound]
    · simp [h, hsound]
  · obtain ⟨hnot, -⟩ | ⟨-, hsound, -⟩ | ⟨-, -, htype⟩ := resolve_cases scope t
    · exact absurd hknows hnot
    · obtain ⟨inner, hinner⟩ := hdoubled.mp hsound
      exact absurd hinner (hsingle inner)
    · exact htype
  · have hread {u : TypeRef} {scope : Scope} (h : u.resolve scope = .ok type) :
        type.reference u.leaf = u := by
      obtain ⟨leaf, hmeaning, hsound, rfl⟩ := resolve_eq_ok.mp h
      exact (renders_expression hmeaning hsound).reference
    rw [← hread hother, ← hread ht, hleaf]

/-- A list of required lists, where a sequence stands directly inside another,
and the core alone is optional. -/
example : (list (nonNull (list (named "Int")))).resolve .empty
    = .ok (.optional (.sequence (.sequence (.optional (.builtin "int"))))) := by
  decide

end TypeRef

end SchemaScaffold
