import SchemaScaffold.Proofs.Outcome
import SchemaScaffold.Proofs.TypeExpr
import SchemaScaffold.TypeExpr.Resolve

/-!
# What a reference resolves to

Only the leaf of a reference is looked up, and only two things can be
wrong with a reference. Its leaf may mean nothing, or some level of it may
exclude null from what excludes null already. The second can be read off
the reference alone (`TypeRef.isSound`), and so can the shape of the
expression once the meaning of the leaf is known (`TypeRef.expression`).

`TypeRef.resolve_eq` says that this is all there is to resolving, and in
which order the two faults are found: the leaf is looked up before any
level around it is put back on, and the levels are put back from the
inside, so it is the innermost doubled exclusion that is told
(`TypeRef.doubled?`).
-/

namespace SchemaScaffold

/-- **What a name means in a scope**: what the scope provides, or else one
of the scalars that every schema has. -/
def Scope.meaning? (scope : Scope) (name : String) : Option TypeExpr :=
  match scope.moduleOf? name with
  | some module => some (.imported name module)
  | none => builtinScalar? name

namespace TypeRef

/-- **The expression for a reference** whose leaf means the given one. -/
def expression (leaf : TypeExpr) : TypeRef → TypeExpr
  | named _ => .optional leaf
  | nonNull inner => (inner.expression leaf).required
  | list inner => .optional (.sequence (inner.expression leaf))

/-- **Whether no level excludes null from what excludes null already.** -/
def isSound : TypeRef → Bool
  | named _ => true
  | nonNull inner => !inner.isNonNull && inner.isSound
  | list inner => inner.isSound

/-- **The innermost reference that excludes null** and is wrapped by
another exclusion, if there is one. -/
def doubled? : TypeRef → Option TypeRef
  | named _ => none
  | nonNull inner => inner.doubled?.or (if inner.isNonNull then some inner else none)
  | list inner => inner.doubled?

/-- A reference without a doubled exclusion is a sound one. -/
theorem doubled?_eq_none (t : TypeRef) : t.doubled? = none ↔ t.isSound = true := by
  induction t with
  | named name => exact ⟨fun _ => rfl, fun _ => rfl⟩
  | nonNull inner ih =>
    rw [doubled?, isSound, Option.or_eq_none_iff, ih, Bool.and_eq_true, Bool.not_eq_true']
    cases inner.isNonNull <;> simp
  | list inner ih => rw [doubled?, isSound, ih]

/-- **A sound reference** is a name, an excluding name, a list or an excluding
list. -/
@[elab_as_elim]
theorem sound_induction {motive : (t : TypeRef) → t.isSound = true → Prop}
    (named : ∀ name, motive (.named name) rfl)
    (nonNullNamed : ∀ name, motive (.nonNull (.named name)) rfl)
    (list : ∀ inner (h : inner.isSound = true), motive inner h → motive (.list inner) h)
    (nonNullList : ∀ inner (h : inner.isSound = true), motive inner h →
      motive (.nonNull (.list inner)) h)
    (t : TypeRef) (h : t.isSound = true) : motive t h :=
  match t, h with
  | .named name, _ => named name
  | .list inner, h => list inner h (sound_induction named nonNullNamed list nonNullList inner h)
  | .nonNull (.named name), _ => nonNullNamed name
  | .nonNull (.list inner), h =>
    nonNullList inner h (sound_induction named nonNullNamed list nonNullList inner h)
  | .nonNull (.nonNull _), h => nomatch h

end TypeRef

/-! ## Leaves -/

section Leaf

variable {scope : Scope} {name module : String} {leaf : TypeExpr}

/-- **What a name means is a plain name.** -/
theorem Scope.exists_bare_of_meaning (h : scope.meaning? name = some leaf) :
    ∃ head module?, leaf = .bare head module? := by
  unfold meaning? at h
  split at h
  · exact ⟨name, _, (Option.some.inj h).symm⟩
  · unfold builtinScalar? at h
    repeat' split at h
    all_goals cases h
    all_goals exact ⟨_, _, rfl⟩

theorem Scope.meaning?_of_module (h : scope.moduleOf? name = some module) :
    scope.meaning? name = some (.imported name module) := by
  rw [meaning?, h]

theorem Scope.meaning?_of_none (h : scope.moduleOf? name = none) :
    scope.meaning? name = builtinScalar? name := by
  rw [meaning?, h]

/-- **Looking a name up** gives its meaning, or the error that it has
none. -/
theorem Scope.resolveName_eq (scope : Scope) (name : String) :
    scope.resolveName name
      = match scope.meaning? name with
        | some leaf => .ok leaf
        | none => .error (.unresolvedType name) := by
  unfold resolveName meaning?
  cases scope.moduleOf? name <;> rfl

theorem Scope.resolveName_eq_ok : scope.resolveName name = .ok leaf ↔
    scope.meaning? name = some leaf := by
  rw [resolveName_eq]
  cases scope.meaning? name with
  | none => exact ⟨fun h => (by cases h), fun h => (by cases h)⟩
  | some found => exact ⟨fun h => congrArg some (Except.ok.inj h),
      fun h => congrArg Except.ok (Option.some.inj h)⟩

end Leaf

/-! ## References -/

namespace TypeRef

variable {scope : Scope} {type : TypeExpr} {t : TypeRef}

/-- **An exclusion finds an option to take off** unless what it is applied
to is an exclusion itself. -/
theorem required?_expression (head : String) (module? : Option String) (ht : t.doubled? = none) :
    (t.expression (.bare head module?)).required?
      = if t.isNonNull then none else some (t.expression (.bare head module?)).required := by
  have hsound := (doubled?_eq_none t).mp ht
  clear ht
  induction t, hsound using sound_induction with
  | named name => rfl
  | nonNullNamed name => rfl
  | list inner hinner ih => rfl
  | nonNullList inner hinner ih => rfl

/-- **Resolving in closed form.** The leaf is looked up first, then the
innermost doubled exclusion is looked for, and otherwise the expression is
the one of the shape of the reference. -/
theorem resolve_eq (scope : Scope) (t : TypeRef) :
    t.resolve scope
      = match scope.meaning? t.leaf with
        | none => .error (.unresolvedType t.leaf)
        | some leaf =>
          match t.doubled? with
          | none => .ok (t.expression leaf)
          | some inner => .error (.doubleExclusion (.nonNull inner) (inner.expression leaf)) := by
  induction t with
  | named name =>
    rw [resolve, Scope.resolveName_eq, TypeRef.leaf]
    cases scope.meaning? name <;> rfl
  | list inner ih =>
    rw [resolve, ih, TypeRef.leaf, doubled?]
    cases scope.meaning? inner.leaf with
    | none => rfl
    | some leaf => cases inner.doubled? <;> rfl
  | nonNull inner ih =>
    rw [resolve, ih, TypeRef.leaf, doubled?]
    cases hmeaning : scope.meaning? inner.leaf with
    | none => rfl
    | some leaf =>
      cases hdoubled : inner.doubled? with
      | some found => rfl
      | none =>
        -- here the outermost level is the one that may be at fault
        obtain ⟨head, module?, rfl⟩ := Scope.exists_bare_of_meaning hmeaning
        show (TypeRef.nonNull inner).exclude (inner.expression (.bare head module?)) = _
        rw [exclude, required?_expression head module? hdoubled]
        cases inner.isNonNull <;> rfl

/-- **A reference resolves to its expression**, just if its leaf means
something and no exclusion is doubled. -/
theorem resolve_eq_ok : t.resolve scope = .ok type ↔
    ∃ leaf, scope.meaning? t.leaf = some leaf ∧ t.isSound = true ∧ type = t.expression leaf := by
  rw [resolve_eq, ← doubled?_eq_none]
  cases hmeaning : scope.meaning? t.leaf with
  | none =>
    constructor
    · intro h
      cases h
    · rintro ⟨leaf, h, -⟩
      cases h
  | some leaf =>
    cases hdoubled : t.doubled? with
    | some inner =>
      constructor
      · intro h
        cases h
      · rintro ⟨leaf', -, h, -⟩
        cases h
    | none =>
      constructor
      · intro h
        exact ⟨leaf, rfl, rfl, (Except.ok.inj h).symm⟩
      · rintro ⟨leaf', hleaf, -, rfl⟩
        cases hleaf
        rfl

/-- **The leaf is at the core of the expression.** -/
theorem core_expression (head : String) (module? : Option String) (t : TypeRef) :
    (t.expression (.bare head module?)).core = .bare head module? := by
  induction t with
  | named name => rfl
  | nonNull inner ih => rw [expression, TypeExpr.core_required, ih]
  | list inner ih => exact ih

end TypeRef

end SchemaScaffold
