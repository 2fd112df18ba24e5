import Mathlib.Data.List.Forall2

/-!
# What goes wrong first

A stage of the generation is a computation that looks at one thing after
another and stops at the first it cannot accept. Whatever it builds on the
way, *why* it stops depends on the things it looks at and on nothing else.
So the error of a computation (`failure?`) has a calculus of its own, in
which a sequence of steps is a choice of the first (`failure?_bind`) and a
pass over a list is a search in the list of all its faults
(`failure?_mapM`).

The other half is the calculus of results. A pass over a list succeeds if
it succeeds on every element, and then its results are those of the
elements, in order (`mapM_eq_ok`).
-/

namespace SchemaScaffold

variable {α β γ ε : Type}

/-- **What went wrong** in a computation, if anything did. -/
def failure? : Except ε α → Option ε
  | .ok _ => none
  | .error e => some e

/-- Nothing went wrong just if there is a result. -/
theorem failure?_eq_none {x : Except ε α} : failure? x = none ↔ ∃ a, x = .ok a := by
  cases x with
  | ok a => exact ⟨fun _ => ⟨a, rfl⟩, fun _ => rfl⟩
  | error e =>
    constructor
    · intro h
      cases h
    · rintro ⟨a, ha⟩
      cases ha

/-- What went wrong is the error. -/
theorem failure?_eq_some {x : Except ε α} {e : ε} : failure? x = some e ↔ x = .error e := by
  cases x with
  | ok a => exact ⟨fun h => (by cases h), fun h => (by cases h)⟩
  | error e' => exact ⟨fun h => congrArg Except.error (Option.some.inj h),
      fun h => congrArg some (Except.error.inj h)⟩

/-- **Of two steps the first that fails decides.** What the second one
would do without the result of the first is not asked. -/
theorem failure?_bind {x : Except ε α} {f : α → Except ε β} {rest : Option ε}
    (h : ∀ a, x = .ok a → failure? (f a) = rest) : failure? (x >>= f) = (failure? x).or rest := by
  cases x with
  | ok a => exact h a rfl
  | error e => rfl

/-- Whatever is made of the result, the error is the same. -/
@[simp] theorem failure?_map (g : α → β) (x : Except ε α) : failure? (g <$> x) = failure? x := by
  cases x <;> rfl

/-- A last step that cannot fail leaves the error as it is. -/
theorem failure?_bind_pure (x : Except ε α) (g : α → β) :
    failure? (x >>= fun a => pure (g a)) = failure? x := by
  cases x <;> rfl

/-- **A pass over a list fails at the first fault of all**, if on each
element it fails at the first fault of the element. -/
theorem failure?_mapM {f : α → Except ε β} {g : α → List γ} {p : γ → Option ε} {xs : List α}
    (h : ∀ x ∈ xs, failure? (f x) = (g x).findSome? p) :
    failure? (xs.mapM f) = (xs.flatMap g).findSome? p := by
  induction xs with
  | nil => rfl
  | cons x xs ih =>
    have hrest := ih fun x' hx' => h x' (List.mem_cons_of_mem x hx')
    rw [List.mapM_cons, failure?_bind fun y _ => failure?_bind_pure (xs.mapM f) (y :: ·), hrest,
      h x List.mem_cons_self, List.flatMap_cons, List.findSome?_append]

/-! ## Results -/

/-- Two steps have a result if the first has one and the second has one
for it. -/
theorem bind_eq_ok {x : Except ε α} {f : α → Except ε β} {b : β} :
    (x >>= f) = .ok b ↔ ∃ a, x = .ok a ∧ f a = .ok b := by
  cases x with
  | ok a =>
    refine ⟨fun h => ⟨a, rfl, h⟩, ?_⟩
    rintro ⟨a', ha, h⟩
    cases ha
    exact h
  | error e =>
    constructor
    · intro h
      cases h
    · rintro ⟨a, ha, -⟩
      cases ha

/-- Whatever is made of the result, it is made of one. -/
theorem map_eq_ok {f : α → β} {x : Except ε α} {b : β} :
    f <$> x = .ok b ↔ ∃ a, x = .ok a ∧ f a = b := by
  cases x with
  | ok a =>
    constructor
    · intro h
      exact ⟨a, rfl, Except.ok.inj h⟩
    · rintro ⟨_, h, rfl⟩
      rw [Except.ok.inj h]
      rfl
  | error e =>
    constructor
    · intro h
      cases h
    · rintro ⟨_, h, -⟩
      cases h

/-- A result that passes a test is there, if it can be seen to pass it. -/
theorem exists_ok_of_any {x : Except ε α} {p : α → Bool} (h : x.toOption.any p = true) :
    ∃ a, x = .ok a ∧ p a = true := by
  cases x with
  | ok a => exact ⟨a, rfl, h⟩
  | error e => cases h

/-- **A pass over a list has a result just if every element has one**, and
then it is these. -/
theorem mapM_eq_ok {f : α → Except ε β} {xs : List α} {ys : List β} :
    xs.mapM f = .ok ys ↔ List.Forall₂ (fun x y => f x = .ok y) xs ys := by
  induction xs generalizing ys with
  | nil =>
    rw [List.mapM_nil, List.forall₂_nil_left_iff]
    exact ⟨fun h => (Except.ok.inj h).symm, fun h => congrArg Except.ok h.symm⟩
  | cons x xs ih =>
    rw [List.mapM_cons, List.forall₂_cons_left_iff, bind_eq_ok]
    constructor
    · rintro ⟨y, hy, hrest⟩
      obtain ⟨zs, hzs, hok⟩ := bind_eq_ok.mp hrest
      exact ⟨y, zs, hy, ih.mp hzs, (Except.ok.inj hok).symm⟩
    · rintro ⟨y, zs, hy, hzs, rfl⟩
      exact ⟨y, hy, bind_eq_ok.mpr ⟨zs, ih.mpr hzs, rfl⟩⟩

/-- So it has one just if each element has one. -/
theorem exists_mapM_eq_ok {f : α → Except ε β} {xs : List α} :
    (∃ ys, xs.mapM f = .ok ys) ↔ ∀ x ∈ xs, ∃ y, f x = .ok y := by
  induction xs with
  | nil => exact ⟨fun _ => List.forall_mem_nil _, fun _ => ⟨[], rfl⟩⟩
  | cons x xs ih =>
    rw [List.forall_mem_cons, ← ih]
    constructor
    · rintro ⟨ys, h⟩
      obtain ⟨y, zs, hy, hzs, rfl⟩ := List.forall₂_cons_left_iff.mp (mapM_eq_ok.mp h)
      exact ⟨⟨y, hy⟩, zs, mapM_eq_ok.mpr hzs⟩
    · rintro ⟨⟨y, hy⟩, zs, hzs⟩
      exact ⟨y :: zs, mapM_eq_ok.mpr (.cons hy (mapM_eq_ok.mp hzs))⟩

/-- **Where the result of an element is known**, so is that of the
pass. -/
theorem mapM_eq_map {f : α → Except ε β} {g : α → β} {xs : List α} {ys : List β}
    (hg : ∀ x ∈ xs, ∀ y, f x = .ok y → y = g x) (h : xs.mapM f = .ok ys) : ys = xs.map g := by
  induction xs generalizing ys with
  | nil => exact (Except.ok.inj h).symm
  | cons x xs ih =>
    obtain ⟨y, zs, hy, hzs, rfl⟩ := List.forall₂_cons_left_iff.mp (mapM_eq_ok.mp h)
    rw [List.map_cons, ← hg x List.mem_cons_self y hy,
      ih (fun x' hx' => hg x' (List.mem_cons_of_mem x hx')) (mapM_eq_ok.mpr hzs)]

/-- What the results of a pass show is what the elements show, if that is so
for each of them. -/
theorem map_eq_of_mapM {f : α → Except ε β} {g : β → γ} {k : α → γ} {xs : List α} {ys : List β}
    (hg : ∀ x y, f x = .ok y → g y = k x) (h : xs.mapM f = .ok ys) : ys.map g = xs.map k := by
  have hall := mapM_eq_ok.mp h
  clear h
  induction hall with
  | nil => rfl
  | cons hy _ ih => rw [List.map_cons, List.map_cons, hg _ _ hy, ih]

/-- **What is made of some elements** corresponds to them, one by one. -/
theorem forall₂_filterMap {make? : α → Option β} {p : α → Bool} {R : α → β → Prop} {items : List α}
    (hp : ∀ a, p a = (make? a).isSome) (hR : ∀ a ∈ items, ∀ b, make? a = some b → R a b) :
    List.Forall₂ R (items.filter p) (items.filterMap make?) := by
  induction items with
  | nil => exact .nil
  | cons a items ih =>
    obtain ⟨ha, hitems⟩ := List.forall_mem_cons.mp hR
    cases hmake : make? a with
    | none => simpa [hp, hmake] using ih hitems
    | some b => simpa [hp, hmake] using List.Forall₂.cons (ha b hmake) (by simpa [hp] using ih hitems)

/-- What the one list says of each of its elements, the other says of its
own. -/
theorem forall_mem_iff_of_forall₂ {P : α → Prop} {Q : β → Prop} {xs : List α} {ys : List β}
    (h : List.Forall₂ (fun x y => P x ↔ Q y) xs ys) : (∀ x ∈ xs, P x) ↔ ∀ y ∈ ys, Q y := by
  induction h with
  | nil => exact ⟨fun _ => List.forall_mem_nil _, fun _ => List.forall_mem_nil _⟩
  | cons hxy _ ih => rw [List.forall_mem_cons, List.forall_mem_cons, hxy, ih]

/-! ## With a state -/

/-- Errors told in other words are the same errors, with the same state behind
them. -/
theorem adapt_run {σ δ : Type} (f : ε → δ) (x : ExceptT ε (StateM σ) α) (state : σ) :
    (x.adapt f : ExceptT δ (StateM σ) α) state = ((x state).1.mapError f, (x state).2) := rfl

end SchemaScaffold
