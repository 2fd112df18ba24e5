import SchemaScaffold.Proofs.Numeral
import SchemaScaffold.Proofs.Outcome
import SchemaScaffold.Proofs.Table

/-!
# Places in a constant

Lists and objects stand inside one another to any depth, so what a constant
says at some depth is said of a place: the items and fields that lead there
(`Literal.at?`, `Value.at?`). The value of a literal has the same places as the
literal, and what stands at a place is the value of what stands there in the
literal (`Literal.value_at`). One step is enough for this, and only one kind of
step needs care. A literal may set a field more than once, and its value keeps
the last setting (`Literal.find?_settle`), so the field of a literal is the
last one with its name.

A literal has a value just if all its numerals have one, those that are set
again included (`Literal.failure?_value`).
-/

namespace SchemaScaffold

/-- **One step into a constant.** -/
inductive ConstantStep where
  /-- To an item of a list, by its number. -/
  | item (i : Nat)
  /-- To a field of an object, by its name. -/
  | field (name : String)
  deriving DecidableEq, Repr

namespace Value

/-- What stands at a step into a value. -/
def child? : Value → ConstantStep → Option Value
  | list items, .item i => items[i]?
  | object fields, .field name => Table.find? name fields
  | _, _ => none

/-- **What stands at a place** in a value. -/
def at? : Value → List ConstantStep → Option Value
  | value, [] => some value
  | value, step :: path => (value.child? step).bind (at? · path)

end Value

/-- What is wrong with a numeral that has no value. -/
def Sdl.Numeral.fault? (numeral : Sdl.Numeral) : Option Sdl.Fault :=
  if numeral.value?.isNone then some .number else none

namespace Sdl.Literal

variable {literal : Literal} {v : Value}

/-- What stands at a step into a literal. Of several settings of a field it is
the last one. -/
def child? : Literal → ConstantStep → Option Literal
  | list items, .item i => items[i]?
  | object fields, .field name => Table.find? name fields.reverse
  | _, _ => none

/-- **What stands at a place** in a literal. -/
def at? : Literal → List ConstantStep → Option Literal
  | literal, [] => some literal
  | literal, step :: path => (literal.child? step).bind (at? · path)

/-! ## The values of the parts -/

theorem values_eq_mapM (items : List Literal) : values items = items.mapM value := by
  induction items with
  | nil => rfl
  | cons item items ih => rw [values, ih, List.mapM_cons]

theorem settings_eq_mapM (fields : List (String × Literal)) :
    settings fields = fields.mapM fun field => (field.fst, ·) <$> value field.snd := by
  induction fields with
  | nil => rfl
  | cons field fields ih =>
    rw [settings, ih, List.mapM_cons]
    cases value field.snd with
    | ok v => rfl
    | error fault => rfl

theorem settings_eq_ok {fields : List (String × Literal)} {vs : List (String × Value)} :
    settings fields = .ok vs ↔
      List.Forall₂ (fun field v => field.fst = v.fst ∧ field.snd.value = .ok v.snd) fields vs := by
  have hfield (field : String × Literal) (v : String × Value) :
      (field.fst, ·) <$> value field.snd = .ok v ↔
        field.fst = v.fst ∧ field.snd.value = .ok v.snd := by
    rw [map_eq_ok]
    constructor
    · rintro ⟨w, hw, rfl⟩
      exact ⟨rfl, hw⟩
    · rintro ⟨hname, hw⟩
      exact ⟨v.snd, hw, Prod.ext hname rfl⟩
  rw [settings_eq_mapM, mapM_eq_ok]
  exact ⟨fun h => h.imp fun field v => (hfield field v).mp,
    fun h => h.imp fun field v => (hfield field v).mpr⟩

/-! ## Settings -/

theorem find?_setField (fields : List (String × Value)) (name : String) (v : Value) (k : String) :
    Table.find? k (setField fields name v)
      = if k = name then some v else Table.find? k fields := by
  have hset (fields : List (String × Value)) :
      Table.find? k (fields.map fun f => if f.fst == name then (name, v) else f)
        = if k = name then (Table.find? k fields).map fun _ => v else Table.find? k fields := by
    induction fields with
    | nil => simp [Table.find?]
    | cons f fields ih =>
      rw [List.map_cons, Table.find?, Table.find?, ih]
      by_cases hf : f.fst = name
      · by_cases hk : k = name <;> simp [hf, hk]
      · by_cases hk : k = name
        · subst hk
          simp [hf, Ne.symm hf]
        · simp [hf, hk]
  have hsome : fields.any (·.fst == name) = (Table.find? name fields).isSome := by
    rw [Bool.eq_iff_iff, Table.isSome_find?, List.any_eq_true, List.mem_map]
    simp only [beq_iff_eq]
  rw [setField, hsome]
  split
  · next hset' =>
    obtain ⟨w, hw⟩ := Option.isSome_iff_exists.mp hset'
    rw [hset]
    split
    · next hk => rw [hk, hw]; rfl
    · rfl
  · next hunset =>
    rw [Table.find?_append, Table.find?]
    split
    · next hk =>
      subst hk
      rw [Option.not_isSome_iff_eq_none.mp hunset]
      rfl
    · exact Option.or_none

/-- **The last setting of a field counts.** By induction from the end. -/
theorem find?_settle (k : String) (settings : List (String × Value)) :
    Table.find? k (settle settings) = Table.find? k settings.reverse := by
  induction settings using List.reverseRecOn with
  | nil => rfl
  | append_singleton settings setting ih =>
    have hsettle : settle (settings ++ [setting])
        = setField (settle settings) setting.fst setting.snd :=
      List.foldl_concat ..
    rw [hsettle, find?_setField, List.reverse_append, ih]
    rfl

/-! ## Places -/

theorem rel_getElem? {α β : Type} {R : α → β → Prop} {xs : List α} {ys : List β}
    (h : List.Forall₂ R xs ys) (i : Nat) : Option.Rel R xs[i]? ys[i]? := by
  induction h generalizing i with
  | nil => exact .none
  | cons hxy _ ih =>
    cases i with
    | zero => exact .some hxy
    | succ i => exact ih i

theorem rel_find? {α β : Type} {R : α → β → Prop} {xs : List (String × α)} {ys : List (String × β)}
    (h : List.Forall₂ (fun x y => x.fst = y.fst ∧ R x.snd y.snd) xs ys) (k : String) :
    Option.Rel R (Table.find? k xs) (Table.find? k ys) := by
  induction h with
  | nil => exact .none
  | @cons x y xs ys hxy _ ih =>
    rw [Table.find?, Table.find?, hxy.1]
    split
    · exact .some hxy.2
    · exact ih

/-- A number has no parts. -/
theorem child?_of_value? {numeral : Numeral} (h : numeral.value? = some v)
    (step : ConstantStep) : v.child? step = none := by
  cases numeral with
  | integer negative m =>
    cases Numeral.value?_integer.mp h with
    | int | negativeZero | float => rfl
  | decimal negative whole fraction exponent =>
    obtain ⟨double, -, rfl⟩ := Option.map_eq_some_iff.mp h
    rfl

/-- The value of a number is that of its numeral. -/
theorem value_number {numeral : Numeral} :
    (number numeral).value = .ok v ↔ numeral.value? = some v := by
  rw [value]
  cases numeral.value? with
  | none => exact ⟨nofun, nofun⟩
  | some w =>
    exact ⟨fun h => congrArg some (Except.ok.inj h),
      fun h => congrArg Except.ok (Option.some.inj h)⟩

/-- **One step into the value** is the same step into the literal. -/
theorem value_child (h : literal.value = .ok v) (step : ConstantStep) :
    Option.Rel (fun inner w => inner.value = .ok w) (literal.child? step) (v.child? step) := by
  cases literal with
  | number numeral =>
    rw [child?_of_value? (value_number.mp h) step]
    exact .none
  | string _ | boolean _ | null | enumValue _ =>
    obtain rfl := Except.ok.inj h
    exact .none
  | list items =>
    obtain ⟨vs, hvs, hlist⟩ := map_eq_ok.mp h
    subst hlist
    rw [values_eq_mapM, mapM_eq_ok] at hvs
    cases step with
    | item i => exact rel_getElem? hvs i
    | field name => exact .none
  | object fields =>
    obtain ⟨vs, hvs, hobject⟩ := map_eq_ok.mp h
    subst hobject
    cases step with
    | item i => exact .none
    | field name =>
      show Option.Rel _ _ (Table.find? name (settle vs))
      rw [find?_settle]
      exact rel_find? (List.rel_reverse (settings_eq_ok.mp hvs)) name

/-- **The value of a literal has its places**, and at each of them the value of
what stands there. By induction on the path. -/
theorem value_at (h : literal.value = .ok v) (path : List ConstantStep) :
    Option.Rel (fun inner w => inner.value = .ok w) (literal.at? path) (v.at? path) := by
  induction path generalizing literal v with
  | nil => exact .some h
  | cons step path ih =>
    have hchild := value_child h step
    rw [at?, Value.at?]
    generalize literal.child? step = inner?, v.child? step = w? at hchild ⊢
    cases hchild with
    | some hinner => exact ih hinner
    | none => exact .none

/-! ## Which literals have a value -/

mutual

/-- **The numerals of a literal**, those that are set again included. -/
def numerals : Literal → List Numeral
  | number numeral => [numeral]
  | list items => itemNumerals items
  | object fields => fieldNumerals fields
  | _ => []

/-- The numerals of literals, in order. -/
def itemNumerals : List Literal → List Numeral
  | [] => []
  | item :: items => numerals item ++ itemNumerals items

/-- The numerals of the settings of an object, in order. -/
def fieldNumerals : List (String × Literal) → List Numeral
  | [] => []
  | (_, item) :: fields => numerals item ++ fieldNumerals fields

end

mutual

/-- **A literal is at fault with its first numeral that has no value.** By
induction on the literal. -/
theorem failure?_value (literal : Literal) :
    failure? literal.value = literal.numerals.findSome? Numeral.fault? := by
  cases literal with
  | number numeral =>
    show failure? (numeral.value?.elim (.error .number) .ok) = [numeral].findSome? Numeral.fault?
    rw [List.findSome?_singleton, Numeral.fault?]
    cases numeral.value? with
    | none => rfl
    | some v => rfl
  | string _ | boolean _ | null | enumValue _ => rfl
  | list items => exact (failure?_map _ _).trans (failure?_values items)
  | object fields => exact (failure?_map _ _).trans (failure?_settings fields)

theorem failure?_values (items : List Literal) :
    failure? (values items) = (itemNumerals items).findSome? Numeral.fault? := by
  cases items with
  | nil => rfl
  | cons item items =>
    rw [itemNumerals, List.findSome?_append, ← failure?_value item, ← failure?_values items]
    exact failure?_bind fun v _ => failure?_bind_pure _ _

theorem failure?_settings (fields : List (String × Literal)) :
    failure? (settings fields) = (fieldNumerals fields).findSome? Numeral.fault? := by
  match fields with
  | [] => rfl
  | (name, item) :: fields =>
    rw [fieldNumerals, List.findSome?_append, ← failure?_value item, ← failure?_settings fields]
    exact failure?_bind fun v _ => failure?_bind_pure _ _

end

/-- **A literal is finite** if each of its numerals has a value. -/
def IsFinite (literal : Literal) : Prop := ∀ numeral ∈ literal.numerals, numeral.value? ≠ none

/-- **A literal has a value** just if it is finite. -/
theorem exists_value_iff : (∃ v, literal.value = .ok v) ↔ literal.IsFinite := by
  rw [IsFinite, ← failure?_eq_none, failure?_value, List.findSome?_eq_none_iff]
  refine forall₂_congr fun numeral _ => ?_
  rw [Numeral.fault?]
  cases numeral.value? with
  | none => simp
  | some v => simp

/-- What is wrong with a literal is always a number. -/
theorem eq_number_of_value {fault : Fault} (h : literal.value = .error fault) :
    fault = .number := by
  have hfault := failure?_value literal
  rw [h] at hfault
  obtain ⟨numeral, -, hnumeral⟩ := List.exists_of_findSome?_eq_some hfault.symm
  rw [Numeral.fault?] at hnumeral
  split at hnumeral
  · exact (Option.some.inj hnumeral).symm
  · cases hnumeral

/-! ## Integers -/

/-- **A value keeps the integers of a literal**: at each place where the literal
has an integer, it has what that integer denotes. -/
def KeepsIntegers (literal : Literal) (v : Value) : Prop :=
  ∀ path negative m, literal.at? path = some (.number (.integer negative m)) →
    ∃ w, v.at? path = some w ∧ Numeral.Denotes negative m w

theorem keepsIntegers (h : literal.value = .ok v) : literal.KeepsIntegers v := by
  intro path negative m hpath
  have hplace := value_at h path
  rw [hpath] at hplace
  generalize v.at? path = w? at hplace
  cases hplace with
  | some hw => exact ⟨_, rfl, Numeral.value?_integer.mp (value_number.mp hw)⟩

end Sdl.Literal

end SchemaScaffold
