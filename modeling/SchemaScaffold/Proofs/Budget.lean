import Mathlib.Data.List.Basic
import SchemaScaffold.Proofs.Reader

/-!
# The budget of a reader is never too small

Two readers work on a budget that is no part of any grammar: a repetition and a
reader that contains itself. What a grammar says of them are two equations. A
repetition is items for as long as there are any (`Reader.many_eq_some`), and a
reader that contains itself is what its definition makes of it
(`Reader.recursive_eq`).

Both hold because of one property of what is read. A reader **advances**
(`Reader.Advances`) if it leaves less than it was given. Then each round of a
repetition has paid for itself, and a reader that goes down a level only behind
something it has taken off (`Reader.Guarded`) finds as much budget there as
there is text. A reader that does neither would need a budget of another kind.
-/

namespace SchemaScaffold

namespace Reader

variable {α β : Type} {p q : Reader α} {f g : α → Reader β} {n : Nat}

/-- What a reader leaves is no longer than what it was given. -/
def NeverGrows (p : Reader α) : Prop :=
  ∀ text a rest, p text = some (a, rest) → rest.length ≤ text.length

/-- **A reader advances** if it leaves less than it was given. -/
def Advances (p : Reader α) : Prop :=
  ∀ text a rest, p text = some (a, rest) → rest.length < text.length

theorem Advances.neverGrows (h : p.Advances) : p.NeverGrows :=
  fun text a rest hread => Nat.le_of_lt (h text a rest hread)

/-- Where nothing is left, a reader that advances does not apply. -/
theorem Advances.nil (h : p.Advances) : p [] = none := by
  cases hread : p [] with
  | none => rfl
  | some result => exact absurd (h [] result.1 result.2 hread) (Nat.not_lt_zero _)

/-! ## Readers put together -/

theorem neverGrows_pure (a : α) : (pure a : Reader α).NeverGrows := by
  intro text b rest hread
  obtain ⟨-, rfl⟩ := Prod.mk.inj (Option.some.inj hread)
  exact Nat.le_refl _

theorem neverGrows_failure : (failure : Reader α).NeverGrows := fun _ _ _ h => nomatch h

theorem NeverGrows.bind (hp : p.NeverGrows) (hf : ∀ a, (f a).NeverGrows) :
    (p >>= f).NeverGrows := by
  intro text b rest h
  obtain ⟨a, middle, ha, hb⟩ := bind_eq_some.mp h
  exact Nat.le_trans (hf a middle b rest hb) (hp text a middle ha)

/-- **It is enough that the first of two readers advances.** -/
theorem Advances.bind (hp : p.Advances) (hf : ∀ a, (f a).NeverGrows) : (p >>= f).Advances := by
  intro text b rest h
  obtain ⟨a, middle, ha, hb⟩ := bind_eq_some.mp h
  exact Nat.lt_of_le_of_lt (hf a middle b rest hb) (hp text a middle ha)

/-- Or that the second does. -/
theorem NeverGrows.bind_advances (hp : p.NeverGrows) (hf : ∀ a, (f a).Advances) :
    (p >>= f).Advances := by
  intro text b rest h
  obtain ⟨a, middle, ha, hb⟩ := bind_eq_some.mp h
  exact Nat.lt_of_lt_of_le (hf a middle b rest hb) (hp text a middle ha)

theorem map_of_eq_none {k : α → β} {text : List Char} (h : p text = none) :
    (k <$> p) text = none := by
  show (p text).bind _ = none
  rw [h]
  rfl

theorem Advances.map (h : p.Advances) (k : α → β) : (k <$> p).Advances := by
  intro text b rest hread
  obtain ⟨a, ha, -⟩ := map_eq_some.mp hread
  exact h text a rest ha

theorem NeverGrows.map (h : p.NeverGrows) (k : α → β) : (k <$> p).NeverGrows := by
  intro text b rest hread
  obtain ⟨a, ha, -⟩ := map_eq_some.mp hread
  exact h text a rest ha

/-- A choice takes something off if its first side does, or else if the second
one does. -/
theorem orElse_eq_some {text rest : List Char} {a : α} :
    (p <|> q) text = some (a, rest) ↔
      p text = some (a, rest) ∨ p text = none ∧ q text = some (a, rest) := by
  show (p text <|> q text) = _ ↔ _
  rw [Option.orElse_eq_orElse, Option.orElse_eq_or, Option.or_eq_some_iff]

theorem orElse_eq_none {text : List Char} :
    (p <|> q) text = none ↔ p text = none ∧ q text = none := by
  show (p text <|> q text) = none ↔ _
  rw [Option.orElse_eq_orElse, Option.orElse_eq_or, Option.or_eq_none_iff]

theorem NeverGrows.orElse (hp : p.NeverGrows) (hq : q.NeverGrows) : (p <|> q).NeverGrows := by
  intro text a rest h
  obtain h | ⟨-, h⟩ := orElse_eq_some.mp h
  · exact hp text a rest h
  · exact hq text a rest h

theorem Advances.orElse (hp : p.Advances) (hq : q.Advances) : (p <|> q).Advances := by
  intro text a rest h
  obtain h | ⟨-, h⟩ := orElse_eq_some.mp h
  · exact hp text a rest h
  · exact hq text a rest h

theorem NeverGrows.optional (h : p.NeverGrows) : (optional p).NeverGrows :=
  (h.map some).orElse (neverGrows_pure none)

/-! ## Characters and words -/

theorem advances_satisfy (accepts : Char → Bool) : (satisfy accepts).Advances := by
  intro text a rest h
  cases text with
  | nil => cases h
  | cons c text =>
    rw [satisfy] at h
    split at h
    · obtain ⟨-, rfl⟩ := Prod.mk.inj (Option.some.inj h)
      exact Nat.lt_succ_self _
    · cases h

theorem advances_char (c : Char) : (char c).Advances := by
  intro text a rest h
  cases text with
  | nil => cases h
  | cons d text =>
    rw [char] at h
    split at h
    · obtain ⟨-, rfl⟩ := Prod.mk.inj (Option.some.inj h)
      exact Nat.lt_succ_self _
    · cases h

theorem word_eq_some {w : String} {text rest : List Char} :
    word w text = some ((), rest) ↔ text = w.toList ++ rest := by
  constructor
  · intro h
    obtain ⟨rest', hrest, heq⟩ := Option.map_eq_some_iff.mp h
    obtain ⟨-, rfl⟩ := Prod.mk.inj heq
    exact (List.isPrefixOf?_eq_some_iff_append_eq.mp hrest).symm
  · rintro rfl
    exact Option.map_eq_some_iff.mpr ⟨rest, List.isPrefixOf?_eq_some_iff_append_eq.mpr rfl, rfl⟩

theorem advances_word {w : String} (hw : 0 < w.toList.length) : (word w).Advances := by
  intro text a rest h
  rw [word_eq_some.mp h, List.length_append]
  omega

theorem neverGrows_takeWhile (accepts : Char → Bool) : (takeWhile accepts).NeverGrows := by
  intro text a rest h
  obtain ⟨-, rfl⟩ := Prod.mk.inj (Option.some.inj h)
  exact (List.dropWhile_sublist accepts).length_le

theorem advances_takeWhile1 (accepts : Char → Bool) : (takeWhile1 accepts).Advances :=
  (advances_satisfy accepts).bind fun _ => (neverGrows_takeWhile accepts).bind fun _ =>
    neverGrows_pure _

theorem absent_eq_some {text rest : List Char} :
    absent p text = some ((), rest) ↔ p text = none ∧ text = rest := by
  cases hread : p text with
  | none =>
    rw [absent, hread]
    exact ⟨fun h => ⟨rfl, congrArg Prod.snd (Option.some.inj h)⟩, fun h => h.2 ▸ rfl⟩
  | some result =>
    rw [absent, hread]
    exact ⟨nofun, fun h => nomatch h.1⟩

theorem neverGrows_absent (p : Reader α) : (absent p).NeverGrows := by
  intro text _ rest h
  obtain ⟨-, rfl⟩ := absent_eq_some.mp h
  exact Nat.le_refl _

/-! ## Repetitions -/

theorem NeverGrows.takeItems (hp : p.NeverGrows) (budget text : List Char) :
    (takeItems p budget text).snd.length ≤ text.length := by
  induction budget generalizing text with
  | nil => exact Nat.le_refl _
  | cons c budget ih =>
    unfold Reader.takeItems
    cases hread : p text with
    | none => exact Nat.le_refl _
    | some result => exact Nat.le_trans (ih result.2) (hp text result.1 result.2 hread)

theorem NeverGrows.many (hp : p.NeverGrows) : (many p).NeverGrows := by
  intro text items rest h
  obtain ⟨-, rfl⟩ := Prod.mk.inj (Option.some.inj h)
  exact hp.takeItems text text

/-- **Items one after another**, from a text to what is left of it. -/
def InTurn (p : Reader α) : List α → List Char → List Char → Prop
  | [], text, rest => text = rest
  | item :: items, text, rest =>
    ∃ middle, p text = some (item, middle) ∧ InTurn p items middle rest

/-- **There is one way to go on for as long as there are items.** -/
theorem InTurn.unique {items others : List α} {text rest rest' : List Char}
    (h : InTurn p items text rest) (hrest : p rest = none) (hothers : InTurn p others text rest')
    (hrest' : p rest' = none) : items = others ∧ rest = rest' := by
  induction items generalizing others text with
  | nil =>
    obtain rfl : text = rest := h
    cases others with
    | nil =>
      obtain rfl : text = rest' := hothers
      exact ⟨rfl, rfl⟩
    | cons other others =>
      obtain ⟨middle, hread, -⟩ := hothers
      rw [hrest] at hread
      cases hread
  | cons item items ih =>
    obtain ⟨middle, hread, hturn⟩ := h
    cases others with
    | nil =>
      obtain rfl : text = rest' := hothers
      rw [hrest'] at hread
      cases hread
    | cons other others =>
      obtain ⟨middle', hread', hturn'⟩ := hothers
      rw [hread] at hread'
      obtain ⟨rfl, rfl⟩ := Prod.mk.inj (Option.some.inj hread')
      obtain ⟨rfl, rfl⟩ := ih hturn hturn'
      exact ⟨rfl, rfl⟩

/-- **Items are taken until there are no more**, on any budget that is no
shorter than the text. By induction on the budget, of which an item needs no
more than it takes off the text. -/
theorem inTurn_takeItems (hp : p.Advances) {budget text : List Char}
    (hbudget : text.length ≤ budget.length) :
    InTurn p (takeItems p budget text).fst text (takeItems p budget text).snd ∧
      p (takeItems p budget text).snd = none := by
  induction budget generalizing text with
  | nil =>
    obtain rfl := List.eq_nil_of_length_eq_zero (Nat.le_zero.mp hbudget)
    exact ⟨rfl, hp.nil⟩
  | cons c budget ih =>
    unfold takeItems
    cases hread : p text with
    | none => exact ⟨rfl, hread⟩
    | some result =>
      have hshorter := hp text result.1 result.2 hread
      have hbudget' : result.2.length ≤ budget.length := by
        rw [List.length_cons] at hbudget
        omega
      obtain ⟨hturn, hnone⟩ := ih hbudget'
      exact ⟨⟨result.2, hread, hturn⟩, hnone⟩

/-- **A repetition is items for as long as there are any**, if each of them
takes something off. -/
theorem many_eq_some (hp : p.Advances) {text rest : List Char} {items : List α} :
    many p text = some (items, rest) ↔ InTurn p items text rest ∧ p rest = none := by
  obtain ⟨hturn, hnone⟩ := inTurn_takeItems hp (Nat.le_refl text.length)
  constructor
  · intro h
    obtain ⟨rfl, rfl⟩ := Prod.mk.inj (Option.some.inj h)
    exact ⟨hturn, hnone⟩
  · rintro ⟨hitems, hrest⟩
    obtain ⟨rfl, rfl⟩ := hturn.unique hnone hitems hrest
    rfl

/-! ## Readers that contain themselves -/

/-- **Two readers agree** on all texts up to a length. -/
def AgreeTo (n : Nat) (p q : Reader α) : Prop := ∀ text, text.length ≤ n → p text = q text

theorem AgreeTo.refl (n : Nat) (p : Reader α) : AgreeTo n p p := fun _ _ => rfl

theorem AgreeTo.orElse {p' q' : Reader α} (hp : AgreeTo n p p') (hq : AgreeTo n q q') :
    AgreeTo n (p <|> q) (p' <|> q') := by
  intro text htext
  show (p text <|> q text) = (p' text <|> q' text)
  rw [hp text htext, hq text htext]

theorem AgreeTo.map (h : AgreeTo n p q) (k : α → β) : AgreeTo n (k <$> p) (k <$> q) := by
  intro text htext
  show (p text).bind _ = (q text).bind _
  rw [h text htext]

theorem AgreeTo.bind (h : AgreeTo n p q) (hp : p.NeverGrows) (hf : ∀ a, AgreeTo n (f a) (g a)) :
    AgreeTo n (p >>= f) (q >>= g) := by
  intro text htext
  show (p text).bind _ = (q text).bind _
  rw [← h text htext]
  cases hread : p text with
  | none => rfl
  | some result => exact hf result.1 result.2 (Nat.le_trans (hp _ _ _ hread) htext)

/-- **Behind a reader that advances** it is enough to agree on shorter
texts. -/
theorem AgreeTo.bind_advances (hp : p.Advances) (hf : ∀ a, AgreeTo n (f a) (g a)) :
    AgreeTo (n + 1) (p >>= f) (p >>= g) := by
  intro text htext
  show (p text).bind _ = (p text).bind _
  cases hread : p text with
  | none => rfl
  | some result =>
    exact hf result.1 result.2 (Nat.le_of_lt_succ (Nat.lt_of_lt_of_le (hp _ _ _ hread) htext))

theorem AgreeTo.many (h : AgreeTo n p q) (hp : p.NeverGrows) : AgreeTo n (many p) (many q) := by
  have hitems (budget text : List Char) (htext : text.length ≤ n) :
      takeItems p budget text = takeItems q budget text := by
    induction budget generalizing text with
    | nil => rfl
    | cons c budget ih =>
      unfold takeItems
      rw [← h text htext]
      cases hread : p text with
      | none => rfl
      | some result =>
        dsimp only
        rw [ih result.2 (Nat.le_trans (hp _ _ _ hread) htext)]
  exact fun text htext => congrArg some (hitems text text htext)

/-- **A body goes down a level only behind something it has taken off**: what
it makes of a text depends on the inner reader on shorter texts alone. And it
advances if the inner reader does. -/
structure Guarded (body : Reader α → Reader α) : Prop where
  /-- It advances. -/
  advances : ∀ p : Reader α, p.Advances → (body p).Advances
  /-- The inner reader counts on shorter texts alone. -/
  agree : ∀ (p q : Reader α) (n : Nat), p.Advances → AgreeTo n p q →
    AgreeTo (n + 1) (body p) (body q)

variable {body : Reader α → Reader α}

theorem Guarded.advances_nest (h : Guarded body) (budget : List Char) :
    (nest body budget).Advances := by
  induction budget with
  | nil => exact fun text a rest hread => nomatch hread
  | cons c budget ih => exact h.advances _ ih

/-- **Budgets that are no shorter than the text** are all the same. By
induction on the length of the text, since each level has less of it. -/
theorem Guarded.nest_eq (h : Guarded body) {budget budget' : List Char}
    (hbudget : n ≤ budget.length) (hbudget' : n ≤ budget'.length) :
    AgreeTo n (nest body budget) (nest body budget') := by
  induction n generalizing budget budget' with
  | zero =>
    intro text htext
    obtain rfl := List.eq_nil_of_length_eq_zero (Nat.le_zero.mp htext)
    rw [(h.advances_nest budget).nil, (h.advances_nest budget').nil]
  | succ n ih =>
    obtain ⟨c, budget, rfl⟩ := List.exists_cons_of_length_pos (Nat.zero_lt_of_lt hbudget)
    obtain ⟨c', budget', rfl⟩ := List.exists_cons_of_length_pos (Nat.zero_lt_of_lt hbudget')
    exact h.agree _ _ n (h.advances_nest budget)
      (ih (Nat.le_of_succ_le_succ hbudget) (Nat.le_of_succ_le_succ hbudget'))

theorem Guarded.advances_recursive (h : Guarded body) : (recursive body).Advances :=
  fun text => h.advances_nest text text

/-- **A reader that contains itself is what its definition makes of it.** -/
theorem recursive_eq (h : Guarded body) : recursive body = body (recursive body) := by
  funext text
  cases text with
  | nil => rw [h.advances_recursive.nil, (h.advances _ h.advances_recursive).nil]
  | cons c text =>
    have hinner : AgreeTo text.length (nest body text) (recursive body) := fun shorter hshorter =>
      h.nest_eq hshorter (Nat.le_refl _) shorter (Nat.le_refl _)
    exact h.agree _ _ text.length (h.advances_nest text) hinner (c :: text) (Nat.le_refl _)

end Reader

/-! ## Lexemes -/

namespace Sdl

variable {α : Type} {p : Reader α}

theorem length_skipIgnored (inComment : Bool) (text : List Char) :
    (skipIgnored inComment text).length ≤ text.length := by
  induction text generalizing inComment with
  | nil => exact Nat.le_refl _
  | cons c text ih =>
    have hrest (inComment : Bool) : (skipIgnored inComment text).length ≤ (c :: text).length :=
      Nat.le_succ_of_le (ih inComment)
    unfold skipIgnored
    split
    · exact hrest _
    · split
      · exact hrest _
      · split
        · exact hrest _
        · exact Nat.le_refl _

/-- What is ignored in front of a lexeme makes no text longer. -/
theorem advances_lexeme (h : p.Advances) : (lexeme p).Advances := fun text a rest hread =>
  Nat.lt_of_lt_of_le (h _ a rest hread) (length_skipIgnored false text)

theorem agreeTo_lexeme {q : Reader α} {n : Nat} (h : Reader.AgreeTo n p q) :
    Reader.AgreeTo n (lexeme p) (lexeme q) := fun text htext =>
  h _ (Nat.le_trans (length_skipIgnored false text) htext)

end Sdl

end SchemaScaffold
