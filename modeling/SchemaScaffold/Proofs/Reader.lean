import SchemaScaffold.Sdl.Lexeme

/-!
# What readers yield

Nothing can be said of the text a reader is given, since anybody may write
one. What can be said is of the values it takes off: a reader **yields** a
property (`Reader.Yields`) if each of them has it, whatever the text was.

Every way of putting readers together has a lemma that says what the whole
yields if its parts do. So for a reader of the grammar the argument has the
shape of the reader. The two that work on a budget are no exception: a
repetition and a reader that contains itself yield what one round of them
does, because a value that took fewer rounds is there already.
-/

namespace SchemaScaffold

namespace Reader

variable {α β : Type} {P : α → Prop} {Q : β → Prop}

/-- **Whatever the reader takes off a text has the property.** -/
def Yields (p : Reader α) (P : α → Prop) : Prop := ∀ text a rest, p text = some (a, rest) → P a

/-- What every value has need not be read off anything. -/
theorem yields_of_forall {p : Reader α} (h : ∀ a, P a) : p.Yields P := fun _ a _ _ => h a

/-! ## One after another -/

theorem yields_pure {a : α} (h : P a) : (pure a : Reader α).Yields P := by
  intro text b rest hread
  obtain ⟨rfl, rfl⟩ := Prod.mk.inj (Option.some.inj hread)
  exact h

/-- Two readers one after another take something off if the first does, and
the second does of the rest. -/
theorem bind_eq_some {p : Reader α} {f : α → Reader β} {text rest : List Char} {b : β} :
    (p >>= f) text = some (b, rest) ↔
      ∃ a middle, p text = some (a, middle) ∧ f a middle = some (b, rest) := by
  constructor
  · intro h
    obtain ⟨⟨a, middle⟩, ha, hb⟩ := Option.bind_eq_some_iff.mp h
    exact ⟨a, middle, ha, hb⟩
  · rintro ⟨a, middle, ha, hb⟩
    exact Option.bind_eq_some_iff.mpr ⟨(a, middle), ha, hb⟩

theorem map_eq_some {p : Reader α} {k : α → β} {text rest : List Char} {b : β} :
    (k <$> p) text = some (b, rest) ↔ ∃ a, p text = some (a, rest) ∧ k a = b := by
  constructor
  · intro h
    obtain ⟨⟨a, middle⟩, ha, hb⟩ := Option.bind_eq_some_iff.mp h
    obtain ⟨rfl, rfl⟩ := Prod.mk.inj (Option.some.inj hb)
    exact ⟨a, ha, rfl⟩
  · rintro ⟨a, ha, rfl⟩
    exact Option.bind_eq_some_iff.mpr ⟨(a, rest), ha, rfl⟩

/-- **What follows a reader may rely on what that one yields.** -/
theorem Yields.bind {p : Reader α} {f : α → Reader β} (hp : p.Yields P)
    (hf : ∀ a, P a → (f a).Yields Q) : (p >>= f).Yields Q := by
  intro text b rest h
  obtain ⟨a, middle, ha, hb⟩ := bind_eq_some.mp h
  exact hf a (hp text a middle ha) middle b rest hb

/-- What follows a reader of which nothing is known. -/
theorem yields_bind {p : Reader α} {f : α → Reader β} (hf : ∀ a, (f a).Yields Q) :
    (p >>= f).Yields Q :=
  (yields_of_forall (P := fun _ => True) fun _ => trivial).bind fun a _ => hf a

theorem Yields.map {p : Reader α} (f : α → β) (hp : p.Yields fun a => Q (f a)) :
    (f <$> p).Yields Q := by
  intro text b rest h
  obtain ⟨a, ha, rfl⟩ := map_eq_some.mp h
  exact hp text a rest ha

/-- What is taken off in front does not count. -/
theorem Yields.seqRight {p : Reader β} {q : Reader α} (hq : q.Yields P) : (p *> q).Yields P :=
  yields_bind fun _ => hq

/-- Nor does what is taken off behind. -/
theorem Yields.seqLeft {p : Reader α} {q : Reader β} (hp : p.Yields P) : (p <* q).Yields P :=
  hp.bind fun _ ha => yields_bind fun _ => yields_pure ha

/-! ## One or the other -/

theorem yields_failure : (failure : Reader α).Yields P := fun _ _ _ h => nomatch h

/-- **A choice yields what both sides do.** -/
theorem Yields.orElse {p q : Reader α} (hp : p.Yields P) (hq : q.Yields P) :
    (p <|> q).Yields P := by
  intro text a rest h
  obtain h | ⟨-, h⟩ := Option.or_eq_some_iff.mp (Option.orElse_eq_or.symm.trans h)
  · exact hp text a rest h
  · exact hq text a rest h

theorem Yields.withDefault {default : α} {p : Reader α} (hdefault : P default) (hp : p.Yields P) :
    (withDefault default p).Yields P :=
  hp.orElse (yields_pure hdefault)

/-! ## Again and again -/

/-- By induction on the budget: each round takes one item, and leaves the
others to the rounds behind it. -/
theorem Yields.takeItems {p : Reader α} (hp : p.Yields P) (budget text : List Char) :
    ∀ item ∈ (takeItems p budget text).fst, P item := by
  induction budget generalizing text with
  | nil => exact fun item hitem => nomatch hitem
  | cons c budget ih =>
    unfold Reader.takeItems
    cases hread : p text with
    | none => exact fun item hitem => nomatch hitem
    | some result =>
      intro item hitem
      obtain rfl | hitem := List.mem_cons.mp hitem
      · exact hp text _ _ hread
      · exact ih result.snd item hitem

/-- **Each item of a repetition has what one item has.** -/
theorem Yields.many {p : Reader α} (hp : p.Yields P) :
    (many p).Yields fun items => ∀ item ∈ items, P item := by
  intro text items rest h
  have hitems : (Reader.takeItems p text text).fst = items := congrArg Prod.fst (Option.some.inj h)
  exact hitems ▸ hp.takeItems text text

theorem Yields.many1 {p : Reader α} (hp : p.Yields P) :
    (many1 p).Yields fun items => ∀ item ∈ items, P item :=
  hp.bind fun _ hitem => hp.many.bind fun _ hitems =>
    yields_pure (List.forall_mem_cons.mpr ⟨hitem, hitems⟩)

/-- What stands between the items does not count. -/
theorem Yields.sepBy1 {p : Reader α} {separator : Reader Unit} (hp : p.Yields P) :
    (sepBy1 p separator).Yields fun items => ∀ item ∈ items, P item :=
  hp.bind fun _ hitem => hp.seqRight.many.bind fun _ hitems =>
    yields_pure (List.forall_mem_cons.mpr ⟨hitem, hitems⟩)

/-- **A reader that contains itself** yields what it does if the one inside
it does. -/
theorem Yields.recursive {body : Reader α → Reader α}
    (h : ∀ inner : Reader α, inner.Yields P → (body inner).Yields P) :
    (recursive body).Yields P := by
  have hnest (budget : List Char) : (nest body budget).Yields P := by
    induction budget with
    | nil => exact yields_failure
    | cons c budget ih => exact h _ ih
  exact fun text => hnest text text

end Reader

/-! ## Lexemes -/

namespace Sdl

variable {α : Type} {P : α → Prop}

/-- What is ignored in front of a lexeme does not count. -/
theorem yields_lexeme {p : Reader α} (hp : p.Yields P) : (lexeme p).Yields P :=
  fun text => hp (skipIgnored false text)

end Sdl

end SchemaScaffold
