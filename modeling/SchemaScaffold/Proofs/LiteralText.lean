import SchemaScaffold.Proofs.Numeral

/-!
# Where a literal stands in a text

The reader of literals is a choice of eight, on a budget. What it reads can be
said without either: a literal **stands** in a text if its first lexeme is
there, behind what is ignored, and its parts stand behind one another up to the
bracket that closes it (`Literal.Stands`). This is a recursion on the literal,
which the text has to follow.

The order of the choice does not matter, because no two of the eight apply to
one text. The first letter tells them apart, except for the three words that
stand for constants, and with those no enumeration value may start
(`Literal.level_eq_some`). Nor does the budget, because a list or an object is
gone into behind its bracket (`Literal.guarded_level`). And a repetition inside
brackets ends where it should, because no literal starts with a closing bracket
and no field does. So a literal is read just where it stands
(`Literal.read_eq_some`).
-/

namespace SchemaScaffold.Sdl

open Reader

/-! ## Parts of literals

Each of them takes something off, or may be left out. -/

theorem neverGrows_minus : Numeral.minus.NeverGrows :=
  ((advances_char '-').bind fun _ => neverGrows_pure _).neverGrows.orElse (neverGrows_pure _)

theorem advances_whole : Numeral.whole.Advances :=
  ((advances_char '0').bind fun _ => neverGrows_pure _).orElse (advances_takeWhile1 _)

theorem neverGrows_fraction : Numeral.fraction.NeverGrows :=
  ((advances_char '.').bind fun _ => (advances_takeWhile1 _).neverGrows).neverGrows

theorem neverGrows_exponent : Numeral.exponent.NeverGrows :=
  have hplus : (Reader.char '+' *> pure false : Reader Bool).Advances :=
    (advances_char '+').bind fun _ => neverGrows_pure _
  Advances.neverGrows <| (advances_satisfy _).bind fun _ =>
    (hplus.neverGrows.orElse neverGrows_minus).bind fun _ =>
      (advances_takeWhile1 _).neverGrows.bind fun _ => neverGrows_pure _

theorem advances_numeral : Numeral.bare.Advances :=
  neverGrows_minus.bind_advances fun _ => advances_whole.bind fun _ =>
    neverGrows_fraction.optional.bind fun _ => neverGrows_exponent.optional.bind fun _ =>
      (neverGrows_absent _).bind fun _ => neverGrows_pure _

theorem neverGrows_shortEscape : shortEscape.NeverGrows := by
  intro text c rest h
  unfold shortEscape at h
  split at h
  · obtain ⟨_, -, heq⟩ := Option.map_eq_some_iff.mp h
    obtain ⟨-, rfl⟩ := Prod.mk.inj heq
    simp only [List.length_cons]
    omega
  · cases h

theorem neverGrows_hexDigit : hexDigit.NeverGrows := by
  intro text d rest h
  cases text with
  | nil => cases h
  | cons c text =>
    obtain ⟨_, -, heq⟩ := Option.map_eq_some_iff.mp h
    obtain ⟨-, rfl⟩ := Prod.mk.inj heq
    exact Nat.le_succ _

theorem neverGrows_numberEscape : numberEscape.NeverGrows := by
  refine (advances_word (by decide)).neverGrows.bind fun _ => neverGrows_hexDigit.bind fun a =>
    neverGrows_hexDigit.bind fun b => neverGrows_hexDigit.bind fun c =>
      neverGrows_hexDigit.bind fun d => ?_
  dsimp only
  split
  · exact neverGrows_pure _
  · exact neverGrows_failure

theorem advances_lineText : lineText.Advances :=
  (advances_char '"').bind fun _ =>
    ((advances_satisfy isPlain).neverGrows.orElse
      (neverGrows_shortEscape.orElse neverGrows_numberEscape)).many.bind fun _ =>
        (advances_char '"').neverGrows.bind fun _ => neverGrows_pure _

theorem neverGrows_blockBody : NeverGrows (blockBody : Reader (List Char)) := by
  intro text body rest h
  fun_induction blockBody text generalizing body with
  | case1 => cases h
  | case2 closed =>
    obtain ⟨-, rfl⟩ := Prod.mk.inj (Option.some.inj h)
    simp only [List.length_cons]
    omega
  | case3 more ih =>
    obtain ⟨⟨inner, final⟩, hinner, heq⟩ := Option.map_eq_some_iff.mp h
    obtain ⟨-, rfl⟩ := Prod.mk.inj heq
    have hle := ih inner hinner
    simp only [List.length_cons]
    omega
  | case4 c more _ _ ih =>
    obtain ⟨⟨inner, final⟩, hinner, heq⟩ := Option.map_eq_some_iff.mp h
    obtain ⟨-, rfl⟩ := Prod.mk.inj heq
    exact Nat.le_succ_of_le (ih inner hinner)

theorem advances_blockText : blockText.Advances :=
  (advances_word (by decide)).bind fun _ => neverGrows_blockBody.bind fun _ => neverGrows_pure _

theorem advances_bareName : bareName.Advances :=
  (advances_satisfy _).bind fun _ => (neverGrows_takeWhile _).bind fun _ => neverGrows_pure _

/-- A mark takes itself off, behind what is ignored. -/
theorem advances_mark (c : Char) : (mark c).Advances := advances_lexeme (advances_char c)

theorem advances_name : name.Advances := advances_lexeme advances_bareName

namespace Literal

variable {literal : Literal} {inner p q : Reader Literal} {text rest : List Char} {n : Nat}

/-! ## One level -/

/-- **One level of a literal**, around the reader for the next, without ignored
text in front. -/
def level (inner : Reader Literal) : Reader Literal :=
  (number <$> Numeral.bare)
    <|> (string <$> (blockText <|> lineText))
    <|> (Reader.word "true" *> pure (boolean true))
    <|> (Reader.word "false" *> pure (boolean false))
    <|> (Reader.word "null" *> pure null)
    <|> (enumValue <$> (reservedStart.absent *> bareName))
    <|> (list <$> (Reader.char '[' *> Reader.many inner <* mark ']'))
    <|> (object <$> (Reader.char '\x7b' *> Reader.many (field inner) <* mark '\x7d'))

theorem neverGrows_field (h : inner.NeverGrows) : (field inner).NeverGrows :=
  advances_name.neverGrows.bind fun _ => (advances_mark ':').neverGrows.bind fun _ =>
    h.bind fun _ => neverGrows_pure _

theorem advances_field (h : inner.NeverGrows) : (field inner).Advances :=
  advances_name.bind fun _ => (advances_mark ':').neverGrows.bind fun _ =>
    h.bind fun _ => neverGrows_pure _

theorem agreeTo_field (hp : p.NeverGrows) (h : AgreeTo n p q) : AgreeTo n (field p) (field q) :=
  (AgreeTo.refl n name).bind advances_name.neverGrows fun _ =>
    (AgreeTo.refl n (mark ':')).bind (advances_mark ':').neverGrows fun _ =>
      h.bind hp fun _ => AgreeTo.refl n _

theorem advances_level (h : inner.NeverGrows) : (level inner).Advances := by
  have hword {w : String} {literal : Literal} (hw : 0 < w.toList.length) :
      (Reader.word w *> pure literal : Reader Literal).Advances :=
    (advances_word hw).bind fun _ => neverGrows_pure _
  have hbetween {α : Type} {c closing : Char} {p : Reader α} (hp : p.NeverGrows) :
      (Reader.char c *> p <* mark closing).Advances :=
    ((advances_char c).bind fun _ => hp).bind fun _ =>
      (advances_mark closing).neverGrows.bind fun _ => neverGrows_pure _
  have henum : (reservedStart.absent *> bareName : Reader String).Advances :=
    (neverGrows_absent _).bind_advances fun _ => advances_bareName
  exact (advances_numeral.map _).orElse <|
    ((advances_blockText.orElse advances_lineText).map _).orElse <|
    (hword (by decide)).orElse <| (hword (by decide)).orElse <| (hword (by decide)).orElse <|
    (henum.map _).orElse <| ((hbetween h.many).map _).orElse
      ((hbetween (neverGrows_field h).many).map _)

/-- **A literal goes down a level behind a bracket**, so the level inside has
less of the text. -/
theorem agreeTo_level (hp : p.NeverGrows) (h : AgreeTo n p q) :
    AgreeTo (n + 1) (level p) (level q) := by
  have hbetween {α : Type} {c closing : Char} {p q : Reader α} (hp : p.NeverGrows)
      (h : AgreeTo n p q) :
      AgreeTo (n + 1) (Reader.char c *> p <* mark closing) (Reader.char c *> q <* mark closing) :=
    (AgreeTo.bind_advances (advances_char c) fun _ => h).bind
      ((advances_char c).bind fun _ => hp).neverGrows fun _ => AgreeTo.refl _ _
  exact (AgreeTo.refl _ _).orElse <| (AgreeTo.refl _ _).orElse <| (AgreeTo.refl _ _).orElse <|
    (AgreeTo.refl _ _).orElse <| (AgreeTo.refl _ _).orElse <| (AgreeTo.refl _ _).orElse <|
    ((hbetween hp.many (h.many hp)).map list).orElse
      ((hbetween (neverGrows_field hp).many
        ((agreeTo_field hp h).many (neverGrows_field hp))).map object)

theorem guarded_level : Guarded fun inner => lexeme (level inner) where
  advances _ hp := advances_lexeme (advances_level hp.neverGrows)
  agree _ _ _ hp h := agreeTo_lexeme (agreeTo_level hp.neverGrows h)

theorem read_eq : read = lexeme (level read) := recursive_eq guarded_level

theorem advances_read : read.Advances := guarded_level.advances_recursive

/-- **What one level takes off a text**, by the kind of literal. The words for
constants are not the only texts that start with their letters, but enumeration
values may not do so. -/
inductive Level (inner : Reader Literal) (text rest : List Char) : Literal → Prop where
  /-- A number. -/
  | number {numeral : Numeral} (h : Numeral.bare text = some (numeral, rest)) :
      Level inner text rest (.number numeral)
  /-- A quoted text. -/
  | string {value : String}
      (h : (blockText <|> lineText : Reader String) text = some (value, rest)) :
      Level inner text rest (.string value)
  /-- One of the two truth values. -/
  | boolean {value : Bool} (h : text = (if value then "true" else "false").toList ++ rest) :
      Level inner text rest (.boolean value)
  /-- The word `null`. -/
  | null (h : text = "null".toList ++ rest) : Level inner text rest .null
  /-- A value of an enumeration. -/
  | enumValue {name : String}
      (h : (reservedStart.absent *> bareName : Reader String) text = some (name, rest)) :
      Level inner text rest (.enumValue name)
  /-- A list. -/
  | list {items : List Literal} {opened closing : List Char} (hopening : text = '[' :: opened)
      (hitems : Reader.many inner opened = some (items, closing))
      (hclosing : skipIgnored false closing = ']' :: rest) : Level inner text rest (.list items)
  /-- An object. -/
  | object {fields : List (String × Literal)} {opened closing : List Char}
      (hopening : text = '\x7b' :: opened)
      (hfields : Reader.many (field inner) opened = some (fields, closing))
      (hclosing : skipIgnored false closing = '\x7d' :: rest) :
      Level inner text rest (.object fields)

theorem between_eq_some {α : Type} {c closing : Char} {p : Reader α} {a : α} :
    (Reader.char c *> p <* mark closing) text = some (a, rest) ↔
      ∃ opened closed, text = c :: opened ∧ p opened = some (a, closed) ∧
        skipIgnored false closed = closing :: rest := by
  constructor
  · intro h
    obtain ⟨a', closed, hread, h⟩ := bind_eq_some.mp h
    obtain ⟨_, final, hclosing, h⟩ := bind_eq_some.mp h
    obtain ⟨rfl, rfl⟩ := Prod.mk.inj (Option.some.inj h)
    obtain ⟨_, opened, hopening, hread⟩ := bind_eq_some.mp hread
    exact ⟨opened, closed, char_eq_some.mp hopening, hread, char_eq_some.mp hclosing⟩
  · rintro ⟨opened, closed, rfl, hread, hclosing⟩
    have hopening : (Reader.char c *> p : Reader α) (c :: opened) = some (a, closed) :=
      (bind_of_eq_some (char_eq_some.mpr rfl)).trans hread
    have hmark : mark closing closed = some ((), rest) := char_eq_some.mpr hclosing
    exact (bind_of_eq_some hopening).trans ((bind_of_eq_some hmark).trans rfl)

/-- A numeral starts with a minus sign or a digit. -/
theorem numeral_eq_none {c : Char} (hminus : c ≠ '-') (hdigit : c.isDigit = false) :
    Numeral.bare (c :: text) = none := by
  have hsign : Numeral.minus (c :: text) = some (false, c :: text) :=
    Numeral.minus_eq_some.mpr ⟨rfl, fun _ hhead => hminus (Option.some.inj hhead)⟩
  have hzero : (c :: text).head? ≠ some '0' := by
    intro hhead
    rw [Option.some.inj hhead] at hdigit
    cases hdigit
  have hrun : satisfy Char.isDigit (c :: text) = none :=
    if_neg (by rw [hdigit]; exact Bool.false_ne_true)
  have hwhole : Numeral.whole (c :: text) = none :=
    (orElse_of_eq_none (bind_of_eq_none (char_eq_none.mpr hzero))).trans (bind_of_eq_none hrun)
  exact (bind_of_eq_some hsign).trans (bind_of_eq_none hwhole)

/-- A quoted text starts with a mark. -/
theorem exists_eq_quote_cons {value : String}
    (h : (blockText <|> lineText : Reader String) text = some (value, rest)) :
    ∃ others, text = '"' :: others := by
  obtain h | ⟨-, h⟩ := orElse_eq_some.mp h
  · obtain ⟨_, _, hmark, -⟩ := bind_eq_some.mp h
    exact ⟨_, word_eq_some.mp hmark⟩
  · obtain ⟨_, _, hmark, -⟩ := bind_eq_some.mp h
    exact ⟨_, char_eq_some.mp hmark⟩

/-- The first letter of a name starts no constant of another kind, a word for
one apart. -/
theorem exists_eq_letter_cons {name : String} (h : bareName text = some (name, rest)) :
    ∃ c others, text = c :: others ∧ c.isDigit = false ∧ c ≠ '-' ∧ c ≠ '"' := by
  have hall : ∀ n < 128, isNameStart (Char.ofNat n) = true →
      (Char.ofNat n).isDigit = false ∧ Char.ofNat n ≠ '-' ∧ Char.ofNat n ≠ '"' := by
    decide
  obtain ⟨c, _, hfirst, -⟩ := bind_eq_some.mp h
  cases text with
  | nil => cases hfirst
  | cons d others =>
    obtain ⟨hd, -⟩ := Option.ite_none_right_eq_some.mp hfirst
    obtain ⟨n, hn, rfl⟩ := exists_eq_ofNat (toNat_lt_of_isNameChar (isNameChar_of_isNameStart hd))
    exact ⟨_, others, rfl, hall n hn hd⟩

theorem level_eq_some :
    level inner text = some (literal, rest) ↔ Level inner text rest literal := by
  constructor
  · intro h
    obtain h | ⟨-, h⟩ := orElse_eq_some.mp h
    · obtain ⟨numeral, hread, rfl⟩ := map_eq_some.mp h
      exact .number hread
    obtain h | ⟨-, h⟩ := orElse_eq_some.mp h
    · obtain ⟨value, hread, rfl⟩ := map_eq_some.mp h
      exact .string hread
    obtain h | ⟨-, h⟩ := orElse_eq_some.mp h
    · obtain ⟨_, final, hword, h⟩ := bind_eq_some.mp h
      obtain ⟨rfl, rfl⟩ := Prod.mk.inj (Option.some.inj h)
      exact .boolean (word_eq_some.mp hword)
    obtain h | ⟨-, h⟩ := orElse_eq_some.mp h
    · obtain ⟨_, final, hword, h⟩ := bind_eq_some.mp h
      obtain ⟨rfl, rfl⟩ := Prod.mk.inj (Option.some.inj h)
      exact .boolean (word_eq_some.mp hword)
    obtain h | ⟨-, h⟩ := orElse_eq_some.mp h
    · obtain ⟨_, final, hword, h⟩ := bind_eq_some.mp h
      obtain ⟨rfl, rfl⟩ := Prod.mk.inj (Option.some.inj h)
      exact .null (word_eq_some.mp hword)
    obtain h | ⟨-, h⟩ := orElse_eq_some.mp h
    · obtain ⟨name, hread, rfl⟩ := map_eq_some.mp h
      exact .enumValue hread
    obtain h | ⟨-, h⟩ := orElse_eq_some.mp h
    · obtain ⟨items, hread, rfl⟩ := map_eq_some.mp h
      obtain ⟨opened, closing, hopening, hitems, hclosing⟩ := between_eq_some.mp hread
      exact .list hopening hitems hclosing
    · obtain ⟨fields, hread, rfl⟩ := map_eq_some.mp h
      obtain ⟨opened, closing, hopening, hfields, hclosing⟩ := between_eq_some.mp hread
      exact .object hopening hfields hclosing
  · intro h
    cases h with
    | number h => exact orElse_of_eq_some (map_eq_some.mpr ⟨_, h, rfl⟩)
    | string h =>
      obtain ⟨others, rfl⟩ := exists_eq_quote_cons h
      have hnumber : (number <$> Numeral.bare) ('"' :: others) = none := rfl
      exact (orElse_of_eq_none hnumber).trans (orElse_of_eq_some (map_eq_some.mpr ⟨_, h, rfl⟩))
    | @boolean value h =>
      subst h
      cases value with
      | true => rfl
      | false => rfl
    | null h =>
      subst h
      rfl
    | enumValue h =>
      obtain ⟨_, middle, habsent, hread⟩ := bind_eq_some.mp h
      obtain ⟨hreserved, rfl⟩ := absent_eq_some.mp habsent
      obtain ⟨htrue, hothers⟩ := orElse_eq_none.mp hreserved
      obtain ⟨hfalse, hnull⟩ := orElse_eq_none.mp hothers
      obtain ⟨c, others, rfl, hdigit, hminus, hquote⟩ := exists_eq_letter_cons hread
      have hquoted : (blockText <|> lineText : Reader String) (c :: others) = none := by
        refine Option.eq_none_iff_forall_ne_some.mpr fun result hresult => hquote ?_
        obtain ⟨_, heq⟩ := exists_eq_quote_cons hresult
        exact (List.cons.inj heq).1
      have hword {w : String} {literal : Literal} (hw : Reader.word w (c :: others) = none) :
          (Reader.word w *> pure literal : Reader Literal) (c :: others) = none :=
        bind_of_eq_none hw
      calc level inner (c :: others)
          = _ := orElse_of_eq_none (map_of_eq_none (numeral_eq_none hminus hdigit))
        _ = _ := orElse_of_eq_none (map_of_eq_none hquoted)
        _ = _ := orElse_of_eq_none (hword htrue)
        _ = _ := orElse_of_eq_none (hword hfalse)
        _ = _ := orElse_of_eq_none (hword hnull)
        _ = _ := orElse_of_eq_some (map_eq_some.mpr ⟨_, h, rfl⟩)
    | @list items opened closing hopening hitems hclosing =>
      subst hopening
      have hread : (list <$> (Reader.char '[' *> Reader.many inner <* mark ']')) ('[' :: opened)
          = some (.list items, rest) :=
        map_eq_some.mpr ⟨items, between_eq_some.mpr ⟨opened, closing, rfl, hitems, hclosing⟩, rfl⟩
      show ((list <$> (Reader.char '[' *> Reader.many inner <* mark ']')) <|> _) ('[' :: opened) = _
      exact orElse_of_eq_some hread
    | @object fields opened closing hopening hfields hclosing =>
      subst hopening
      exact map_eq_some.mpr
        ⟨fields, between_eq_some.mpr ⟨opened, closing, rfl, hfields, hclosing⟩, rfl⟩

/-! ## Literals in a text -/

mutual

/-- **A literal stands at the front of a text**, in front of the rest. -/
def Stands : Literal → List Char → List Char → Prop
  | number (.integer negative m), text, rest =>
    skipIgnored false text = Numeral.integerText negative m ++ rest ∧ Numeral.EndsInteger m rest
  | number numeral, text, rest => Numeral.read text = some (numeral, rest)
  | string value, text, rest => quoted text = some (value, rest)
  | boolean value, text, rest =>
    skipIgnored false text = (if value then "true" else "false").toList ++ rest
  | null, text, rest => skipIgnored false text = "null".toList ++ rest
  | enumValue name, text, rest => enumName text = some (name, rest)
  | list items, text, rest =>
    ∃ opened closing, skipIgnored false text = '[' :: opened ∧ ItemsStand items opened closing ∧
      skipIgnored false closing = ']' :: rest
  | object fields, text, rest =>
    ∃ opened closing, skipIgnored false text = '\x7b' :: opened ∧
      FieldsStand fields opened closing ∧ skipIgnored false closing = '\x7d' :: rest

/-- Literals stand in a text one after another. -/
def ItemsStand : List Literal → List Char → List Char → Prop
  | [], text, rest => text = rest
  | item :: items, text, rest => ∃ middle, item.Stands text middle ∧ ItemsStand items middle rest

/-- Fields stand in a text one after another, each with its name and a colon in
front. -/
def FieldsStand : List (String × Literal) → List Char → List Char → Prop
  | [], text, rest => text = rest
  | (fieldName, value) :: fields, text, rest =>
    ∃ named opened middle, name text = some (fieldName, named) ∧
      skipIgnored false named = ':' :: opened ∧ value.Stands opened middle ∧
      FieldsStand fields middle rest

end

theorem read_eq_some_iff_level :
    read text = some (literal, rest) ↔ Level read (skipIgnored false text) rest literal := by
  rw [show read text = level read (skipIgnored false text) from congrFun read_eq text,
    level_eq_some]

/-- No literal starts with a bracket that closes a list. -/
theorem read_closing (h : skipIgnored false text = ']' :: rest) : read text = none := by
  rw [read_eq]
  show level read (skipIgnored false text) = none
  rw [h]
  rfl

/-- No field starts with one that closes an object. -/
theorem field_closing (h : skipIgnored false text = '\x7d' :: rest) : field inner text = none := by
  refine bind_of_eq_none ?_
  show bareName (skipIgnored false text) = none
  rw [h]
  rfl

theorem field_eq_some {fieldName : String} :
    field inner text = some ((fieldName, literal), rest) ↔
      ∃ named opened, name text = some (fieldName, named) ∧
        skipIgnored false named = ':' :: opened ∧ inner opened = some (literal, rest) := by
  constructor
  · intro h
    obtain ⟨_, named, hname, h⟩ := bind_eq_some.mp h
    obtain ⟨_, opened, hmark, h⟩ := bind_eq_some.mp h
    obtain ⟨_, final, hvalue, h⟩ := bind_eq_some.mp h
    obtain ⟨heq, rfl⟩ := Prod.mk.inj (Option.some.inj h)
    obtain ⟨rfl, rfl⟩ := Prod.mk.inj heq
    exact ⟨named, opened, hname, char_eq_some.mp hmark, hvalue⟩
  · rintro ⟨named, opened, hname, hmark, hvalue⟩
    have hmark : mark ':' named = some ((), opened) := char_eq_some.mpr hmark
    rw [field, bind_of_eq_some hname, bind_of_eq_some hmark, bind_of_eq_some hvalue]
    rfl

mutual

/-- **A literal is read just where it stands.** By induction on the literal, of
which one level is taken off at a time. -/
theorem read_eq_some (literal : Literal) (text rest : List Char) :
    read text = some (literal, rest) ↔ literal.Stands text rest := by
  rw [read_eq_some_iff_level]
  cases literal with
  | number numeral =>
    have hlevel : Level read (skipIgnored false text) rest (.number numeral) ↔
        Numeral.read text = some (numeral, rest) := ⟨fun | .number h => h, .number⟩
    cases numeral with
    | integer negative m => exact hlevel.trans Numeral.bare_eq_integer
    | decimal negative significand exponent => exact hlevel
  | string value => exact ⟨fun | .string h => h, .string⟩
  | boolean value => exact ⟨fun | .boolean h => h, .boolean⟩
  | null => exact ⟨fun | .null h => h, .null⟩
  | enumValue name => exact ⟨fun | .enumValue h => h, .enumValue⟩
  | list items =>
    constructor
    · rintro (_ | _ | _ | _ | _ | ⟨hopening, hitems, hclosing⟩)
      have hturn := ((many_eq_some advances_read).mp hitems).1
      exact ⟨_, _, hopening, (inTurn_read items _ _).mp hturn, hclosing⟩
    · rintro ⟨opened, closing, hopening, hitems, hclosing⟩
      have hturn := (inTurn_read items opened closing).mpr hitems
      have hread := (many_eq_some advances_read).mpr ⟨hturn, read_closing hclosing⟩
      exact .list hopening hread hclosing
  | object fields =>
    have hadvances := advances_field advances_read.neverGrows
    constructor
    · rintro (_ | _ | _ | _ | _ | _ | ⟨hopening, hfields, hclosing⟩)
      have hturn := ((many_eq_some hadvances).mp hfields).1
      exact ⟨_, _, hopening, (inTurn_field fields _ _).mp hturn, hclosing⟩
    · rintro ⟨opened, closing, hopening, hfields, hclosing⟩
      have hturn := (inTurn_field fields opened closing).mpr hfields
      have hread := (many_eq_some hadvances).mpr ⟨hturn, field_closing hclosing⟩
      exact .object hopening hread hclosing

/-- Items are read one after another just where they stand. -/
theorem inTurn_read (items : List Literal) (text rest : List Char) :
    InTurn read items text rest ↔ ItemsStand items text rest := by
  cases items with
  | nil => exact Iff.rfl
  | cons item items =>
    exact exists_congr fun middle =>
      and_congr (read_eq_some item text middle) (inTurn_read items middle rest)

/-- Fields are read one after another just where they stand. -/
theorem inTurn_field (fields : List (String × Literal)) (text rest : List Char) :
    InTurn (field read) fields text rest ↔ FieldsStand fields text rest := by
  match fields with
  | [] => exact Iff.rfl
  | (fieldName, value) :: fields =>
    constructor
    · rintro ⟨middle, hread, hturn⟩
      obtain ⟨named, opened, hname, hcolon, hvalue⟩ := field_eq_some.mp hread
      exact ⟨named, opened, middle, hname, hcolon, (read_eq_some value opened middle).mp hvalue,
        (inTurn_field fields middle rest).mp hturn⟩
    · rintro ⟨named, opened, middle, hname, hcolon, hvalue, hturn⟩
      have hvalue := (read_eq_some value opened middle).mpr hvalue
      exact ⟨middle, field_eq_some.mpr ⟨named, opened, hname, hcolon, hvalue⟩,
        (inTurn_field fields middle rest).mpr hturn⟩

end

end Literal

end SchemaScaffold.Sdl
