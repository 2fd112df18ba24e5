import SchemaScaffold.Proofs.Nullability
import SchemaScaffold.Proofs.References

/-!
# The text of a reference is read as that reference

A reference is written from the inside to the outside: a mark goes behind what
it excludes null from, and brackets go around what is listed. It is read from
the outside to the inside, on a budget, and a mark belongs to the innermost
name or list that has just ended. So two things have to be seen of a text
before it is read back, and neither is about the reference itself.

The text ends where the reference does only if what follows cannot be taken as
more of it (`Sdl.EndsType`). A letter would make the name at its core a longer
one, and a mark would exclude null once more. Inside a reference what follows
is a bracket, which does neither, so the induction goes through with the rest
of the text general (`Sdl.nest_text`). And the budget is the text itself, which
has a letter for every list and one more for the name
(`TypeRef.lists_lt_length_text`).

What a doubled exclusion is written as is the text of no other reference, but
it is not read at all, and this is the only thing that has to be excluded
(`Document.parse_fieldText_iff`).
-/

namespace SchemaScaffold

/-! ## Readers on a text that is known

What a reader takes off, told from what its parts take off. -/

namespace Reader

variable {α β : Type} {p q : Reader α} {f : α → Reader β} {text rest : List Char} {a : α}

/-- Where the first of two readers takes something off, the second goes on
behind it. -/
theorem bind_of_eq_some (h : p text = some (a, rest)) : (p >>= f) text = f a rest := by
  show (p text).bind _ = _
  rw [h]
  rfl

theorem bind_of_eq_none (h : p text = none) : (p >>= f) text = none := by
  show (p text).bind _ = _
  rw [h]
  rfl

theorem orElse_of_eq_some (h : p text = some (a, rest)) : (p <|> q) text = some (a, rest) := by
  show (p text <|> q text) = _
  rw [h]
  rfl

/-- The second of two choices counts only where the first does not apply. -/
theorem orElse_of_eq_none (h : p text = none) : (p <|> q) text = q text := by
  show (p text <|> q text) = _
  rw [h]
  rfl

theorem many_of_eq_none (h : p text = none) : many p text = some ([], text) := by
  cases text with
  | nil => rfl
  | cons c text => rw [many, takeItems, h]

/-- A repetition that has one round. -/
theorem many1_of_eq_some (h : p text = some (a, rest)) (hend : p rest = none) :
    many1 p text = some ([a], rest) := by
  rw [many1, bind_of_eq_some h, bind_of_eq_some (many_of_eq_none hend)]
  rfl

end Reader

/-! ## The text of a reference -/

namespace TypeRef

variable {t : TypeRef}

/-- The text of a reference starts with a bracket, or as its leaf does. -/
theorem exists_toList_text (hleaf : IsIdentifier t.leaf) :
    ∃ c others, t.text.toList = c :: others ∧ (Sdl.isNameStart c = true ∨ c = '[') := by
  induction t with
  | named name =>
    obtain ⟨first, others, htext, hstart, -⟩ := hleaf.exists_toList_eq_cons
    exact ⟨first, others, htext, .inl hstart⟩
  | nonNull inner ih =>
    obtain ⟨c, others, htext, hc⟩ := ih hleaf
    refine ⟨c, others ++ ['!'], ?_, hc⟩
    rw [text, String.toList_append, htext]
    rfl
  | list inner ih =>
    refine ⟨'[', inner.text.toList ++ [']'], ?_, .inr rfl⟩
    rw [text, String.toList_append, String.toList_append]
    rfl

/-- **There is a letter for every list**, and one more for the name. -/
theorem lists_lt_length_text (hleaf : IsIdentifier t.leaf) : t.lists < t.text.toList.length := by
  induction t with
  | named name =>
    obtain ⟨first, others, htext, -⟩ := hleaf.exists_toList_eq_cons
    exact List.length_pos_of_ne_nil (htext ▸ List.cons_ne_nil first others)
  | nonNull inner ih =>
    have hinner := ih hleaf
    rw [text, lists, String.toList_append, List.length_append]
    omega
  | list inner ih =>
    have hinner := ih hleaf
    have hlength : "[".toList.length = 1 := rfl
    rw [text, lists, String.toList_append, String.toList_append, List.length_append,
      List.length_append]
    omega

end TypeRef

namespace Sdl

open Reader

variable {name : String} {text rest budget : List Char} {inner : Reader WrittenType}
  {t : TypeRef} {type : WrittenType} {nullable : Bool} {c : Char}

/-- **Whether a reference ends in front of a text**: what follows is neither
more of a name nor an exclusion. -/
def EndsType (rest : List Char) : Prop := ∀ c ∈ rest.head?, isNameChar c = false ∧ c ≠ '!'

theorem EndsType.cons (hname : isNameChar c = false) (hmark : c ≠ '!') : EndsType (c :: rest) := by
  intro d hd
  obtain rfl := Option.mem_some.mp hd
  exact ⟨hname, hmark⟩

/-- Nothing is ignored in front of what a reference starts with. -/
theorem skipIgnored_cons (hc : isNameStart c = true ∨ c = '[') :
    skipIgnored false (c :: rest) = c :: rest := by
  have hall : ∀ n < 128, isNameStart (Char.ofNat n) = true →
      isIgnored (Char.ofNat n) = false ∧ Char.ofNat n ≠ '#' := by
    decide
  obtain hstart | rfl := hc
  · obtain ⟨n, hn, rfl⟩ :=
      exists_eq_ofNat (toNat_lt_of_isNameChar (isNameChar_of_isNameStart hstart))
    obtain ⟨hignored, hcomment⟩ := hall n hn hstart
    rw [skipIgnored, if_neg Bool.false_ne_true, if_neg hcomment, hignored]
    rfl
  · rfl

/-- **A name is read as far as it goes**, and no further if what follows is
not more of it. -/
theorem bareName_append (hname : IsIdentifier name)
    (hrest : ∀ c ∈ rest.head?, isNameChar c = false) :
    bareName (name.toList ++ rest) = some (name, rest) := by
  obtain ⟨first, others, htext, hstart, hall⟩ := hname.exists_toList_eq_cons
  have hnone : rest.takeWhile isNameChar = [] ∧ rest.dropWhile isNameChar = rest := by
    cases rest with
    | nil => exact ⟨rfl, rfl⟩
    | cons c rest => simp [hrest c rfl]
  have hothers : Reader.takeWhile isNameChar (others ++ rest) = some (others, rest) := by
    rw [Reader.takeWhile, List.takeWhile_append_of_pos hall, List.dropWhile_append_of_pos hall,
      hnone.1, hnone.2, List.append_nil]
  have hfirst : satisfy isNameStart (first :: (others ++ rest)) = some (first, others ++ rest) :=
    if_pos hstart
  rw [htext, List.cons_append, bareName, bind_of_eq_some hfirst, bind_of_eq_some hothers,
    ← htext, String.ofList_toList]
  rfl

theorem nullability_mark (rest : List Char) : nullability ('!' :: rest) = some (false, rest) := rfl

theorem nullability_of_ends (hrest : EndsType rest) : nullability rest = some (true, rest) := by
  have hmark : Reader.char '!' rest = none := by
    cases rest with
    | nil => rfl
    | cons c rest => exact if_neg (hrest c rfl).2
  exact orElse_of_eq_none (bind_of_eq_none hmark)

/-! ## One level of a type -/

/-- **One level of a type**, around the reader for the next. -/
def typeLevel (inner : Reader WrittenType) : Reader WrittenType :=
  (bareName >>= fun n => WrittenType.named n <$> nullability)
    <|> (Reader.char '[' *> inner <* Reader.char ']'
      >>= fun t => WrittenType.list t <$> nullability)

theorem bareType_eq : bareType = recursive typeLevel := rfl

theorem typeLevel_name (hname : IsIdentifier name) (hrest : ∀ c ∈ rest.head?, isNameChar c = false)
    (h : nullability rest = some (nullable, text)) :
    typeLevel inner (name.toList ++ rest) = some (.named name nullable, text) := by
  refine orElse_of_eq_some ?_
  rw [bind_of_eq_some (bareName_append hname hrest)]
  exact map_eq_some.mpr ⟨nullable, h, rfl⟩

theorem typeLevel_list {behind : List Char} (hinner : inner text = some (type, ']' :: rest))
    (h : nullability rest = some (nullable, behind)) :
    typeLevel inner ('[' :: text) = some (.list type nullable, behind) := by
  have hbrackets :
      (Reader.char '[' *> inner <* Reader.char ']') ('[' :: text) = some (type, rest) := by
    show (inner text).bind _ = _
    rw [hinner]
    rfl
  have hname : (bareName >>= fun n => WrittenType.named n <$> nullability) ('[' :: text) = none :=
    rfl
  rw [typeLevel, orElse_of_eq_none hname, bind_of_eq_some hbrackets]
  exact map_eq_some.mpr ⟨nullable, h, rfl⟩

/-- **The text of a sound reference is read as a type for that reference**, on
any budget that has a letter for every list and one more. By induction on the
four kinds of sound references; what follows is general, since inside brackets
it is the closing one. -/
theorem nest_text (hleaf : IsIdentifier t.leaf) (h : t.isSound = true)
    (hbudget : t.lists < budget.length) (hrest : EndsType rest) :
    ∃ type, nest typeLevel budget (t.text.toList ++ rest) = some (type, rest) ∧
      type.reference = t := by
  induction t, h using TypeRef.sound_induction generalizing budget rest with
  | named name =>
    obtain ⟨c, budget, rfl⟩ := List.exists_cons_of_length_pos (Nat.zero_lt_of_lt hbudget)
    exact ⟨_, typeLevel_name hleaf (fun c hc => (hrest c hc).1) (nullability_of_ends hrest), rfl⟩
  | nonNullNamed name =>
    obtain ⟨c, budget, rfl⟩ := List.exists_cons_of_length_pos (Nat.zero_lt_of_lt hbudget)
    have hmark : ∀ c ∈ ('!' :: rest).head?, isNameChar c = false := fun c hc => by
      obtain rfl := Option.mem_some.mp hc
      decide
    rw [TypeRef.text, TypeRef.text, String.toList_append, List.append_assoc]
    exact ⟨_, typeLevel_name hleaf hmark (nullability_mark rest), rfl⟩
  | list inner hinner ih =>
    obtain ⟨c, budget, rfl⟩ := List.exists_cons_of_length_pos (Nat.zero_lt_of_lt hbudget)
    have hclosing : EndsType (']' :: rest) := .cons rfl (by decide)
    obtain ⟨type, hread, rfl⟩ := ih hleaf (Nat.lt_of_succ_lt_succ hbudget) hclosing
    rw [TypeRef.text, String.toList_append, String.toList_append, List.append_assoc,
      List.append_assoc]
    exact ⟨_, typeLevel_list hread (nullability_of_ends hrest), rfl⟩
  | nonNullList inner hinner ih =>
    obtain ⟨c, budget, rfl⟩ := List.exists_cons_of_length_pos (Nat.zero_lt_of_lt hbudget)
    have hclosing : EndsType (']' :: '!' :: rest) := .cons rfl (by decide)
    obtain ⟨type, hread, rfl⟩ := ih hleaf (Nat.lt_of_succ_lt_succ hbudget) hclosing
    rw [TypeRef.text, TypeRef.text, String.toList_append, String.toList_append,
      String.toList_append, List.append_assoc, List.append_assoc, List.append_assoc]
    exact ⟨_, typeLevel_list hread (nullability_mark rest), rfl⟩

/-- **A reference behind a blank.** -/
theorem typeRef_text (hleaf : IsIdentifier t.leaf) (h : t.isSound = true) (hrest : EndsType rest) :
    typeRef (' ' :: (t.text.toList ++ rest)) = some (t, rest) := by
  obtain ⟨c, others, htext, hc⟩ := TypeRef.exists_toList_text hleaf
  have hskip : skipIgnored false (' ' :: (t.text.toList ++ rest)) = t.text.toList ++ rest := by
    rw [htext]
    exact skipIgnored_cons hc
  have hbudget : t.lists < (t.text.toList ++ rest).length := by
    rw [List.length_append]
    exact Nat.lt_add_right _ (TypeRef.lists_lt_length_text hleaf)
  obtain ⟨type, hread, hreference⟩ := nest_text hleaf h hbudget hrest
  refine map_eq_some.mpr ⟨type, ?_, hreference⟩
  rw [lexeme, hskip, bareType_eq]
  exact hread

end Sdl

/-! ## A schema around the reference -/

namespace TypeRef

variable {t : TypeRef}

/-- A schema of one object with one field, which has the type. -/
def fieldText (t : TypeRef) : String := "type A \x7b f: " ++ t.text ++ " \x7d"

/-- What is left of the schema where the type starts. -/
def closedText (t : TypeRef) : List Char := t.text.toList ++ " \x7d".toList

/-- The object that the schema declares. -/
def fieldObject (t : TypeRef) : ObjectType := { name := "A", fields := [{ name := "f", type := t }] }

/-- The field as it is written. -/
def fieldClause (t : TypeRef) : Sdl.FieldClause :=
  { name := "f", arguments := [], type := t, applied := [] }

/-- The declaration as it is written. -/
def objectClause (t : TypeRef) : Sdl.Clause :=
  { extends? := false, statement := .object "A" [] [] [t.fieldClause] }

end TypeRef

namespace Sdl

open Reader

variable {t : TypeRef}

theorem fieldClause_closedText (hleaf : IsIdentifier t.leaf) (h : t.isSound = true) :
    fieldClause (" f: ".toList ++ t.closedText) = some (t.fieldClause, " \x7d".toList) := by
  have hclosing : EndsType " \x7d".toList := .cons rfl (by decide)
  show (typeRef >>= fun type => anyDirectives >>= fun applied =>
    pure ({ name := "f", arguments := [], type, applied } : FieldClause)) (' ' :: t.closedText) = _
  rw [TypeRef.closedText, bind_of_eq_some (typeRef_text hleaf h hclosing)]
  rfl

theorem fields_closedText (hleaf : IsIdentifier t.leaf) (h : t.isSound = true) :
    fields (" \x7b f: ".toList ++ t.closedText) = some ([t.fieldClause], []) := by
  have hfields := many1_of_eq_some (fieldClause_closedText hleaf h) rfl
  show (many1 fieldClause (" f: ".toList ++ t.closedText)).bind _ = _
  rw [hfields]
  rfl

theorem clause_closedText (hleaf : IsIdentifier t.leaf) (h : t.isSound = true) :
    clause ("type A \x7b f: ".toList ++ t.closedText) = some (t.objectClause, []) := by
  have hfields : orNone fields (" \x7b f: ".toList ++ t.closedText) = some ([t.fieldClause], []) :=
    orElse_of_eq_some (fields_closedText hleaf h)
  -- a word that starts neither a schema block nor a scalar type
  have hschema : schemaClause ("type A \x7b f: ".toList ++ t.closedText) = none := rfl
  have hscalar : scalarClause ("type A \x7b f: ".toList ++ t.closedText) = none := rfl
  rw [clause, orElse_of_eq_none hschema, orElse_of_eq_none hscalar]
  refine orElse_of_eq_some (orElse_of_eq_some ?_)
  show ((orNone fields >>= fun fields => pure (Statement.object "A" [] [] fields)) >>=
    fun statement => pure ({ extends? := false, statement } : Clause))
      (" \x7b f: ".toList ++ t.closedText) = _
  rw [bind_of_eq_some ((bind_of_eq_some hfields).trans rfl)]
  rfl

theorem clauses_fieldText (hleaf : IsIdentifier t.leaf) (h : t.isSound = true) :
    clauses t.fieldText.toList = some ([t.objectClause], []) := by
  have htext : t.fieldText.toList = "type A \x7b f: ".toList ++ t.closedText := by
    rw [TypeRef.fieldText, TypeRef.closedText, String.toList_append, String.toList_append,
      List.append_assoc]
  have hread := many1_of_eq_some (clause_closedText hleaf h) rfl
  rw [htext, clauses]
  exact (bind_of_eq_some hread).trans rfl

end Sdl

namespace Document

variable {t : TypeRef}

theorem parse_of_isSound (hleaf : IsIdentifier t.leaf) (h : t.isSound = true) :
    Document.parse t.fieldText = .ok (.ofList [.object t.fieldObject]) := by
  rw [Document.parse, Sdl.entries, Sdl.clauses_fieldText hleaf h]
  rfl

/-- Two references with one text are declared by one schema, and are both the
type of its field. -/
theorem eq_of_text_eq {s : TypeRef} (hs : IsIdentifier s.leaf ∧ s.isSound = true)
    (ht : IsIdentifier t.leaf ∧ t.isSound = true) (h : s.text = t.text) : s = t := by
  have hparse : Document.parse t.fieldText = .ok (.ofList [.object s.fieldObject]) := by
    rw [TypeRef.fieldText, ← h, ← TypeRef.fieldText, parse_of_isSound hs.1 hs.2]
  have hdocument := Except.ok.inj (hparse.symm.trans (parse_of_isSound ht.1 ht.2))
  have hdefinitions := congrArg (fun document => document.definitions.toList) hdocument
  rw [definitions_ofList, definitions_ofList] at hdefinitions
  simpa [TypeRef.fieldObject] using hdefinitions

/-- **Just the sound references whose leaf is an identifier** are read as
themselves. -/
theorem parse_fieldText_iff (t : TypeRef) :
    (∃ document, Document.parse t.fieldText = .ok document ∧
      document.definitions.toList = [.object t.fieldObject]) ↔
    IsIdentifier t.leaf ∧ t.isSound = true := by
  constructor
  · rintro ⟨document, hparse, hdefinitions⟩
    have hmem : t ∈ document.references := by
      rw [references, hdefinitions]
      exact List.mem_cons_self
    exact ⟨(isIdentifier_of_parse hparse).2 t hmem,
      forall_mem_references Sdl.yields_typeRef hparse t hmem⟩
  · rintro ⟨hleaf, hsound⟩
    exact ⟨_, parse_of_isSound hleaf hsound, definitions_ofList _⟩

/-- **A reference is read back from its text.** If its leaf is an identifier,
and no exclusion of null stands directly inside another, then the schema of
one object with one field that has the text for its type is accepted. It
declares that object and nothing else, and the type of the field is the
reference. So no other such reference has the same text. -/
theorem parse_fieldText (hleaf : IsIdentifier t.leaf)
    (honce : ∀ inner, TypeRef.nonNull (.nonNull inner) ∉ t.parts) :
    (∃ document, Document.parse ("type A \x7b f: " ++ t.text ++ " \x7d") = .ok document ∧
      document.definitions.toList =
        [.object { name := "A", implements := [],
                   fields := [{ name := "f", arguments := [], type := t }] }]) ∧
    ∀ s : TypeRef, IsIdentifier s.leaf → (∀ inner, TypeRef.nonNull (.nonNull inner) ∉ s.parts) →
      s.text = t.text → s = t := by
  have hsound := (TypeRef.isSound_iff t).mpr honce
  refine ⟨⟨_, parse_of_isSound hleaf hsound, definitions_ofList _⟩, fun s hs hsonce htext => ?_⟩
  exact eq_of_text_eq ⟨hs, (TypeRef.isSound_iff s).mpr hsonce⟩ ⟨hleaf, hsound⟩ htext

/-- **Lists of lists, with marks at the levels where they change**, are read
back from `[[A!]!]!`. -/
theorem parse_fieldText_nested :
    let t := TypeRef.nonNull (.list (.nonNull (.list (.nonNull (.named "A")))))
    t.text = "[[A!]!]!" ∧ IsIdentifier t.leaf ∧
    (∀ inner, TypeRef.nonNull (.nonNull inner) ∉ t.parts) ∧
    (∃ document, Document.parse "type A \x7b f: [[A!]!]! \x7d" = .ok document ∧
      document.definitions.toList =
        [.object { name := "A", implements := [],
                   fields := [{ name := "f", arguments := [], type := t }] }]) := by
  intro t
  have htext : t.text = "[[A!]!]!" := rfl
  have hleaf : IsIdentifier t.leaf := by decide
  have honce : ∀ inner, TypeRef.nonNull (.nonNull inner) ∉ t.parts :=
    (TypeRef.isSound_iff t).mp rfl
  obtain ⟨hparse, -⟩ := parse_fieldText hleaf honce
  exact ⟨htext, hleaf, honce, hparse⟩

end Document

end SchemaScaffold
