import Mathlib.Data.List.Basic

/-!
# Text in quotation marks

A text that is put between quotation marks as it is may come out as another
one when it is read. What is read ends at the first mark that no backslash
stands in front of, and within it a backslash with a letter behind it may
stand for something else, or for nothing. So it is in generated modules, which
are read as programs.

A text that is read as itself is **inert** (`Literal.IsInert`), and this can
be seen in it letter by letter: it has no mark and no end of a line, and each
of its backslashes is followed by a letter that does not make an escape of the
two. The last is possible – a backslash in front of any other letter is kept,
and so is the letter – and because of it a text with backslashes can be inert.
That no other text is read as itself (`Literal.read?_eq_some`) is a matter of
length: an escape is longer than what it stands for, and nothing that is read
could make up for it.

Which names there are for letters is left open. Three marks in a row, which
begin a text of another kind, are read as a text without letters and a mark
behind it.
-/

namespace SchemaScaffold.Literal

/-! ## Reading -/

/-- **The body of a literal**, up to the mark that ends it, and what is behind
that. A letter is `escaped` if a backslash stands in front of it; the two
letters of one end of a line are escaped together. -/
def body? (escaped : Bool) : List Char → Option (List Char × List Char)
  | [] => none
  | c :: rest =>
    if escaped then
      (body? (c == '\r' && rest.head? == some '\n') rest).map fun found => (c :: found.1, found.2)
    else if c = '"' then some ([], rest)
    else if c = '\n' || c = '\r' then none
    else (body? (c == '\\') rest).map fun found => (c :: found.1, found.2)

/-- What a single letter behind a backslash makes of the two. -/
def letter? : Char → Option (List Char)
  | '\n' => some []
  | '\r' => some []
  | '\\' => some ['\\']
  | '\'' => some ['\'']
  | '"' => some ['"']
  | 'a' => some ['\x07']
  | 'b' => some ['\x08']
  | 'f' => some ['\x0c']
  | 'n' => some ['\n']
  | 'r' => some ['\r']
  | 't' => some ['\t']
  | 'v' => some ['\x0b']
  | _ => none

/-- Whether a letter is a digit to base 8. -/
def isOctal (c : Char) : Bool := '0' ≤ c && c ≤ '7'

/-- The value of a digit to base 16. -/
def hexDigit? (c : Char) : Option Nat :=
  if '0' ≤ c && c ≤ '9' then some (c.toNat - '0'.toNat)
  else if 'a' ≤ c && c ≤ 'f' then some (c.toNat - 'a'.toNat + 10)
  else if 'A' ≤ c && c ≤ 'F' then some (c.toNat - 'A'.toNat + 10)
  else none

/-- The number that digits stand for. -/
def number (base : Nat) (digits : List Nat) : Nat :=
  digits.foldl (fun n digit => base * n + digit) 0

/-- An escape that gives the number of a letter, in so many digits. -/
def numbered? (width : Nat) (rest : List Char) : Option (List Char × Nat) :=
  match (rest.take width).mapM hexDigit? with
  | none => none
  | some digits =>
    if width ≤ rest.length ∧ (number 16 digits).isValidChar then
      some ([Char.ofNat (number 16 digits)], width + 1)
    else none

/-- An escape that gives the name of a letter, in braces. -/
def named? (named : String → Option Char) : List Char → Option (List Char × Nat)
  | '\x7b' :: rest =>
    let name := rest.takeWhile (· != '\x7d')
    if name.length < rest.length then
      (named (String.ofList name)).map fun c => ([c], name.length + 3)
    else none
  | _ => none

/-- Whether a letter behind a backslash makes an escape of the two. -/
def startsEscape (c : Char) : Bool :=
  (letter? c).isSome || isOctal c || ['x', 'u', 'U', 'N'].contains c

/-- What a letter makes of a backslash in front of it and of what is behind
it, and how much of that belongs to it, if it makes an escape. -/
def made? (named : String → Option Char) (c : Char) (rest : List Char) :
    Option (List Char × Nat) :=
  if c = '\r' ∧ rest.head? = some '\n' then some ([], 2)
  else match letter? c with
    | some letters => some (letters, 1)
    | none =>
      match c with
      | 'x' => numbered? 2 rest
      | 'u' => numbered? 4 rest
      | 'U' => numbered? 8 rest
      | 'N' => named? named rest
      | _ =>
        let digits := c :: (rest.take 2).takeWhile isOctal
        some ([Char.ofNat (number 8 (digits.map fun digit => digit.toNat - '0'.toNat))],
          digits.length)

/-- **What a backslash stands for** with what is behind it. In front of any
letter that makes no escape it stands for itself. -/
def escape? (named : String → Option Char) : List Char → Option (List Char × Nat)
  | [] => none
  | c :: rest => if startsEscape c then made? named c rest else some (['\\', c], 1)

/-- **What a body says.** The first letters are left out if they belong to an
escape in front of them. -/
def decode? (named : String → Option Char) : Nat → List Char → Option (List Char)
  | _, [] => some []
  | skipped + 1, _ :: rest => decode? named skipped rest
  | 0, c :: rest =>
    if c = '\\' then do
      let escape ← escape? named rest
      let text ← decode? named escape.2 rest
      return escape.1 ++ text
    else do
      let text ← decode? named 0 rest
      return c :: text

/-- **Reads a literal** from behind its first mark, and says what is behind
its last one. -/
def read? (named : String → Option Char) (text : List Char) : Option (List Char × List Char) := do
  let found ← body? false text
  let value ← decode? named 0 found.1
  return (value, found.2)

/-! ## What is read as itself -/

/-- Whether each backslash is followed by a letter that makes no escape of
the two. -/
def keepsBackslashes : List Char → Bool
  | [] => true
  | c :: rest => (c != '\\' || rest.head?.any fun d => !startsEscape d) && keepsBackslashes rest

/-- **Whether a text can be put between quotation marks as it is.** -/
def IsInert (text : List Char) : Prop :=
  (∀ c ∈ text, c ≠ '"' ∧ c ≠ '\n' ∧ c ≠ '\r') ∧ keepsBackslashes text = true

/-- It can be decided letter by letter. -/
instance (text : List Char) : Decidable (IsInert text) :=
  @instDecidableAnd _ _ (List.decidableBAll _ text) inferInstance

variable {named : String → Option Char} {text body rest : List Char} {c d : Char}

/-- A letter that makes no escape is none of those that end a body. -/
theorem ne_of_not_startsEscape (h : startsEscape d = false) :
    d ≠ '"' ∧ d ≠ '\n' ∧ d ≠ '\r' ∧ d ≠ '\\' := by
  refine ⟨?_, ?_, ?_, ?_⟩
  all_goals
    rintro rfl
    exact absurd h (by decide)

/-- The letter that has to follow a backslash. -/
theorem exists_of_keepsBackslashes (h : keepsBackslashes ('\\' :: rest) = true) :
    ∃ d more, rest = d :: more ∧ startsEscape d = false ∧ keepsBackslashes rest = true := by
  rw [keepsBackslashes, Bool.and_eq_true] at h
  cases rest with
  | nil => cases h.1
  | cons d more => exact ⟨d, more, rfl, by simpa using h.1, h.2⟩

theorem keepsBackslashes_cons_of_ne (hc : c ≠ '\\') :
    keepsBackslashes (c :: rest) = keepsBackslashes rest := by
  simp [keepsBackslashes, hc]

theorem keepsBackslashes_escaped (hd : startsEscape d = false)
    (h : keepsBackslashes (d :: rest) = true) : keepsBackslashes ('\\' :: d :: rest) = true := by
  rw [keepsBackslashes, h]
  simp [hd]

/-! ## Where a body ends -/

/-- A body ends at a mark. -/
theorem eq_of_body? {escaped : Bool} (h : body? escaped text = some (body, rest)) :
    text = body ++ '"' :: rest := by
  induction text generalizing escaped body with
  | nil => cases h
  | cons c text ih =>
    have hmap {flag : Bool}
        (h : (body? flag text).map (fun found => (c :: found.1, found.2)) = some (body, rest)) :
        c :: text = body ++ '"' :: rest := by
      obtain ⟨found, hfound, heq⟩ := Option.map_eq_some_iff.mp h
      cases heq
      rw [ih hfound, List.cons_append]
    rw [body?] at h
    split at h
    · exact hmap h
    · split at h
      · next hmark =>
        cases h
        rw [hmark, List.nil_append]
      · split at h
        · cases h
        · exact hmap h

/-- **A text that keeps its backslashes ends at the mark behind it**, if it
has neither a mark nor the end of a line. -/
theorem body?_append (hkeeps : keepsBackslashes text = true) {escaped : Bool}
    (hescaped : escaped = true → ∃ d more, text = d :: more ∧ startsEscape d = false) :
    body? escaped (text ++ '"' :: rest) = some (text, rest) ↔
      ∀ c ∈ text, c ≠ '"' ∧ c ≠ '\n' ∧ c ≠ '\r' := by
  induction text generalizing escaped with
  | nil =>
    cases escaped with
    | false => simp [body?]
    | true =>
      obtain ⟨d, more, h, -⟩ := hescaped rfl
      cases h
  | cons c text ih =>
    have hmap {flag : Bool}
        (hflag : flag = true → ∃ d more, text = d :: more ∧ startsEscape d = false)
        (htext : keepsBackslashes text = true) :
        (body? flag (text ++ '"' :: rest)).map (fun found => (c :: found.1, found.2))
            = some (c :: text, rest) ↔ ∀ c ∈ text, c ≠ '"' ∧ c ≠ '\n' ∧ c ≠ '\r' := by
      rw [← ih htext hflag, Option.map_eq_some_iff]
      constructor
      · rintro ⟨found, hfound, heq⟩
        obtain ⟨hbody, hrest⟩ := Prod.mk.inj heq
        rw [hfound, ← hrest, ← (List.cons.inj hbody).2]
      · intro h
        exact ⟨_, h, rfl⟩
    have htext : keepsBackslashes text = true := (Bool.and_eq_true_iff.mp hkeeps).2
    rw [List.cons_append, body?, List.forall_mem_cons]
    cases escaped with
    | true =>
      obtain ⟨d, more, hd, hstarts⟩ := hescaped rfl
      cases hd
      obtain ⟨hmark, hend, hreturn, -⟩ := ne_of_not_startsEscape hstarts
      rw [if_pos rfl, hmap ?_ htext, and_iff_right ⟨hmark, hend, hreturn⟩]
      intro hflag
      rw [Bool.and_eq_true, beq_iff_eq] at hflag
      exact absurd hflag.1 hreturn
    | false =>
      rw [if_neg Bool.false_ne_true]
      by_cases hmark : c = '"'
      · simp [hmark]
      · rw [if_neg hmark]
        by_cases hend : c = '\n' ∨ c = '\r'
        · rw [if_pos (by simpa using hend)]
          refine ⟨fun h => (by cases h), fun h => ?_⟩
          exact absurd hend (not_or.mpr h.1.2)
        · rw [if_neg (by simpa using hend), hmap ?_ htext,
            and_iff_right ⟨hmark, not_or.mp hend⟩]
          intro hbackslash
          rw [beq_iff_eq.mp hbackslash] at hkeeps
          obtain ⟨d, more, hmore, hd, -⟩ := exists_of_keepsBackslashes hkeeps
          exact ⟨d, more, hmore, hd⟩

/-! ## What a body says -/

theorem length_letter? {letters : List Char} (h : letter? c = some letters) :
    letters.length ≤ 1 := by
  unfold letter? at h
  split at h
  all_goals
    cases h
    try decide

theorem numbered?_cases {width : Nat} {escape : List Char × Nat}
    (h : numbered? width rest = some escape) :
    escape.1.length = 1 ∧ escape.2 = width + 1 ∧ width ≤ rest.length := by
  unfold numbered? at h
  split at h
  · cases h
  · split at h
    · next hwidth =>
      cases h
      exact ⟨rfl, rfl, hwidth.1⟩
    · cases h

theorem named?_cases {escape : List Char × Nat} (h : named? named rest = some escape) :
    escape.1.length = 1 ∧ 1 ≤ escape.2 ∧ escape.2 ≤ rest.length + 1 := by
  unfold named? at h
  split at h
  · dsimp only at h
    split at h
    · next hshort =>
      obtain ⟨c, -, rfl⟩ := Option.map_eq_some_iff.mp h
      refine ⟨rfl, Nat.le_add_left 1 _, ?_⟩
      rw [List.length_cons]
      show _ + 3 ≤ _
      omega
    · cases h
  · cases h

/-- An escape stands for at most one letter, and something behind the
backslash belongs to it. -/
theorem made?_cases {escape : List Char × Nat} (h : made? named c rest = some escape) :
    escape.1.length ≤ 1 ∧ 1 ≤ escape.2 ∧ escape.2 ≤ rest.length + 1 := by
  have hnumbered {width : Nat} (h : numbered? width rest = some escape) :
      escape.1.length ≤ 1 ∧ 1 ≤ escape.2 ∧ escape.2 ≤ rest.length + 1 := by
    obtain ⟨hone, hused, hwidth⟩ := numbered?_cases h
    omega
  unfold made? at h
  split at h
  · next hend =>
    cases h
    refine ⟨Nat.zero_le _, Nat.le_succ 1, ?_⟩
    cases rest with
    | nil => cases hend.2
    | cons c rest => exact Nat.le_add_left 2 _
  · split at h
    · next letters hletters =>
      cases h
      exact ⟨length_letter? hletters, Nat.le_refl 1, Nat.le_add_left 1 _⟩
    · split at h
      · exact hnumbered h
      · exact hnumbered h
      · exact hnumbered h
      · obtain ⟨hone, hused⟩ := named?_cases h
        exact ⟨Nat.le_of_eq hone, hused⟩
      · cases h
        have hdigits := (List.takeWhile_sublist isOctal (l := rest.take 2)).length_le
        have hrest := (List.take_sublist 2 rest).length_le
        refine ⟨Nat.le_refl 1, Nat.le_add_left 1 _, ?_⟩
        exact Nat.succ_le_succ (Nat.le_trans hdigits hrest)

/-- **What a backslash can stand for**: at most one letter, for one or more
that are behind it – or itself and the letter behind it. -/
theorem escape?_cases {escape : List Char × Nat} (h : escape? named text = some escape) :
    (escape.1.length ≤ 1 ∧ 1 ≤ escape.2 ∧ escape.2 ≤ text.length) ∨
    ∃ d more, text = d :: more ∧ startsEscape d = false ∧ escape = (['\\', d], 1) := by
  cases text with
  | nil => cases h
  | cons d more =>
    rw [escape?] at h
    split at h
    · exact .inl (made?_cases h)
    · next hd =>
      cases h
      exact .inr ⟨d, more, rfl, Bool.eq_false_iff.mpr hd, rfl⟩

/-- No body says more than it has letters. -/
theorem length_decode? {skipped : Nat} {value : List Char}
    (h : decode? named skipped text = some value) : value.length ≤ text.length - skipped := by
  induction text generalizing skipped value with
  | nil =>
    cases h
    exact Nat.zero_le _
  | cons c text ih =>
    cases skipped with
    | succ skipped =>
      have htext := ih h
      rw [List.length_cons]
      omega
    | zero =>
      rw [decode?] at h
      split at h
      · obtain ⟨escape, hescape, h⟩ := Option.bind_eq_some_iff.mp h
        obtain ⟨value', hvalue', h⟩ := Option.bind_eq_some_iff.mp h
        cases h
        have htext := ih hvalue'
        rw [List.length_append, List.length_cons]
        obtain ⟨hone, hused, hlength⟩ | ⟨d, more, rfl, -, rfl⟩ := escape?_cases hescape
        · omega
        · simp at htext ⊢
          omega
      · obtain ⟨value', hvalue', h⟩ := Option.bind_eq_some_iff.mp h
        cases h
        have htext := ih hvalue'
        rw [List.length_cons, List.length_cons]
        omega

/-- **A body that says as much as it has letters** keeps its backslashes. -/
theorem keepsBackslashes_of_decode? {value : List Char} (h : decode? named 0 text = some value)
    (hlength : value.length = text.length) : keepsBackslashes text = true := by
  induction text generalizing value with
  | nil => rfl
  | cons c text ih =>
    rw [decode?] at h
    split at h
    · next hc =>
      obtain ⟨escape, hescape, h⟩ := Option.bind_eq_some_iff.mp h
      obtain ⟨value', hvalue', h⟩ := Option.bind_eq_some_iff.mp h
      cases h
      have htext := length_decode? hvalue'
      rw [List.length_append, List.length_cons] at hlength
      obtain ⟨hone, hused, hlength'⟩ | ⟨d, more, rfl, hd, rfl⟩ := escape?_cases hescape
      · omega
      · -- the letter behind the backslash would have been read as itself, too
        have hvalue : decode? named 0 (d :: more) = some (d :: value') := by
          rw [decode?, if_neg (ne_of_not_startsEscape hd).2.2.2]
          exact Option.bind_eq_some_iff.mpr ⟨value', hvalue', rfl⟩
        rw [hc]
        refine keepsBackslashes_escaped hd (ih hvalue ?_)
        simp only [List.length_cons, List.length_nil] at hlength ⊢
        omega
    · next hc =>
      obtain ⟨value', hvalue', h⟩ := Option.bind_eq_some_iff.mp h
      cases h
      rw [keepsBackslashes_cons_of_ne hc]
      exact ih hvalue' (Nat.succ.inj hlength)

/-- **A text that keeps its backslashes says itself.** -/
theorem decode?_of_keepsBackslashes (h : keepsBackslashes text = true) :
    decode? named 0 text = some text := by
  induction text with
  | nil => rfl
  | cons c text ih =>
    by_cases hc : c = '\\'
    · subst hc
      obtain ⟨d, more, rfl, hd, hmore⟩ := exists_of_keepsBackslashes h
      have hdecode := ih hmore
      rw [decode?, if_neg (ne_of_not_startsEscape hd).2.2.2] at hdecode
      obtain ⟨value, hvalue, heq⟩ := Option.bind_eq_some_iff.mp hdecode
      rw [decode?, if_pos rfl, escape?, hd]
      refine Option.bind_eq_some_iff.mpr ⟨_, rfl, Option.bind_eq_some_iff.mpr ⟨value, hvalue, ?_⟩⟩
      rw [← Option.some.inj heq]
      rfl
    · rw [keepsBackslashes_cons_of_ne hc] at h
      rw [decode?, if_neg hc]
      exact Option.bind_eq_some_iff.mpr ⟨text, ih h, rfl⟩

/-! ## The law -/

/-- **A text is read as itself just if it is inert**, whatever stands behind
it and whatever names there are. -/
theorem read?_eq_some : read? named (text ++ '"' :: rest) = some (text, rest) ↔ IsInert text := by
  constructor
  · intro h
    obtain ⟨⟨body, rest'⟩, hbody, h⟩ := Option.bind_eq_some_iff.mp h
    obtain ⟨value, hvalue, h⟩ := Option.bind_eq_some_iff.mp h
    obtain ⟨rfl, rfl⟩ := Prod.mk.inj (Option.some.inj h)
    obtain rfl := List.append_cancel_right (eq_of_body? hbody)
    have hkeeps := keepsBackslashes_of_decode? hvalue rfl
    exact ⟨(body?_append hkeeps (fun h => absurd h Bool.false_ne_true)).mp hbody, hkeeps⟩
  · rintro ⟨hletters, hkeeps⟩
    have hbody : body? false (text ++ '"' :: rest) = some (text, rest) :=
      (body?_append hkeeps fun h => absurd h Bool.false_ne_true).mpr hletters
    exact Option.bind_eq_some_iff.mpr ⟨_, hbody,
      Option.bind_eq_some_iff.mpr ⟨_, decode?_of_keepsBackslashes hkeeps, rfl⟩⟩

/-- A backslash may be read as itself or not, according to what is behind
it. -/
example : read? (fun _ => none) "\\d\\x64\\14.\" / 2".toList
    = some ("\\dd\x0c.".toList, " / 2".toList) := by decide

end SchemaScaffold.Literal
