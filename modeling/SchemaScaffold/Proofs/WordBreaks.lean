import SchemaScaffold.Proofs.Identifier

/-!
# Where words break

Snake case is made in two passes, and each of them goes on behind what it
has found. So neither puts an underscore at every place it looks for: in
`parseAaBb` the first pass takes `eAa` and goes on with `Bb`, in front of
which there is no character left to part it from. The second pass finds that
place, and it finds nothing where the first one has been, because a capital
letter that has been parted stands behind an underscore.

Together they follow a rule that looks at no more than three characters, and
at no underscore put in before (`SnakeCase.breaksAt`). That the two passes
are this one rule (`SnakeCase.part_eq_broken`) rests on two facts. The second
pass is a rule of this sort by itself (`SnakeCase.partCapitals_cons`). And
what the first one takes up with a word are small letters, behind which every
capital letter breaks a word anyway (`SnakeCase.partCapitals_lower_append`).

The rule asks for a capital letter, and snake case has none left. So snake
case of snake case is the same again, and the underscores at either end of a
name are those that it had (`snakeCase_is_final`).
-/

namespace SchemaScaffold

namespace SnakeCase

/-! ## The rule -/

/-- **Whether a word breaks** behind the character at a place: a capital letter
follows, and it stands behind a small letter or a digit, or else, but for a
line feed, in front of a small letter. -/
def breaksAt (text : List Char) (i : Nat) : Bool :=
  match text[i]?, text[i + 1]? with
  | some c, some next =>
    next.isUpper && (c.isLower || c.isDigit || c != '\n' && text[i + 2]?.any Char.isLower)
  | _, _ => false

/-- **A text with an underscore wherever a word breaks.** -/
def broken (text : List Char) : List Char :=
  (text.mapIdx fun i c => if breaksAt text i then [c, '_'] else [c]).flatten

/-- The underscore for a break, if there is one. -/
def mark (breaks : Bool) : List Char := if breaks then ['_'] else []

variable {c : Char} {text rest : List Char}

/-- Places behind the first are places of the rest. -/
theorem broken_cons (c : Char) (text : List Char) :
    broken (c :: text) = c :: (mark (breaksAt (c :: text) 0) ++ broken text) := by
  have hrest (i : Nat) : breaksAt (c :: text) (i + 1) = breaksAt text i := rfl
  rw [broken, List.mapIdx_cons, List.flatten_cons]
  simp only [hrest]
  rw [broken, mark]
  split <;> rfl

/-- Behind a small letter or a digit it is the next character that decides. -/
theorem breaksAt_zero_of_small (h : (c.isLower || c.isDigit) = true) :
    breaksAt (c :: text) 0 = text.head?.any Char.isUpper := by
  cases text with
  | nil => rfl
  | cons next text => simp [breaksAt, h]

/-- In front of anything but a capital letter no word breaks. -/
theorem breaksAt_zero_of_not_upper (h : text.head?.any Char.isUpper = false) :
    breaksAt (c :: text) 0 = false := by
  cases text with
  | nil => rfl
  | cons next text =>
    have hnext : next.isUpper = false := h
    simp [breaksAt, hnext]

/-- Behind any character but a line feed a capitalized word breaks. -/
theorem breaksAt_zero_of_word {capital : Char} (hline : c ≠ '\n')
    (hcapital : capital.isUpper = true)
    (hlower : rest.head?.any Char.isLower = true) :
    breaksAt (c :: capital :: rest) 0 = true := by
  have hthird : (c :: capital :: rest)[0 + 2]? = rest.head? := List.head?_eq_getElem?.symm
  simp [breaksAt, hthird, hline, hcapital, hlower]

/-- Where no capitalized word follows, a word breaks only behind a small letter
or a digit. -/
theorem breaksAt_zero_of_not_word {capital : Char}
    (h : ¬(c ≠ '\n' ∧ capital.isUpper = true ∧ rest.head?.any Char.isLower = true)) :
    breaksAt (c :: capital :: rest) 0 = ((c.isLower || c.isDigit) && capital.isUpper) := by
  have hthird : (c :: capital :: rest)[0 + 2]? = rest.head? := List.head?_eq_getElem?.symm
  have hword : (capital.isUpper && (c != '\n' && rest.head?.any Char.isLower)) = false := by
    rw [← Bool.not_eq_true, Bool.and_eq_true, Bool.and_eq_true, bne_iff_ne]
    exact fun ⟨hcapital, hline, hlower⟩ => h ⟨hline, hcapital, hlower⟩
  show (capital.isUpper && (c.isLower || c.isDigit || c != '\n' && _)) = _
  rw [hthird, Bool.and_or_distrib_left, hword, Bool.or_false, Bool.and_comm]

/-! ## The passes -/

/-- A capital letter is neither a small letter nor a digit. -/
theorem not_small_of_isUpper (h : c.isUpper = true) : (c.isLower || c.isDigit) = false := by
  have hall : ∀ n < 128, (Char.ofNat n).isUpper = true →
      ((Char.ofNat n).isLower || (Char.ofNat n).isDigit) = false := by
    decide
  have hname : Sdl.isNameChar c = true := by
    show ((c.isUpper || c.isLower) || c.isDigit || c == '_') = true
    simp only [h, Bool.true_or]
  obtain ⟨n, hn, rfl⟩ := exists_eq_ofNat (Sdl.toNat_lt_of_isNameChar hname)
  exact hall n hn h

/-- A small letter is no capital letter. -/
theorem notUpper_of_isLower (h : c.isLower = true) : c.isUpper = false := by
  by_contra hupper
  rw [Bool.not_eq_false] at hupper
  have hsmall := not_small_of_isUpper hupper
  rw [h] at hsmall
  cases hsmall

/-- Behind anything but a small letter or a digit the second pass does
nothing. -/
theorem partCapitals_cons_of_not_small (h : (c.isLower || c.isDigit) = false) (text : List Char) :
    partCapitals (c :: text) = c :: partCapitals text := by
  cases text with
  | nil => rfl
  | cons next text =>
    rw [partCapitals, if_neg]
    rintro ⟨hsmall, -⟩
    rw [← Bool.or_eq_true, h] at hsmall
    cases hsmall

/-- **The second pass is a rule for two characters.** -/
theorem partCapitals_cons (c : Char) (text : List Char) :
    partCapitals (c :: text)
      = c :: (mark ((c.isLower || c.isDigit) && text.head?.any Char.isUpper)
        ++ partCapitals text) := by
  cases text with
  | nil => rw [List.head?_nil, Option.any_none, Bool.and_false]; rfl
  | cons next text =>
    rw [partCapitals, List.head?_cons, Option.any_some]
    split
    · next h =>
      rw [← Bool.or_eq_true] at h
      rw [partCapitals_cons_of_not_small (not_small_of_isUpper h.2), h.1, h.2]
      rfl
    · next h =>
      rw [← Bool.or_eq_true, ← Bool.and_eq_true, Bool.not_eq_true] at h
      rw [h]
      rfl

/-- In front of anything but a capital letter the second pass does nothing. -/
theorem partCapitals_cons_of_not_upper (h : text.head?.any Char.isUpper = false) :
    partCapitals (c :: text) = c :: partCapitals text := by
  rw [partCapitals_cons, h, Bool.and_false]
  rfl

/-- **Behind a small letter the second pass follows the rule**, whatever the
first pass does with the rest. -/
theorem partCapitals_lower_append {lowers : List Char} (hlowers : ∀ c ∈ lowers, c.isLower = true)
    (hrest : partCapitals (partWords rest) = broken rest) :
    partCapitals (lowers ++ partWords rest) = broken (lowers ++ rest) := by
  induction lowers with
  | nil => exact hrest
  | cons c lowers ih =>
    obtain ⟨hc, hlowers⟩ := List.forall_mem_cons.mp hlowers
    have hsmall : (c.isLower || c.isDigit) = true := by rw [hc, Bool.true_or]
    have hhead : (lowers ++ partWords rest).head? = (lowers ++ rest).head? := by
      rw [List.head?_append, List.head?_append, head?_partWords]
    rw [List.cons_append, List.cons_append, partCapitals_cons, broken_cons, ih hlowers, hsmall,
      Bool.true_and, hhead, breaksAt_zero_of_small hsmall]

/-- **The two passes together are the rule.** -/
theorem part_eq_broken (text : List Char) : part text = broken text := by
  unfold part
  fun_induction partWords text with
  | case1 c capital rest hword ih =>
    obtain ⟨hline, hcapital, hlower⟩ := hword
    have hblank : ('_'.isLower || '_'.isDigit) = false := by decide
    have hrest : rest.takeWhile Char.isLower ++ rest.dropWhile Char.isLower = rest :=
      List.takeWhile_append_dropWhile
    have hlowers : ∀ l ∈ rest.takeWhile Char.isLower, l.isLower = true :=
      fun l hl => List.all_eq_true.mp List.all_takeWhile l hl
    have htail := partCapitals_lower_append hlowers ih
    rw [hrest] at htail
    -- behind the capital letter stands a small one, so no word breaks there
    have hsmall : rest.head?.any Char.isUpper = false := by
      obtain ⟨l, hl, hlower⟩ := (Option.any_eq_true _ _).mp hlower
      rw [hl, Option.any_some]
      exact notUpper_of_isLower hlower
    calc partCapitals (c :: '_' :: capital :: rest.takeWhile Char.isLower
          ++ partWords (rest.dropWhile Char.isLower))
        = c :: '_' :: capital :: broken rest := by
          rw [List.cons_append, List.cons_append, List.cons_append,
            partCapitals_cons_of_not_upper rfl, partCapitals_cons_of_not_small hblank,
            partCapitals_cons_of_not_small (not_small_of_isUpper hcapital), htail]
      _ = broken (c :: capital :: rest) := by
          rw [broken_cons c, breaksAt_zero_of_word hline hcapital hlower, broken_cons capital,
            breaksAt_zero_of_not_upper hsmall]
          rfl
  | case2 c capital rest hword ih =>
    rw [partCapitals_cons, head?_partWords, ih, broken_cons c, breaksAt_zero_of_not_word hword]
    rfl
  | case3 text hshort =>
    cases text with
    | nil => rfl
    | cons c text =>
      cases text with
      | nil => rfl
      | cons capital rest => exact absurd rfl (hshort c capital rest)

/-! ## What the rule leaves alone -/

/-- **Without a capital letter no word breaks.** -/
theorem broken_of_not_upper (h : ∀ c ∈ text, c.isUpper = false) : broken text = text := by
  induction text with
  | nil => rfl
  | cons c text ih =>
    obtain ⟨-, htext⟩ := List.forall_mem_cons.mp h
    have hhead : text.head?.any Char.isUpper = false := by
      cases text with
      | nil => rfl
      | cons next text => exact htext next List.mem_cons_self
    rw [broken_cons, breaksAt_zero_of_not_upper hhead, ih htext]
    rfl

/-- **The last character stays the last one.** -/
theorem getLast?_broken (text : List Char) : (broken text).getLast? = text.getLast? := by
  induction text with
  | nil => rfl
  | cons c text ih =>
    cases text with
    | nil => rfl
    | cons next text =>
      have hrest : broken (next :: text) ≠ [] := by
        rw [broken_cons]
        exact List.cons_ne_nil _ _
      rw [broken_cons, ← List.cons_append, List.getLast?_append_of_ne_nil _ hrest, ih,
        List.getLast?_cons_cons]

end SnakeCase

/-! ## Snake case -/

section SnakeCase

variable {name : String}

/-- **Snake case by one rule.** An ASCII name in snake case is the name with an
underscore wherever a word breaks, and in lower case. -/
theorem snakeCase_breaks_words (h : IsAscii name) :
    (snakeCase name).toList = (SnakeCase.broken name.toList).map Char.toLower := by
  rw [h.toList_snakeCase, SnakeCase.part_eq_broken]

/-- A name in which words break in all three ways: behind a small letter, behind a
digit, and where a run of capital letters ends. -/
theorem snakeCase_breaks_words_acronym :
    IsAscii "getHTTPServer2Reply" ∧
      (snakeCase "getHTTPServer2Reply").toList = "get_http_server2_reply".toList :=
  ⟨by decide, (snakeCase_breaks_words (by decide)).trans (by decide)⟩

/-- At either end of a name, what is an underscore in lower case is one. -/
theorem map_toLower_eq_underscore {letter? : Option Char} (h : ∀ c ∈ letter?, c.toNat < 128) :
    letter?.map Char.toLower = some '_' ↔ letter? = some '_' := by
  cases letter? with
  | none => exact Iff.rfl
  | some c => simpa using IsAscii.toLower_eq_underscore (h c rfl)

/-- Snake case is left as it is. -/
theorem IsAscii.snakeCase_snakeCase (h : IsAscii name) :
    snakeCase (snakeCase name) = snakeCase name := by
  have hagain : IsAscii (snakeCase name) := by
    have hall : ∀ n < 128, (Char.ofNat n).toLower.toNat < 128 := by decide
    intro c hc
    obtain ⟨n, hn, rfl⟩ := h.exists_eq_toLower hc
    exact hall n hn
  have hlower : ∀ c ∈ (snakeCase name).toList, c.toLower = c := by
    have hall : ∀ n < 128, (Char.ofNat n).toLower.toLower = (Char.ofNat n).toLower := by decide
    intro c hc
    obtain ⟨n, hn, rfl⟩ := h.exists_eq_toLower hc
    exact hall n hn
  refine String.toList_inj.mp ?_
  rw [hagain.toList_snakeCase, SnakeCase.part_eq_broken,
    SnakeCase.broken_of_not_upper fun c hc => h.notUpper_of_mem_snakeCase hc,
    List.map_congr_left hlower, List.map_id']

/-- **Snake case is done once and for all.** Done again it changes nothing. The
underscores at the ends of a name are those it had, and without any it is the
name without any, in lower case. So two names with one snake case differ in
nothing but case and underscores. -/
theorem snakeCase_is_final (h : IsAscii name) :
    snakeCase (snakeCase name) = snakeCase name ∧
    ((snakeCase name).toList.head? = some '_' ↔ name.toList.head? = some '_') ∧
    ((snakeCase name).toList.getLast? = some '_' ↔ name.toList.getLast? = some '_') ∧
    SnakeCase.letters (snakeCase name).toList
      = SnakeCase.letters (Text.lowercase name.toList) ∧
    ∀ other, IsAscii other → snakeCase other = snakeCase name → skeleton other = skeleton name := by
  refine ⟨h.snakeCase_snakeCase, ?_, ?_, ?_, fun other hother => hother.skeleton_eq h⟩
  · rw [h.toList_snakeCase, List.head?_map, SnakeCase.head?_part]
    exact map_toLower_eq_underscore fun c hc => h c (List.mem_of_mem_head? hc)
  · rw [h.toList_snakeCase, List.getLast?_map, SnakeCase.part_eq_broken, SnakeCase.getLast?_broken]
    exact map_toLower_eq_underscore fun c hc => h c (List.mem_of_mem_getLast? hc)
  · rw [h.letters_snakeCase, Text.lowercase_of_ascii h, IsAscii.letters_map_toLower h]

/-- Two names with underscores at both ends and one snake case. In one of them the
word breaks behind an underscore, and the other has a second underscore there. -/
theorem snakeCase_is_final_underscores :
    IsAscii "_HTTPServer_Name_" ∧ IsAscii "_httpServer__name_" ∧
      snakeCase (snakeCase "_HTTPServer_Name_") = snakeCase "_HTTPServer_Name_" ∧
      (snakeCase "_HTTPServer_Name_").toList.head? = some '_' ∧
      (snakeCase "_HTTPServer_Name_").toList.getLast? = some '_' ∧
      snakeCase "_httpServer__name_" = snakeCase "_HTTPServer_Name_" ∧
      skeleton "_httpServer__name_" = skeleton "_HTTPServer_Name_" := by
  have hname : IsAscii "_HTTPServer_Name_" := by decide
  have hother : IsAscii "_httpServer__name_" := by decide
  have hsame : snakeCase "_httpServer__name_" = snakeCase "_HTTPServer_Name_" := by
    refine String.toList_inj.mp ?_
    rw [hname.toList_snakeCase, hother.toList_snakeCase, SnakeCase.part_eq_broken,
      SnakeCase.part_eq_broken]
    decide
  obtain ⟨hagain, hhead, hlast, -, hskeleton⟩ := snakeCase_is_final hname
  exact ⟨hname, hother, hagain, hhead.mpr (by decide), hlast.mpr (by decide), hsame,
    hskeleton _ hother hsame⟩

end SnakeCase

end SchemaScaffold
