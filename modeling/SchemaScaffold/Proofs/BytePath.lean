import SchemaScaffold.CommandLine.Arguments
import SchemaScaffold.Proofs.Lossy
import SchemaScaffold.Proofs.PathSteps

/-!
# Paths in bytes and paths as texts

A path in bytes is taken apart as a text with a letter for each byte. What is
taken off it has letters of this text only, so it has a letter for each byte
as well, and the bytes are found again (`BytePath.parent?_eq_some` and
`BytePath.fileName?_eq_some`).

If the bytes are those of a text there is a second way to take the path apart,
letter by letter, and it is the one that a run of the command goes. Both come
to the same (`BytePath.parent?_ofPath`, `BytePath.fileName?_ofPath` and
`BytePath.inside_ofPath`), for the two texts have their slashes in the same
places. This is what could go wrong: a byte of one letter could be the slash
of the other. It is not so because a byte below 128 is a letter by itself and
in no other letter (`toNat_eq_of_mem_utf8EncodeChar`).
-/

namespace SchemaScaffold

variable {data : List UInt8} {text : String}

/-! ## A letter for each byte -/

theorem toUInt8_ofUInt8 (b : UInt8) : (Char.ofUInt8 b).toUInt8 = b := UInt8.toUInt8_toUInt32 b

theorem unspell_spell (data : List UInt8) : unspell (spell data) = data := by
  have hbyte : Char.toUInt8 ∘ Char.ofUInt8 = id := funext toUInt8_ofUInt8
  rw [unspell, spell, String.toList_ofList, List.map_map, hbyte, List.map_id]

theorem spell_injective : Function.Injective spell :=
  Function.LeftInverse.injective unspell_spell

/-- A part of a text with a letter for each byte is such a text. -/
theorem spell_unspell (h : text.toList.Sublist (spell data).toList) :
    spell (unspell text) = text := by
  rw [spell, String.toList_ofList] at h
  obtain ⟨part, -, hpart⟩ := List.sublist_map_iff.mp h
  have htext : text = spell part := by rw [spell, ← hpart, String.ofList_toList]
  rw [htext, unspell_spell]

namespace Path

variable {path parent : Path} {name : String}

/-- The text of a parent is a part of that of the path. -/
theorem sublist_of_parent? (h : path.parent? = some parent) :
    parent.text.toList.Sublist path.text.toList := by
  obtain hnone | ⟨front, step, blank, hends⟩ := path.fronts_eq_nil_or_endsWith
  · rw [parent?, hnone] at h
    cases h
  · obtain rfl := Option.some.inj (h.symm.trans hends.parent?_eq)
    obtain hnone | ⟨shorter, last, between, hfront, -, -, hfronts⟩ := frontsOf_cases true front
    · rw [hnone]
      cases habsolute : path.isAbsolute with
      | false => exact List.nil_sublist _
      | true =>
        obtain ⟨rest, hrest⟩ := List.head?_eq_some_iff.mp (beq_iff_eq.mp habsolute)
        rw [hrest]
        exact (List.nil_sublist rest).cons_cons '/'
    · have hsegments : split path.text.toList
          = (shorter ++ [last]) ++ (between ++ step :: blank) := by
        show path.segments = _
        rw [hends.segments_eq, hfront]
        simp
      rw [hfronts, ← intercalate_split path.text.toList, hsegments]
      show (String.ofList (List.intercalate ['/'] (shorter ++ [last]))).toList.Sublist _
      rw [String.toList_ofList]
      exact intercalate_sublist _ (List.sublist_append_left _ _)

/-- The name at the end of a path is a part of its text. -/
theorem sublist_of_fileName? (h : path.fileName? = some name) :
    name.toList.Sublist path.text.toList := by
  obtain ⟨front, blank, hends, -⟩ := exists_endsWith_of_fileName? h
  have hmem : name.toList ∈ split path.text.toList := by
    show name.toList ∈ path.segments
    rw [hends.segments_eq]
    exact List.mem_append_right _ List.mem_cons_self
  have hsublist := intercalate_sublist ['/'] (List.singleton_sublist.mpr hmem)
  rwa [List.intercalate_singleton, intercalate_split] at hsublist

end Path

namespace BytePath

variable {path parent : BytePath} {name : List UInt8}

theorem ofSpelled_spelled (path : BytePath) : ofSpelled path.spelled = path := by
  rw [ofSpelled, spelled, unspell_spell]

/-- **The parent of a path in bytes** is that of the spelled path, spelled. -/
theorem parent?_eq_some : path.parent? = some parent ↔
    path.spelled.parent? = some parent.spelled := by
  rw [parent?, Option.map_eq_some_iff]
  constructor
  · rintro ⟨found, hfound, rfl⟩
    have htext : spell (unspell found.text) = found.text :=
      spell_unspell (Path.sublist_of_parent? hfound)
    rw [hfound, spelled, ofSpelled, htext]
  · intro h
    exact ⟨_, h, parent.ofSpelled_spelled⟩

/-- **The name at the end of a path in bytes** is that of the spelled path,
spelled. -/
theorem fileName?_eq_some : path.fileName? = some name ↔
    path.spelled.fileName? = some (spell name) := by
  rw [fileName?, Option.map_eq_some_iff]
  constructor
  · rintro ⟨found, hfound, rfl⟩
    rw [hfound, spell_unspell (Path.sublist_of_fileName? hfound)]
  · intro h
    exact ⟨_, h, unspell_spell name⟩

/-- **What is inside a path in bytes** is inside the spelled path, spelled. -/
theorem spelled_inside (directory : BytePath) (inner : String) :
    (directory.inside inner).spelled = directory.spelled.inside (spell (bytes inner)) := by
  have happend (front back : List UInt8) : spell front ++ spell back = spell (front ++ back) := by
    rw [spell, spell, spell, List.map_append, String.ofList_append]
  have hslash : "/" = spell [0x2f] := by decide
  have hspell : ∃ data, directory.spelled.inside (spell (bytes inner)) = ⟨spell data⟩ := by
    unfold Path.inside spelled
    split
    · exact ⟨_, rfl⟩
    · split
      · exact ⟨_, congrArg Path.mk (happend _ _)⟩
      · rw [hslash, happend, happend]
        exact ⟨_, rfl⟩
  obtain ⟨data, hdata⟩ := hspell
  rw [inside, hdata, ofSpelled, spelled, unspell_spell]

end BytePath

/-! ## The bytes of a text, with a letter for each -/

/-- **A byte below 128 is in the letter of its number only.** -/
theorem toNat_eq_of_mem_utf8EncodeChar {b : UInt8} {c : Char} (hb : b.toNat < 128)
    (h : b ∈ String.utf8EncodeChar c) : c.toNat = b.toNat := by
  have hc : c.val.toNat = c.toNat := rfl
  unfold String.utf8EncodeChar at h
  dsimp only at h
  rw [hc] at h
  split_ifs at h <;> simp only [List.mem_cons, List.not_mem_nil, or_false] at h
  · rw [h, toNat_ofNat_byte (by omega)]
  all_goals
    exfalso
    rcases h with rfl | rfl | rfl | rfl <;> rw [toNat_ofNat_byte (by omega)] at hb <;> omega

/-- A letter for each byte of the given letters. -/
def spelling (text : List Char) : List Char :=
  (text.flatMap String.utf8EncodeChar).map Char.ofUInt8

theorem toList_spell_bytes (text : String) :
    (spell (bytes text)).toList = spelling text.toList := by
  rw [spell, bytes_eq, String.toList_ofList, spelling]

theorem spelling_append (front back : List Char) :
    spelling (front ++ back) = spelling front ++ spelling back := by
  rw [spelling, List.flatMap_append, List.map_append]
  rfl

theorem spell_bytes_append (front back : String) :
    spell (bytes (front ++ back)) = spell (bytes front) ++ spell (bytes back) := by
  rw [← String.toList_inj, String.toList_append, toList_spell_bytes, toList_spell_bytes,
    toList_spell_bytes, String.toList_append, spelling_append]

/-- Different letters have different bytes. -/
theorem spelling_injective : Function.Injective spelling := by
  intro text text' h
  have hdata := spell_injective (congrArg String.ofList h)
  rw [← Lossy.readFrom_flatMap text, hdata, Lossy.readFrom_flatMap]

@[simp] theorem spelling_eq_nil {text : List Char} : spelling text = [] ↔ text = [] :=
  spelling_injective.eq_iff' rfl

@[simp] theorem spelling_eq_point {text : List Char} : spelling text = ['.'] ↔ text = ['.'] :=
  spelling_injective.eq_iff' (by decide)

@[simp] theorem spelling_eq_points {text : List Char} :
    spelling text = ['.', '.'] ↔ text = ['.', '.'] :=
  spelling_injective.eq_iff' (by decide)

theorem spelling_slash : spelling ['/'] = ['/'] := by decide

/-- **A slash is where a slash is.** -/
theorem slash_mem_spelling {text : List Char} : '/' ∈ spelling text ↔ '/' ∈ text := by
  constructor
  · intro h
    obtain ⟨b, hb, hslash⟩ := List.mem_map.mp h
    obtain ⟨c, hc, hmem⟩ := List.mem_flatMap.mp hb
    obtain rfl : b = 0x2f := by
      rw [← toUInt8_ofUInt8 b, hslash]
      rfl
    obtain rfl : c = '/' := Char.toNat_inj.mp (toNat_eq_of_mem_utf8EncodeChar (by decide) hmem)
    exact hc
  · intro h
    obtain ⟨front, back, rfl⟩ := List.append_of_mem h
    rw [List.append_cons, spelling_append, spelling_append, spelling_slash]
    exact List.mem_append_left _ (List.mem_append_right _ List.mem_cons_self)

/-- The first letter is a slash where it was one. -/
theorem head?_spelling (text : List Char) :
    (spelling text).head? = some '/' ↔ text.head? = some '/' := by
  cases text with
  | nil => rfl
  | cons c text =>
    have hne : spelling [c] ≠ [] := spelling_eq_nil.not.mpr (List.cons_ne_nil _ _)
    rw [← List.singleton_append, spelling_append, List.head?_append_of_ne_nil _ hne]
    constructor
    · intro h
      have hmem := slash_mem_spelling.mp (List.mem_of_head? h)
      rw [List.mem_singleton.mp hmem]
      rfl
    · intro h
      obtain rfl : c = '/' := Option.some.inj h
      rw [spelling_slash]
      rfl

/-- The last letter is a slash where it was one. -/
theorem getLast?_spelling (text : List Char) :
    (spelling text).getLast? = some '/' ↔ text.getLast? = some '/' := by
  cases text using List.reverseRecOn with
  | nil => rfl
  | append_singleton text c =>
    have hne : spelling [c] ≠ [] := spelling_eq_nil.not.mpr (List.cons_ne_nil _ _)
    rw [spelling_append, List.getLast?_append_of_ne_nil _ hne, List.getLast?_concat]
    constructor
    · intro h
      have hmem := slash_mem_spelling.mp (List.mem_of_getLast? h)
      rw [List.mem_singleton.mp hmem]
    · intro h
      obtain rfl : c = '/' := Option.some.inj h
      rw [spelling_slash]
      rfl

namespace Path

theorem spelling_intercalate (segments : List (List Char)) :
    spelling (List.intercalate ['/'] segments)
      = List.intercalate ['/'] (segments.map spelling) := by
  induction segments with
  | nil => rfl
  | cons segment segments ih =>
    cases segments with
    | nil =>
      rw [List.map_cons, List.map_nil, List.intercalate_singleton, List.intercalate_singleton]
    | cons next segments =>
      rw [List.intercalate_cons_cons, spelling_append, spelling_append, spelling_slash, ih]
      simp only [List.map_cons, List.intercalate_cons_cons]

/-- **The pieces between slashes** are the same pieces. -/
theorem split_spelling (text : List Char) : split (spelling text) = (split text).map spelling := by
  have hne : (split text).map spelling ≠ [] := fun h => split_ne_nil text (List.map_eq_nil_iff.mp h)
  conv_lhs => rw [← intercalate_split text, spelling_intercalate]
  refine split_intercalate hne fun piece hpiece => ?_
  obtain ⟨segment, hsegment, rfl⟩ := List.mem_map.mp hpiece
  exact fun hmem => notMem_of_mem_split hsegment (slash_mem_spelling.mp hmem)

theorem isStep_spelling (first : Bool) (segment : List Char) :
    isStep first (spelling segment) = isStep first segment := by
  rw [isStep, isStep, Bool.eq_iff_iff]
  simp

theorem frontsOf_spelling (first : Bool) (segments : List (List Char)) :
    frontsOf first (segments.map spelling) = (frontsOf first segments).map (List.map spelling) := by
  induction segments generalizing first with
  | nil => rfl
  | cons segment segments ih =>
    rw [List.map_cons, frontsOf, frontsOf, ih, isStep_spelling, List.map_append, List.map_map,
      List.map_map, apply_ite (List.map _)]
    rfl

theorem join_spelling (segments : List (List Char)) :
    join (segments.map spelling) = spell (bytes (join segments)) := by
  rw [← String.toList_inj, toList_spell_bytes, join, join, String.toList_ofList,
    String.toList_ofList, spelling_intercalate]

end Path

namespace BytePath

/-! ## A path that is a text -/

theorem isAbsolute_ofPath (path : Path) : (ofPath path).spelled.isAbsolute = path.isAbsolute := by
  rw [Path.isAbsolute, Path.isAbsolute, Bool.eq_iff_iff, beq_iff_eq, beq_iff_eq]
  show (spell (bytes path.text)).toList.head? = some '/' ↔ _
  rw [toList_spell_bytes, head?_spelling]

theorem fronts_ofPath (path : Path) :
    (ofPath path).spelled.fronts = path.fronts.map (List.map spelling) := by
  rw [Path.fronts, Path.fronts, ← Path.frontsOf_spelling, Path.segments, Path.segments,
    ← Path.split_spelling, ← toList_spell_bytes]
  rfl

/-- **The parent of a text** is the same in bytes. -/
theorem parent?_ofPath (path : Path) : (ofPath path).parent? = path.parent?.map ofPath := by
  have hspelled : (ofPath path).spelled.parent?
      = path.parent?.map fun parent => (ofPath parent).spelled := by
    rw [Path.parent?, Path.parent?, fronts_ofPath, isAbsolute_ofPath]
    cases path.fronts with
    | nil => rfl
    | cons front shorter =>
      cases shorter with
      | nil => cases path.isAbsolute <;> rfl
      | cons next shorter => exact congrArg (some ∘ Path.mk) (Path.join_spelling next)
  rw [parent?, hspelled, Option.map_map]
  exact congrArg (path.parent?.map ·) (funext fun parent => ofSpelled_spelled (ofPath parent))

/-- **The name at the end of a text** is the same in bytes. -/
theorem fileName?_ofPath (path : Path) : (ofPath path).fileName? = path.fileName?.map bytes := by
  have hspelled : (ofPath path).spelled.fileName?
      = path.fileName?.map fun name => spell (bytes name) := by
    have hlast : (path.fronts.map (List.map spelling)).head?.bind List.getLast?
        = (path.fronts.head?.bind List.getLast?).map spelling := by
      cases path.fronts with
      | nil => rfl
      | cons front shorter => exact List.getLast?_map
    rw [Path.fileName?, Path.fileName?, fronts_ofPath, hlast]
    cases path.fronts.head?.bind List.getLast? with
    | none => rfl
    | some step =>
      simp only [Option.map_some, Bool.or_eq_true, beq_iff_eq, spelling_eq_point,
        spelling_eq_points]
      split
      · rfl
      · refine congrArg some (String.toList_inj.mp ?_)
        rw [toList_spell_bytes, String.toList_ofList, String.toList_ofList]
  rw [fileName?, hspelled, Option.map_map]
  exact congrArg (path.fileName?.map ·) (funext fun name => unspell_spell (bytes name))

/-- **What is inside a text** is the same in bytes. -/
theorem inside_ofPath (directory : Path) (inner : String) :
    (ofPath directory).inside inner = ofPath (directory.inside inner) := by
  have hspelled : (ofPath directory).spelled.inside (spell (bytes inner))
      = (ofPath (directory.inside inner)).spelled := by
    show Path.inside ⟨spell (bytes directory.text)⟩ _
      = ⟨spell (bytes (directory.inside inner).text)⟩
    have hhead : ((spell (bytes inner)).toList.head? == some '/')
        = (inner.toList.head? == some '/') := by
      rw [Bool.eq_iff_iff, beq_iff_eq, beq_iff_eq, toList_spell_bytes, head?_spelling]
    have hlast : ((spell (bytes directory.text)).toList.getLast? == some '/')
        = (directory.text.toList.getLast? == some '/') := by
      rw [Bool.eq_iff_iff, beq_iff_eq, beq_iff_eq, toList_spell_bytes, getLast?_spelling]
    have hempty : (spell (bytes directory.text)).toList.isEmpty
        = directory.text.toList.isEmpty := by
      rw [Bool.eq_iff_iff, List.isEmpty_iff, List.isEmpty_iff, toList_spell_bytes, spelling_eq_nil]
    rw [Path.inside, Path.inside, hhead, hlast, hempty]
    split
    · rfl
    · split
      · rw [spell_bytes_append]
      · rw [spell_bytes_append, spell_bytes_append]
        rfl
  rw [inside, hspelled, ofSpelled_spelled]

/-- The text shown for the name at the end of a text is this name. -/
theorem shownName?_ofPath (path : Path) : (ofPath path).shownName? = path.fileName? := by
  have hbytes : lossy ∘ bytes = id := funext lossy_bytes
  rw [shownName?, fileName?_ofPath, Option.map_map, hbytes, Option.map_id]
  rfl

end BytePath

namespace CommandLine.Arguments

/-- The name of the file of the schema is the one at the end of its path. -/
theorem schemaFileName_eq (arguments : Arguments) :
    arguments.schemaFileName = arguments.schema.fileName?.getD "schema.graphql" :=
  congrArg (Option.getD · "schema.graphql") (BytePath.shownName?_ofPath arguments.schema)

/-- **The directory to write to** is the same in bytes. -/
theorem raw_outputDirectory (arguments : Arguments) :
    arguments.raw.outputDirectory = .ofPath arguments.outputDirectory := by
  rw [RawArguments.outputDirectory, outputDirectory, raw]
  cases arguments.outDir? with
  | some directory => rfl
  | none =>
    show (BytePath.ofPath arguments.schema).parent?.getD _ = _
    rw [BytePath.parent?_ofPath]
    cases arguments.schema.parent? <;> rfl

end CommandLine.Arguments

end SchemaScaffold
