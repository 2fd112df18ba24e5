import SchemaScaffold.Proofs.BytePath

/-!
# The components of a path

Two texts may be the same path as far as anybody can tell who walks along it:
`a//b` and `a/./b/` have the steps of `a/b`. What they have in common are their
**components** (`Path.components`), which are the segments without those that
stay where they are. Only at the front does such a segment count, for a path
may start at the root or with a point.

The parent of a path and the name at its end are read off its text, each in its
own way, and the text of the parent is that of the path cut off somewhere. For
both it has to be seen that the cut is where the last component begins
(`Path.EndsWith.components_eq`). The front is where this is delicate. The point
of `./.` is its first component and its last, and what is in front of it is
empty; of the two slashes of `//a` the parent keeps one, and this one is a
component. A name, on the other hand, goes behind the components of whatever
directory it is put in, be its text empty or end with a slash
(`Path.components_inside`).

So a schema is found again, as the same sequence of components, by the name at
its end in the directory that is written to unless another is asked for. What
is written down of a name is a text, though, and the name itself is bytes: the
schema is found again just if they are the bytes of a text
(`CommandLine.RawArguments.writes_beside_schema`). Components in bytes are
those of the path with a letter for each byte, so all that is shown here of
texts is shown of them.
-/

namespace SchemaScaffold

/-- **A component of a path.** -/
inductive Component where
  /-- The root. -/
  | root
  /-- The directory itself, as a point at the front of a path. -/
  | current
  /-- The directory that a directory is in. -/
  | up
  /-- What has the given name. -/
  | name (text : String)
  deriving DecidableEq, Repr

/-- The component that a segment is, if it is one. -/
def Component.ofSegment (segment : List Char) : Component :=
  if segment = ['.'] then .current
  else if segment = ['.', '.'] then .up
  else .name (String.ofList segment)

namespace Path

/-- The components of segments that are not at the front: those that do not
stay where they are. -/
def kept (segments : List (List Char)) : List Component :=
  (segments.filter fun segment => !stays segment).map Component.ofSegment

/-- What a path starts with: the root, if the path starts with a slash, or a
point, if its first segment is one. -/
def leading (path : Path) : List Component :=
  if path.isAbsolute then [.root]
  else if path.segments.head? = some ['.'] then [.current]
  else []

/-- **The components of a path**: what it starts with, and then all segments
but empty ones and points. -/
def components (path : Path) : List Component := path.leading ++ kept path.segments

variable {path other parent : Path} {name : String} {segment step : List Char}
  {segments others rest rest' front blank : List (List Char)}

/-! ## Segments that are kept -/

@[simp] theorem kept_append : kept (segments ++ others) = kept segments ++ kept others := by
  rw [kept, List.filter_append, List.map_append]
  rfl

theorem kept_eq_nil (h : ∀ segment ∈ segments, stays segment = true) : kept segments = [] := by
  rw [kept, List.map_eq_nil_iff, List.filter_eq_nil_iff]
  intro segment hsegment
  rw [h segment hsegment]
  exact Bool.false_ne_true

theorem kept_singleton (h : stays segment = false) : kept [segment] = [.ofSegment segment] := by
  rw [kept, List.filter_singleton, h]
  rfl

theorem stays_eq_false : stays segment = false ↔ segment ≠ [] ∧ segment ≠ ['.'] := by
  rw [Path.stays, Bool.or_eq_false_iff, beq_eq_false_iff_ne, beq_eq_false_iff_ne]

/-- A step that is not the first segment does not stay. -/
theorem stays_of_isStep (h : isStep false step = true) : stays step = false := by
  rw [isStep, Bool.false_or, Bool.and_eq_true] at h
  exact stays_eq_false.mpr ⟨bne_iff_ne.mp h.1, bne_iff_ne.mp h.2⟩

/-- A plain name is the component of its name. -/
theorem ofSegment_of_isPlain (h : IsPlain name) : Component.ofSegment name.toList = .name name := by
  obtain ⟨-, hpoint⟩ := stays_eq_false.mp h.2.1
  rw [Component.ofSegment, if_neg hpoint, if_neg h.2.2, String.ofList_toList]

/-! ## What a path starts with -/

/-- A path that starts with a slash has an empty segment in front of others. -/
theorem isAbsolute_iff (h : path.segments = segment :: rest) :
    path.isAbsolute = true ↔ segment = [] ∧ rest ≠ [] := by
  rw [segments] at h
  rw [isAbsolute]
  cases htext : path.text.toList with
  | nil =>
    rw [htext] at h
    obtain ⟨rfl, rfl⟩ := List.cons.inj h
    simp
  | cons c text =>
    rw [htext, split] at h
    by_cases hc : c = '/'
    · rw [if_pos hc] at h
      obtain ⟨rfl, rfl⟩ := List.cons.inj h
      simp [hc, split_ne_nil]
    · rw [if_neg hc] at h
      have hsegment : segment ≠ [] := by
        rintro rfl
        split at h <;> cases h
      simp [hc, hsegment]

/-- **What a path starts with** can be seen in its first segment, and in
whether there are others if this one is empty. -/
theorem leading_congr (h : path.segments = segment :: rest) (h' : other.segments = segment :: rest')
    (hrest : segment = [] → (rest = [] ↔ rest' = [])) : path.leading = other.leading := by
  have habsolute : path.isAbsolute = other.isAbsolute := by
    rw [Bool.eq_iff_iff, isAbsolute_iff h, isAbsolute_iff h']
    exact and_congr_right fun hempty => not_congr (hrest hempty)
  rw [leading, leading, habsolute, h, h']
  rfl

theorem leading_of_isAbsolute (h : path.isAbsolute = true) : path.leading = [.root] := if_pos h

theorem leading_eq_nil (h : path.segments = segment :: rest) (hrest : segment = [] → rest = [])
    (hpoint : segment ≠ ['.']) : path.leading = [] := by
  have habsolute : ¬path.isAbsolute = true := fun habsolute =>
    have ⟨hempty, hne⟩ := (isAbsolute_iff h).mp habsolute
    hne (hrest hempty)
  rw [leading, if_neg habsolute, h]
  exact if_neg fun hhead => hpoint (Option.some.inj hhead)

/-! ## A name in a directory -/

/-- What stands in front of a name in a directory is kept as it was in the
directory, and starts as it did. -/
theorem exists_segments_inside (directory : Path) (h : IsPlain name) :
    ∃ front, (directory.inside name).segments = front ++ [name.toList] ∧
      kept front = kept directory.segments ∧
      (directory.inside name).leading = directory.leading := by
  obtain ⟨hdirectory, hinside⟩ | ⟨front, hfront, hdirectory, hinside⟩ | ⟨hdirectory, hinside⟩ :=
    directory.segments_inside_cases h
  · obtain ⟨-, hpoint⟩ := stays_eq_false.mp h.2.1
    refine ⟨[], hinside, by rw [hdirectory]; rfl, ?_⟩
    rw [leading_eq_nil hinside (fun _ => rfl) hpoint,
      leading_eq_nil hdirectory (fun _ => rfl) (by decide)]
  · obtain ⟨segment, rest, rfl⟩ := List.exists_cons_of_ne_nil hfront
    refine ⟨segment :: rest, hinside, ?_, leading_congr hinside hdirectory fun _ => by simp⟩
    rw [hdirectory, kept_append]
    exact (List.append_nil _).symm
  · obtain ⟨segment, rest, hsegments⟩ :=
      List.exists_cons_of_ne_nil (split_ne_nil directory.text.toList)
    have hsegments : directory.segments = segment :: rest := hsegments
    refine ⟨directory.segments, hinside, rfl, ?_⟩
    rw [hsegments] at hinside hdirectory
    refine leading_congr hinside hsegments fun hempty => ?_
    -- an empty segment is not the only one
    have hrest : rest ≠ [] := fun hrest => hdirectory (congrArg₂ List.cons hempty hrest)
    simp [hrest]

/-- **A plain name in a directory** is one component more. -/
theorem components_inside (directory : Path) (h : IsPlain name) :
    (directory.inside name).components = directory.components ++ [.name name] := by
  obtain ⟨front, hsegments, hfront, hleading⟩ := exists_segments_inside directory h
  rw [components, components, hsegments, kept_append, kept_singleton h.2.1,
    ofSegment_of_isPlain h, hfront, hleading, List.append_assoc]

/-! ## The parent of a path -/

/-- A step is not an empty segment. -/
theorem ne_nil_of_isStep {first : Bool} (h : isStep first step = true) : step ≠ [] := by
  rintro rfl
  exact Bool.false_ne_true h

/-- A step with nothing in front of it is the only component. A point is what
the path starts with, and anything else is kept. -/
theorem EndsWith.components_of_nil (h : path.EndsWith [] step blank) :
    path.isAbsolute = false ∧ path.components = [.ofSegment step] := by
  have hsegments : path.segments = step :: blank := h.segments_eq
  have hne := ne_nil_of_isStep h.isStep
  have habsolute : ¬path.isAbsolute = true := fun habsolute =>
    hne ((isAbsolute_iff hsegments).mp habsolute).1
  refine ⟨Bool.eq_false_iff.mpr habsolute, ?_⟩
  have hkept : kept path.segments = kept [step] := by
    rw [hsegments, ← List.singleton_append, kept_append, kept_eq_nil h.stays, List.append_nil]
  rw [components, hkept]
  by_cases hpoint : step = ['.']
  · rw [leading, if_neg habsolute, hsegments, hpoint]
    rfl
  · rw [leading_eq_nil hsegments (fun hempty => absurd hempty hne) hpoint,
      kept_singleton (stays_eq_false.mpr ⟨hne, hpoint⟩), List.nil_append]

/-- A step with segments in front of it is kept behind those. -/
theorem EndsWith.components_of_ne_nil (h : path.EndsWith front step blank) (hne : front ≠ []) :
    path.components = path.leading ++ kept front ++ [.ofSegment step] := by
  have hstep := h.isStep
  rw [List.isEmpty_eq_false_iff.mpr hne] at hstep
  rw [components, h.segments_eq, kept_append, ← List.singleton_append (x := step), kept_append,
    kept_singleton (stays_of_isStep hstep), kept_eq_nil h.stays, List.append_nil,
    List.append_assoc]

/-- Segments without slashes are those of their text. -/
theorem segments_join (hne : segments ≠ []) (h : ∀ segment ∈ segments, '/' ∉ segment) :
    (Path.mk (join segments)).segments = segments := by
  rw [Path.segments, join, String.toList_ofList, split_intercalate hne h]

/-- **The parent of a path has its components but the last**, and that one is
the last step of the path. -/
theorem EndsWith.components_eq (h : path.EndsWith front step blank)
    (hparent : path.parent? = some parent) :
    path.components = parent.components ++ [.ofSegment step] := by
  obtain rfl := Option.some.inj (hparent.symm.trans h.parent?_eq)
  obtain hnone | ⟨shorter, last, between, hfront, hlast, hbetween, hfronts⟩ :=
    frontsOf_cases true front
  · rw [hnone]
    cases front with
    | nil =>
      obtain ⟨habsolute, hcomponents⟩ := h.components_of_nil
      rw [hcomponents, habsolute]
      rfl
    | cons segment rest =>
      have habsolute : path.isAbsolute = true :=
        (isAbsolute_iff h.segments_eq).mpr ⟨eq_nil_of_frontsOf_cons hnone, by simp⟩
      rw [h.components_of_ne_nil (List.cons_ne_nil _ _),
        kept_eq_nil (stays_of_frontsOf_eq_nil hnone), List.append_nil,
        leading_of_isAbsolute habsolute, habsolute]
      rfl
  · rw [hfronts]
    have hne : shorter ++ [last] ≠ [] := List.append_ne_nil_of_right_ne_nil _ (List.cons_ne_nil _ _)
    have hpath : path.segments = (shorter ++ [last]) ++ (between ++ step :: blank) := by
      rw [h.segments_eq, hfront]
      simp
    have hjoin : (Path.mk (join (shorter ++ [last]))).segments = shorter ++ [last] := by
      refine segments_join hne fun segment hsegment => ?_
      have hmem : segment ∈ path.segments := hpath ▸ List.mem_append_left _ hsegment
      exact notMem_of_mem_split hmem
    have hkept : kept front = kept (shorter ++ [last]) := by
      rw [hfront, List.append_cons, kept_append, kept_eq_nil hbetween, List.append_nil]
    have hleading : path.leading = (Path.mk (join (shorter ++ [last]))).leading := by
      obtain ⟨segment, more, hfirst⟩ := List.exists_cons_of_ne_nil hne
      rw [hfirst] at hpath
      refine leading_congr hpath (hjoin.trans hfirst) fun hempty => ?_
      -- the last of these segments is a step, so an empty one is not the only one
      have hmore : more ≠ [] := by
        rintro rfl
        have hlastEmpty := congrArg List.getLast? (hfirst.trans (congrArg ([·]) hempty))
        rw [List.getLast?_append_of_ne_nil _ (List.cons_ne_nil _ _)] at hlastEmpty
        exact ne_nil_of_isStep hlast (Option.some.inj hlastEmpty)
      simp [hmore]
    rw [h.components_of_ne_nil (hfront ▸ by simp), hkept, hleading, components, hjoin]

/-! ## Which component is the last -/

/-- **A path without a step** has no components but the root. -/
theorem components_of_fronts_eq_nil (h : path.fronts = []) :
    path.components = if path.isAbsolute then [.root] else [] := by
  have hpoint : path.segments.head? ≠ some ['.'] := by
    intro hhead
    -- a point at the front is a step
    obtain ⟨rest, hrest⟩ := List.head?_eq_some_iff.mp hhead
    rw [fronts, hrest] at h
    exact List.cons_ne_nil _ _ (eq_nil_of_frontsOf_cons h)
  rw [components, kept_eq_nil (stays_of_frontsOf_eq_nil h), List.append_nil, leading, if_neg hpoint]

theorem EndsWith.getLast?_components (h : path.EndsWith front step blank) :
    path.components.getLast? = some (.ofSegment step) := by
  rw [h.components_eq h.parent?_eq, List.getLast?_append_of_ne_nil _ (List.cons_ne_nil _ _)]
  rfl

/-- No segment is the root. -/
theorem ofSegment_ne_root (segment : List Char) : Component.ofSegment segment ≠ .root := by
  intro h
  rw [Component.ofSegment] at h
  split at h
  · cases h
  · split at h <;> cases h

/-- **A path without a parent** has no components, or just the root. -/
theorem parent?_eq_none :
    path.parent? = none ↔ path.components = [] ∨ path.components = [.root] := by
  obtain hnone | ⟨front, step, blank, hends⟩ := path.fronts_eq_nil_or_endsWith
  · rw [parent?, hnone, components_of_fronts_eq_nil hnone]
    cases path.isAbsolute <;> simp
  · have hlast := hends.getLast?_components
    rw [hends.parent?_eq]
    constructor
    · intro h
      cases h
    · rintro (h | h)
      · rw [h] at hlast
        cases hlast
      · rw [h] at hlast
        exact absurd (Option.some.inj hlast).symm (ofSegment_ne_root step)

/-- **The name at the end of a path** is its last component, if that is a
name. -/
theorem fileName?_eq_some :
    path.fileName? = some name ↔ path.components.getLast? = some (.name name) := by
  obtain hnone | ⟨front, step, blank, hends⟩ := path.fronts_eq_nil_or_endsWith
  · rw [fileName?, hnone, components_of_fronts_eq_nil hnone]
    cases path.isAbsolute <;> simp
  · rw [hends.fileName?_eq, hends.getLast?_components, Component.ofSegment]
    by_cases hpoint : step = ['.']
    · simp [hpoint]
    · by_cases hup : step = ['.', '.']
      · simp [hup]
      · simp [hpoint, hup]

/-- **The name of a path in its parent** is the path again, component by
component. -/
theorem components_parent_inside (hname : path.fileName? = some name)
    (hparent : path.parent? = some parent) :
    path.components = parent.components ++ [.name name] ∧
      (parent.inside name).components = path.components := by
  obtain ⟨front, blank, hends, hplain⟩ := exists_endsWith_of_fileName? hname
  have hcomponents := hends.components_eq hparent
  rw [ofSegment_of_isPlain hplain] at hcomponents
  exact ⟨hcomponents, by rw [components_inside parent hplain, hcomponents]⟩

end Path

/-! ## Components in bytes -/

namespace BytePath

variable {path : BytePath} {name : List UInt8}

/-- **The components of a path in bytes**, with a letter for each byte of a
name. -/
def components (path : BytePath) : List Component := path.spelled.components

/-- The name shown for the name at the end of a path is plain, as that one
is. -/
theorem isPlain_shown (h : Path.IsPlain (spell name)) :
    Path.IsPlain (spell (bytes (lossy name))) := by
  -- a text without a mark is shown only for its own bytes
  have hshown {text : List Char} (hmark : Lossy.replacement ∉ text)
      (htext : (lossy name).toList = text) : (spell name).toList = spelling text := by
    rw [lossy, String.toList_ofList] at htext
    have hname := (Lossy.reads name).eq_flatMap (htext ▸ hmark)
    rw [spell, String.toList_ofList, hname, htext]
    rfl
  obtain ⟨hslash, hstays, hup⟩ := h
  obtain ⟨hempty, hpoint⟩ := Path.stays_eq_false.mp hstays
  rw [Path.IsPlain, toList_spell_bytes]
  refine ⟨fun hmem => hslash ?_, Path.stays_eq_false.mpr ⟨fun hnil => hempty ?_, fun hshow =>
    hpoint ?_⟩, fun hshow => hup ?_⟩
  · have hread := slash_mem_spelling.mp hmem
    rw [lossy, String.toList_ofList] at hread
    rw [spell, String.toList_ofList]
    exact List.mem_map_of_mem ((Lossy.reads name).slash_mem hread)
  · exact hshown List.not_mem_nil (spelling_eq_nil.mp hnil)
  · exact (hshown (by decide) (spelling_eq_point.mp hshow)).trans (by decide)
  · exact (hshown (by decide) (spelling_eq_points.mp hshow)).trans (by decide)

/-- **A plain name in a directory** is one component more. -/
theorem components_inside_shown (directory : BytePath) {inner : String}
    (h : Path.IsPlain (spell (bytes inner))) :
    (directory.inside inner).components
      = directory.components ++ [.name (spell (bytes inner))] := by
  rw [components, spelled_inside, Path.components_inside directory.spelled h]
  rfl

/-- **A path with a name at its end** is its parent and this name. -/
theorem exists_parent?_of_fileName? (h : path.fileName? = some name) :
    ∃ parent, path.parent? = some parent ∧ Path.IsPlain (spell name) ∧
      path.components = parent.components ++ [.name (spell name)] := by
  have hname := fileName?_eq_some.mp h
  obtain ⟨front, blank, hends, hplain⟩ := Path.exists_endsWith_of_fileName? hname
  have hparent : path.parent? = some (ofSpelled _) :=
    congrArg (Option.map ofSpelled) hends.parent?_eq
  exact ⟨_, hparent, hplain, (Path.components_parent_inside hname (parent?_eq_some.mp hparent)).1⟩

end BytePath

/-- The file of a stage has ASCII letters only. -/
theorem Stage.spell_bytes_file (stage : Stage) :
    spell (bytes (stage.name ++ ".py")) = stage.name ++ ".py" := by
  cases stage <;> decide +kernel

namespace CommandLine.RawArguments

variable {arguments : RawArguments}

/-- **What is written goes beside the schema**, unless a directory is named.
Let the path of the schema have a name at its end, which it does just if its
last component is one. The modules then have all its components but the last in
front of their own names. The name that is shown, in the directory that is
written to, is the path of the schema again, component by component, **just if
the name is a text**; the directories in front of it need not be.

Without a name the schema counts as `schema.graphql`, and without a parent, that
is with no component but perhaps the root, the directory is the one that the
command runs in. A parent there may be without a name, and then it is the
directory. For arguments that are texts a run has these paths, in bytes. -/
theorem writes_beside_schema (h : arguments.outDir? = none) :
    (∀ name, arguments.schema.fileName? = some name ↔
      arguments.schema.components.getLast? = some (.name (spell name))) ∧
    (∀ name, arguments.schema.fileName? = some name →
      ((arguments.outputDirectory.inside arguments.schemaFileName).components
          = arguments.schema.components ↔ name.toByteArray.IsValidUTF8) ∧
      ∀ stage : Stage, (arguments.outputDirectory.inside (stage.name ++ ".py")).components
        = arguments.schema.components.dropLast ++ [.name (stage.name ++ ".py")]) ∧
    (arguments.schema.fileName? = none → arguments.schemaFileName = "schema.graphql") ∧
    (arguments.schema.parent? = none ↔
      arguments.schema.components = [] ∨ arguments.schema.components = [.root]) ∧
    (∀ parent, arguments.schema.parent? = some parent → arguments.outputDirectory = parent) ∧
    (arguments.schema.parent? = none → arguments.outputDirectory = .ofPath ⟨"."⟩) ∧
    ∀ given : Arguments, given.raw = arguments →
      given.schemaFileName = arguments.schemaFileName ∧
      .ofPath given.outputDirectory = arguments.outputDirectory ∧
      ∀ stage : Stage, .ofPath (stage.pathIn given.outputDirectory)
        = arguments.outputDirectory.inside (stage.name ++ ".py") := by
  have hdirectory : arguments.outputDirectory
      = arguments.schema.parent?.getD (.ofPath ⟨"."⟩) := by rw [outputDirectory, h]
  refine ⟨fun name => ?_, fun name hname => ?_, fun hnone => ?_, ?_, fun parent hparent => ?_,
    fun hnone => ?_, fun given hgiven => ?_⟩
  · rw [BytePath.fileName?_eq_some, Path.fileName?_eq_some, BytePath.components]
  · obtain ⟨parent, hparent, hplain, hcomponents⟩ := BytePath.exists_parent?_of_fileName? hname
    have hshown : arguments.schemaFileName = lossy name := by
      rw [schemaFileName, BytePath.shownName?, hname]
      rfl
    rw [hdirectory, hparent, Option.getD_some, hshown]
    constructor
    · rw [parent.components_inside_shown (BytePath.isPlain_shown hplain), hcomponents,
        List.append_cancel_left_eq, List.singleton_inj, Component.name.injEq,
        spell_injective.eq_iff, bytes_lossy]
    · intro stage
      have hfile : Path.IsPlain (spell (bytes (stage.name ++ ".py"))) := by
        rw [stage.spell_bytes_file]
        exact stage.plain_file
      rw [parent.components_inside_shown hfile, stage.spell_bytes_file, hcomponents,
        List.dropLast_concat]
  · rw [schemaFileName, BytePath.shownName?, hnone]
    rfl
  · rw [BytePath.parent?, Option.map_eq_none_iff, Path.parent?_eq_none, BytePath.components]
  · rw [hdirectory, hparent, Option.getD_some]
  · rw [hdirectory, hnone, Option.getD_none]
  · subst hgiven
    refine ⟨rfl, given.raw_outputDirectory.symm, fun stage => ?_⟩
    rw [given.raw_outputDirectory, BytePath.inside_ofPath, Stage.pathIn]

/-- **A path with a bit of everything**: a point in front, a directory that is
no text, slashes that are doubled, a way up, and a point and a slash at the
end. -/
theorem writes_beside_schema_detour :
    let arguments : RawArguments :=
      { schema := ⟨bytes "./" ++ [0xff] ++ bytes "//v1/.././schema.graphql/./"⟩ }
    arguments.schema.fileName? = some (bytes "schema.graphql") ∧
    arguments.outputDirectory = ⟨bytes "./" ++ [0xff] ++ bytes "//v1/.."⟩ ∧
    arguments.schema.components
      = [.current, .name (spell [0xff]), .name "v1", .up, .name "schema.graphql"] ∧
    (arguments.outputDirectory.inside arguments.schemaFileName).components
      = arguments.schema.components ∧
    (arguments.outputDirectory.inside "types.py").components
      = [.current, .name (spell [0xff]), .name "v1", .up, .name "types.py"] := by
  intro arguments
  have hname : arguments.schema.fileName? = some (bytes "schema.graphql") := by decide +kernel
  have hcomponents : arguments.schema.components
      = [.current, .name (spell [0xff]), .name "v1", .up, .name "schema.graphql"] := by
    decide +kernel
  have htext : (bytes "schema.graphql").toByteArray.IsValidUTF8 :=
    bytes_lossy.mp (congrArg bytes (lossy_bytes "schema.graphql"))
  have hnone : arguments.outDir? = none := rfl
  obtain ⟨-, hbeside, -⟩ := writes_beside_schema hnone
  obtain ⟨hinside, hstages⟩ := hbeside _ hname
  refine ⟨hname, by decide +kernel, hcomponents, hinside.mpr htext, ?_⟩
  have htypes := hstages .types
  rw [hcomponents] at htypes
  exact htypes

/-- **A name that is no text is not found again**, and a way up at the end of a
path is no name while it has a parent. -/
theorem schema_not_found_again :
    let broken : RawArguments := { schema := ⟨bytes "a/" ++ [0xff] ++ bytes ".graphql"⟩ }
    let up : RawArguments := { schema := .ofPath ⟨"a/.."⟩ }
    (broken.outDir? = none ∧
      broken.schema.fileName? = some ([0xff] ++ bytes ".graphql") ∧
      broken.schemaFileName = "\uFFFD.graphql" ∧
      broken.outputDirectory = .ofPath ⟨"a"⟩ ∧
      (broken.outputDirectory.inside broken.schemaFileName).components
        ≠ broken.schema.components) ∧
    up.outDir? = none ∧ up.schema.fileName? = none ∧
      up.schemaFileName = "schema.graphql" ∧
      up.outputDirectory = .ofPath ⟨"a"⟩ ∧ up.outputDirectory ≠ .ofPath ⟨"."⟩ := by
  decide +kernel

end CommandLine.RawArguments

end SchemaScaffold
