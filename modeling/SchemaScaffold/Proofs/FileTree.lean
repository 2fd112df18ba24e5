import Mathlib.Data.List.TakeWhile
import SchemaScaffold.Proofs.Outcome
import SchemaScaffold.Output.FileTree

/-!
# What becomes of a tree of files

Two things are done to a tree. Directories are made where nothing was, and
then the tree **grows** (`FileTree.Grows`); a text is written, and then one
location has a new file. Either way the directories that were there are
there still (`FileTree.Keeps`), and this is all that walking along a path
depends on: a path that leads somewhere leads to the same place ever after
(`FileTree.Keeps.locate`).

So a file can be followed through all that comes later by its location. No
other change reaches it but a write to a path that leads there.
-/

namespace SchemaScaffold.FileTree

variable {tree before middle after made : FileTree} {path : Path} {location other : Location}

/-! ## Nodes and files -/

/-- Leaving out the rows of one location does not change what is found at
another. -/
theorem lookup_filter (nodes : List (Location × Node)) (h : other ≠ location) :
    (nodes.filter fun n => n.fst != location).lookup other = nodes.lookup other := by
  induction nodes with
  | nil => rfl
  | cons n nodes ih =>
    obtain ⟨found, node⟩ := n
    by_cases hfound : found = location
    · have hne : (other == found) = false := beq_eq_false_iff_ne.mpr (hfound ▸ h)
      rw [List.filter_cons_of_neg (by simp [hfound]), ih, List.lookup_cons, hne]
    · rw [List.filter_cons_of_pos (by simpa using hfound), List.lookup_cons, List.lookup_cons, ih]

/-- **A node that is set is found where it was set**, unless that is the
root, and nothing else is changed. -/
theorem node?_setNode (tree : FileTree) (location other : Location) (node : Node) :
    (tree.setNode location node).node? other
      = if other = [] then some .directory
        else if other = location then some node else tree.node? other := by
  rw [node?, node?]
  by_cases hroot : other = []
  · rw [if_pos hroot, if_pos hroot]
  · rw [if_neg hroot, if_neg hroot, if_neg hroot, setNode, List.lookup_cons]
    by_cases h : other = location
    · rw [if_pos h, beq_iff_eq.mpr h]
    · rw [if_neg h, beq_eq_false_iff_ne.mpr h]
      exact lookup_filter tree.nodes h

@[simp] theorem node?_root (tree : FileTree) : tree.node? [] = some .directory := rfl

/-- What is not the root is set for good. -/
theorem node?_setNode_of_ne (tree : FileTree) (h : location ≠ []) (other : Location)
    (node : Node) : (tree.setNode location node).node? other
      = if other = location then some node else tree.node? other := by
  rw [node?_setNode]
  by_cases hroot : other = []
  · rw [if_pos hroot, hroot, if_neg (Ne.symm h), node?_root]
  · rw [if_neg hroot]

/-- **The bytes of the file at a location**, if a file is there. -/
def fileAt? (tree : FileTree) (location : Location) : Option ByteArray :=
  match tree.node? location with
  | some (.file bytes) => some bytes
  | some .directory => none
  | none => none

/-! ## Growing -/

/-- **Nothing has changed but for directories**, which are new where nothing
was. -/
structure Grows (before after : FileTree) : Prop where
  /-- Relative paths start from the same place. -/
  workingDirectory_eq : after.workingDirectory = before.workingDirectory
  /-- A location has what it had, or it had nothing and has a directory. -/
  node?_eq (location : Location) : after.node? location = before.node? location ∨
    before.node? location = none ∧ after.node? location = some .directory

/-- **The directories that were there are there still.** -/
structure Keeps (before after : FileTree) : Prop where
  /-- Relative paths start from the same place. -/
  workingDirectory_eq : after.workingDirectory = before.workingDirectory
  /-- No directory is gone. -/
  node?_eq {location : Location} : before.node? location = some .directory →
    after.node? location = some .directory

theorem Grows.refl (tree : FileTree) : tree.Grows tree := ⟨rfl, fun _ => .inl rfl⟩

theorem Grows.trans (h : before.Grows middle) (h' : middle.Grows after) : before.Grows after := by
  refine ⟨h'.workingDirectory_eq.trans h.workingDirectory_eq, fun location => ?_⟩
  obtain heq | ⟨hnone, hdirectory⟩ := h.node?_eq location
  · rw [← heq]
    exact h'.node?_eq location
  · obtain heq' | ⟨hnone', -⟩ := h'.node?_eq location
    · exact .inr ⟨hnone, heq'.trans hdirectory⟩
    · rw [hnone'] at hdirectory
      cases hdirectory

theorem Keeps.refl (tree : FileTree) : tree.Keeps tree := ⟨rfl, id⟩

theorem Keeps.trans (h : before.Keeps middle) (h' : middle.Keeps after) : before.Keeps after :=
  ⟨h'.workingDirectory_eq.trans h.workingDirectory_eq, fun hlocation =>
    h'.node?_eq (h.node?_eq hlocation)⟩

theorem Grows.keeps (h : before.Grows after) : before.Keeps after := by
  refine ⟨h.workingDirectory_eq, fun {location} hlocation => ?_⟩
  obtain heq | ⟨hnone, -⟩ := h.node?_eq location
  · rw [heq, hlocation]
  · rw [hnone] at hlocation
    cases hlocation

/-- **Growing leaves all files as they are.** -/
theorem Grows.fileAt?_eq (h : before.Grows after) (location : Location) :
    after.fileAt? location = before.fileAt? location := by
  unfold fileAt?
  obtain heq | ⟨hnone, hdirectory⟩ := h.node?_eq location
  · rw [heq]
  · rw [hnone, hdirectory]

theorem grows_setNode (h : tree.node? location = none) :
    tree.Grows (tree.setNode location .directory) := by
  refine ⟨rfl, fun other => ?_⟩
  rw [node?_setNode]
  by_cases hroot : other = []
  · rw [if_pos hroot, hroot]
    exact .inl rfl
  · by_cases hother : other = location
    · rw [if_neg hroot, if_pos hother, hother]
      exact .inr ⟨h, rfl⟩
    · rw [if_neg hroot, if_neg hother]
      exact .inl rfl

/-- A node that is set where no directory was keeps the directories. -/
theorem keeps_setNode {node : Node} (h : tree.node? location ≠ some .directory) :
    tree.Keeps (tree.setNode location node) := by
  refine ⟨rfl, fun {other} hother => ?_⟩
  rw [node?_setNode]
  have hne : other ≠ location := by
    rintro rfl
    exact h hother
  by_cases hroot : other = []
  · rw [if_pos hroot]
  · rw [if_neg hroot, if_neg hne, hother]

/-! ## Walking -/

section Walking

variable {start : Location} {segment : List Char} {segments : List (List Char)}

/-- A step is taken from a directory, if the name is short enough. -/
theorem walk_of_directory (hstart : tree.node? start = some .directory)
    (hshort : ¬nameLimit < (String.ofList segment).utf8ByteSize) :
    tree.walk start (segment :: segments) = tree.walk (step start segment) segments := by
  rw [walk, hstart]
  exact if_neg hshort

/-- **All that can be done where a walk goes on** is a step from a
directory. -/
theorem walk_cons_eq_ok : tree.walk start (segment :: segments) = .ok location ↔
    tree.node? start = some .directory ∧
      ¬nameLimit < (String.ofList segment).utf8ByteSize ∧
      tree.walk (step start segment) segments = .ok location := by
  constructor
  · intro h
    rw [walk] at h
    split at h
    · cases h
    · cases h
    · next hstart =>
      split at h
      · cases h
      · next hshort => exact ⟨hstart, hshort, h⟩
  · rintro ⟨hstart, hshort, h⟩
    rw [walk_of_directory hstart hshort, h]

/-- A walk goes on from where its first part ends. -/
theorem walk_append (tree : FileTree) (location : Location) (front more : List (List Char)) :
    tree.walk location (front ++ more)
      = tree.walk location front >>= fun place => tree.walk place more := by
  induction front generalizing location with
  | nil => rfl
  | cons segment front ih =>
    rw [List.cons_append, walk, walk]
    cases tree.node? location with
    | none => rfl
    | some node =>
      cases node with
      | file bytes => rfl
      | directory =>
        show (if _ then _ else tree.walk _ (front ++ more)) = (if _ then _ else _) >>= _
        split
        · rfl
        · exact ih _

/-- **A walk depends on the directories on its way**, and on nothing
else. -/
theorem Keeps.walk (h : before.Keeps after) (hwalk : before.walk start segments = .ok location) :
    after.walk start segments = .ok location := by
  induction segments generalizing start with
  | nil => exact hwalk
  | cons segment segments ih =>
    obtain ⟨hstart, hshort, hrest⟩ := walk_cons_eq_ok.mp hwalk
    exact walk_cons_eq_ok.mpr ⟨h.node?_eq hstart, hshort, ih hrest⟩

/-- Where a walk leads once directories have been made, it led before, or
there was nothing on its way. -/
theorem Grows.walk (h : before.Grows after) (hwalk : after.walk start segments = .ok location) :
    before.walk start segments = .ok location ∨
      before.walk start segments = .error .notFound := by
  induction segments generalizing start with
  | nil => exact .inl hwalk
  | cons segment segments ih =>
    obtain ⟨hstart, hshort, hrest⟩ := walk_cons_eq_ok.mp hwalk
    obtain heq | ⟨hnone, -⟩ := h.node?_eq start
    · rw [walk_of_directory (heq.symm.trans hstart) hshort]
      exact ih hrest
    · rw [FileTree.walk, hnone]
      exact .inr rfl

/-- **A path is followed by walking along it**, unless it is at fault by
itself. -/
theorem follow_eq_ok : tree.follow path segments = .ok location ↔
    fault? path = none ∧ tree.walk (tree.start path) segments = .ok location := by
  rw [follow]
  cases fault? path with
  | none => exact ⟨fun h => ⟨rfl, h⟩, And.right⟩
  | some error =>
    constructor
    · intro h
      cases h
    · rintro ⟨h, -⟩
      cases h

theorem start_eq (h : after.workingDirectory = before.workingDirectory) (path : Path) :
    after.start path = before.start path := by
  rw [FileTree.start, FileTree.start, h]

theorem Keeps.follow (h : before.Keeps after)
    (hfollow : before.follow path segments = .ok location) :
    after.follow path segments = .ok location := by
  obtain ⟨hfault, hwalk⟩ := follow_eq_ok.mp hfollow
  rw [← start_eq h.workingDirectory_eq] at hwalk
  exact follow_eq_ok.mpr ⟨hfault, h.walk hwalk⟩

end Walking

/-- **A path that leads somewhere** leads to the same place ever after. -/
theorem Keeps.locate (h : before.Keeps after) (hlocate : before.locate path = .ok location) :
    after.locate path = .ok location :=
  h.follow hlocate

/-- **A path that leads somewhere once directories have been made** led there
before, or to nothing. -/
theorem Grows.locate (h : before.Grows after) (hlocate : after.locate path = .ok location) :
    before.locate path = .ok location ∨ before.locate path = .error .notFound := by
  obtain ⟨hfault, hwalk⟩ := follow_eq_ok.mp hlocate
  rw [start_eq h.workingDirectory_eq] at hwalk
  rw [FileTree.locate, FileTree.follow, hfault]
  exact h.walk hwalk

/-- There is a directory at a path just if the path leads to one. -/
theorem isDirectory_iff : tree.isDirectory path = true ↔
    ∃ location, tree.locate path = .ok location ∧ tree.node? location = some .directory := by
  rw [isDirectory]
  cases tree.locate path with
  | error error =>
    constructor
    · intro h
      cases h
    · rintro ⟨location, h, -⟩
      cases h
  | ok location =>
    refine ⟨fun h => ⟨location, rfl, beq_iff_eq.mp h⟩, ?_⟩
    rintro ⟨place, h, hplace⟩
    rw [Except.ok.inj h]
    exact beq_iff_eq.mpr hplace

theorem Keeps.isDirectory (h : before.Keeps after) (hpath : before.isDirectory path = true) :
    after.isDirectory path = true := by
  obtain ⟨location, hlocate, hnode⟩ := isDirectory_iff.mp hpath
  exact isDirectory_iff.mpr ⟨location, h.locate hlocate, h.node?_eq hnode⟩

/-! ## Making directories -/

/-- The segments that name a directory are all but some that stay where they
are. -/
theorem directorySegments_append (path : Path) :
    ∃ blank : List (List Char), path.segments = directorySegments path ++ blank ∧
      ∀ segment ∈ blank, Path.stays segment = true := by
  refine ⟨(path.segments.reverse.takeWhile List.isEmpty).reverse, ?_, fun segment hsegment => ?_⟩
  · rw [directorySegments, ← List.reverse_append, List.takeWhile_append_dropWhile,
      List.reverse_reverse]
  · rw [List.isEmpty_iff.mp (List.mem_takeWhile_imp (List.mem_reverse.mp hsegment))]
    rfl

/-- From a directory, segments that stay lead nowhere else. -/
theorem walk_blank {blank : List (List Char)}
    (hblank : ∀ segment ∈ blank, Path.stays segment = true)
    (h : tree.node? location = some .directory) : tree.walk location blank = .ok location := by
  induction blank with
  | nil => rfl
  | cons segment blank ih =>
    obtain ⟨hstays, hrest⟩ := List.forall_mem_cons.mp hblank
    have hshort : ¬nameLimit < (String.ofList segment).utf8ByteSize := by
      obtain hempty | hpoint := Bool.or_eq_true_iff.mp hstays
      · rw [eq_of_beq hempty]
        decide
      · rw [eq_of_beq hpoint]
        decide
    rw [walk_of_directory h hshort, step, if_pos hstays]
    exact ih hrest

/-- Wherever such segments can be walked, they lead nowhere else. -/
theorem eq_of_walk_blank {blank : List (List Char)}
    (hblank : ∀ segment ∈ blank, Path.stays segment = true)
    (h : tree.walk location blank = .ok other) : other = location := by
  cases blank with
  | nil => exact (Except.ok.inj h).symm
  | cons segment blank =>
    obtain ⟨hnode, -⟩ := walk_cons_eq_ok.mp h
    exact (Except.ok.inj ((walk_blank hblank hnode).symm.trans h)).symm

/-- What is named as a directory and is one is also found there. -/
theorem locate_of_follow (hfollow : tree.follow path (directorySegments path) = .ok location)
    (hlocation : tree.node? location = some .directory) : tree.locate path = .ok location := by
  obtain ⟨blank, hsegments, hblank⟩ := directorySegments_append path
  obtain ⟨hfault, hwalk⟩ := follow_eq_ok.mp hfollow
  refine follow_eq_ok.mpr ⟨hfault, ?_⟩
  rw [hsegments, walk_append, hwalk]
  exact walk_blank hblank hlocation

/-- What is found is found as a directory, too. -/
theorem follow_of_locate (h : tree.locate path = .ok location) :
    tree.follow path (directorySegments path) = .ok location := by
  obtain ⟨blank, hsegments, hblank⟩ := directorySegments_append path
  obtain ⟨hfault, hwalk⟩ := follow_eq_ok.mp h
  rw [hsegments, walk_append] at hwalk
  obtain ⟨place, hplace, hrest⟩ := bind_eq_ok.mp hwalk
  exact follow_eq_ok.mpr ⟨hfault, eq_of_walk_blank hblank hrest ▸ hplace⟩

/-- **A directory is made where nothing was**, and nothing else. -/
theorem makeDirectory_eq_ok : tree.makeDirectory path = .ok made ↔
    ∃ location, tree.follow path (directorySegments path) = .ok location ∧
      tree.node? location = none ∧ made = tree.setNode location .directory := by
  rw [makeDirectory, bind_eq_ok]
  refine exists_congr fun location => and_congr_right fun _ => ?_
  cases tree.node? location with
  | none => exact ⟨fun h => ⟨rfl, (Except.ok.inj h).symm⟩, fun h => congrArg Except.ok h.2.symm⟩
  | some node =>
    constructor
    · intro h
      cases h
    · rintro ⟨h, -⟩
      cases h

theorem grows_makeDirectory (h : tree.makeDirectory path = .ok made) : tree.Grows made := by
  obtain ⟨location, -, hnone, rfl⟩ := makeDirectory_eq_ok.mp h
  exact grows_setNode hnone

/-- What was made is there. -/
theorem isDirectory_of_makeDirectory (h : tree.makeDirectory path = .ok made) :
    made.isDirectory path = true := by
  -- the walk that found the place free finds the directory there now
  have hkeeps := (grows_makeDirectory h).keeps
  obtain ⟨location, hfollow, -, rfl⟩ := makeDirectory_eq_ok.mp h
  have hnode : (tree.setNode location .directory).node? location = some .directory := by
    rw [node?_setNode, if_pos rfl, ite_self]
  exact isDirectory_iff.mpr ⟨location, locate_of_follow (hkeeps.follow hfollow) hnode, hnode⟩

/-- What is there is not made. -/
theorem makeDirectory_of_isDirectory (h : tree.isDirectory path = true) :
    tree.makeDirectory path = .error .alreadyThere := by
  obtain ⟨location, hlocate, hnode⟩ := isDirectory_iff.mp h
  simp only [makeDirectory, follow_of_locate hlocate, hnode, bind, Except.bind]

/-- **Making a directory with its parents** makes directories where nothing
was, also if it is refused in the end. -/
theorem grows_makeWithParents {paths : List Path} {result : Except IoError Unit}
    (h : (FileSystem.makeWithParents paths : ExceptT IoError (StateM FileTree) Unit) tree
      = (result, made)) : tree.Grows made := by
  induction paths generalizing result made with
  | nil =>
    cases h
    exact .refl tree
  | cons path parents ih =>
    rw [makeWithParents_cons_run] at h
    split at h
    · next hmade =>
      cases h
      exact grows_makeDirectory hmade
    · split at h
      · next hparents =>
        cases h
        exact ih hparents
      · next middle hparents =>
        split at h
        · next hwhole =>
          cases h
          exact (ih hparents).trans (grows_makeDirectory hwhole)
        · cases h
          exact ih hparents
    · cases h
      exact .refl tree

/-- What passes only under a condition has passed under it. -/
theorem of_ite_eq_ok {p : Prop} [Decidable p] {error : IoError}
    (h : (if p then .ok () else .error error : Except IoError Unit) = .ok ()) : p := by
  by_contra hp
  rw [if_neg hp] at h
  cases h

/-- **A path that was made with its parents names a directory.** -/
theorem isDirectory_of_makeWithParents {parents : List Path}
    (h : (FileSystem.makeWithParents (path :: parents) : ExceptT IoError (StateM FileTree) Unit)
      tree = (.ok (), made)) : made.isDirectory path = true := by
  rw [makeWithParents_cons_run] at h
  split at h
  · next hmade =>
    cases h
    exact isDirectory_of_makeDirectory hmade
  · split at h
    · cases h
    · split at h
      · next hwhole =>
        cases h
        exact isDirectory_of_makeDirectory hwhole
      · obtain ⟨hresult, rfl⟩ := Prod.mk.inj h
        exact of_ite_eq_ok hresult
  · obtain ⟨hresult, rfl⟩ := Prod.mk.inj h
    exact of_ite_eq_ok hresult

/-- **Seeing to it that a directory is there** makes directories where
nothing was, also if it is refused in the end. -/
theorem grows_createDirectories {result : Except IoError Unit}
    (h : (FileSystem.createDirectories path : ExceptT IoError (StateM FileTree) Unit) tree
      = (result, made)) : tree.Grows made :=
  grows_makeWithParents h

/-- **Once it is there, it is seen to be there**, whatever has come of the
tree meanwhile, and nothing is made again. -/
theorem createDirectories_again
    (h : (FileSystem.createDirectories path : ExceptT IoError (StateM FileTree) Unit) tree
      = (.ok (), made)) (hkeeps : made.Keeps after) :
    (FileSystem.createDirectories path : ExceptT IoError (StateM FileTree) Unit) after
      = (.ok (), after) := by
  unfold FileSystem.createDirectories at h ⊢
  -- a path without a step is always there; any other heads the list of its parents
  have hparents : path.withParents = [] ∨ ∃ parents, path.withParents = path :: parents := by
    unfold Path.withParents
    split
    · exact .inl rfl
    · exact .inr ⟨_, rfl⟩
  obtain hnone | ⟨parents, hparents⟩ := hparents
  · rw [hnone]
    rfl
  · rw [hparents] at h ⊢
    have hthere := hkeeps.isDirectory (isDirectory_of_makeWithParents h)
    rw [makeWithParents_cons_run, makeDirectory_of_isDirectory hthere]
    show (if _ then _ else _, after) = _
    rw [if_pos hthere]

end SchemaScaffold.FileTree
