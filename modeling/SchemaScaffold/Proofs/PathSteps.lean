import Mathlib.Data.List.Flatten
import Mathlib.Data.List.Induction
import SchemaScaffold.Proofs.ByteOrder
import SchemaScaffold.Proofs.Writing

/-!
# The parent of a path and the name at its end

A path can be taken apart into its parent and the name at its end, and put
together again from the two. The text need not come back: slashes that were
doubled are gone, and so are points between the two. What comes back is where
the path leads (`FileTree.locate_parent_inside`).

This is not a fact about texts alone. What is lost are segments that stay
where they are, and a segment that stays can be walked only in a directory.
At the end of a path it would make a difference: `a/b/` has the parent `a`
and the name `b`, and does not lead to a file that `a/b` leads to. But where a
path leads to a file there is nothing behind its last step.
-/

namespace SchemaScaffold

/-- Fewer parts, put together with the same separator, are a part of what more
of them are. -/
theorem intercalate_sublist {α : Type} (separator : List α) {xs ys : List (List α)}
    (h : xs.Sublist ys) : (separator.intercalate xs).Sublist (separator.intercalate ys) := by
  induction h with
  | slnil => exact .refl _
  | @cons xs ys y hsub ih =>
    cases ys with
    | nil =>
      rw [List.sublist_nil.mp hsub]
      exact List.nil_sublist _
    | cons y' ys =>
      rw [List.intercalate_cons_cons]
      exact ih.trans (List.sublist_append_right _ _)
  | @cons_cons xs ys x hsub ih =>
    cases xs with
    | nil =>
      cases ys with
      | nil => exact .refl _
      | cons y ys =>
        rw [List.intercalate_cons_cons, List.intercalate_singleton, List.append_assoc]
        exact List.sublist_append_left _ _
    | cons x' xs =>
      cases ys with
      | nil => cases hsub
      | cons y ys =>
        rw [List.intercalate_cons_cons, List.intercalate_cons_cons]
        exact ih.append_left _

namespace Path

variable {path parent : Path} {name : String} {text : List Char} {segment step : List Char}
  {segments front blank : List (List Char)}

/-! ## Segments -/

theorem split_eq_splitOn (text : List Char) : split text = text.splitOn '/' := by
  induction text with
  | nil => rfl
  | cons c text ih =>
    rw [split, List.splitOn_cons_eq_if_modifyHead, ← ih]
    by_cases hc : c = '/'
    · rw [if_pos hc, if_pos (beq_iff_eq.mpr hc)]
    · rw [if_neg hc, if_neg (beq_iff_eq.not.mpr hc)]
      cases hsplit : split text with
      | nil => exact absurd hsplit (split_ne_nil text)
      | cons piece more => rfl

/-- **A text is its pieces**, with slashes between them. -/
theorem intercalate_split (text : List Char) : List.intercalate ['/'] (split text) = text := by
  rw [split_eq_splitOn, List.intercalate_splitOn]

/-- **Pieces without slashes** are what the text of them is split into. -/
theorem split_intercalate (hne : segments ≠ []) (h : ∀ segment ∈ segments, '/' ∉ segment) :
    split (List.intercalate ['/'] segments) = segments := by
  rw [split_eq_splitOn, List.splitOn_intercalate _ h hne]

theorem notMem_of_mem_split (h : segment ∈ split text) : '/' ∉ segment := by
  induction text generalizing segment with
  | nil =>
    rw [List.mem_singleton.mp h]
    exact List.not_mem_nil
  | cons c text ih =>
    rw [split] at h
    split at h
    · obtain rfl | h := List.mem_cons.mp h
      · exact List.not_mem_nil
      · exact ih h
    · next hc =>
      split at h
      · next hnil => exact absurd hnil (split_ne_nil text)
      · next piece more hsplit =>
        obtain rfl | h := List.mem_cons.mp h
        · rw [List.mem_cons, not_or]
          exact ⟨Ne.symm hc, ih (hsplit ▸ List.mem_cons_self)⟩
        · exact ih (hsplit ▸ List.mem_cons_of_mem piece h)

/-- A segment that is no step stays where it is. -/
theorem stays_of_not_isStep {first : Bool} (h : ¬isStep first segment = true) :
    stays segment = true := by
  unfold isStep at h
  unfold stays
  cases hempty : segment == [] <;> cases hpoint : segment == ['.'] <;> simp_all

/-- The fronts up to the last segment come before the others. -/
theorem frontsOf_append_singleton (first : Bool) (front : List (List Char)) (segment : List Char) :
    frontsOf first (front ++ [segment])
      = (if isStep (first && front.isEmpty) segment then [front ++ [segment]] else [])
          ++ frontsOf first front := by
  induction front generalizing first with
  | nil => simp [frontsOf]
  | cons s front ih =>
    rw [List.cons_append, frontsOf, ih, frontsOf, List.map_append, List.append_assoc]
    simp only [List.isEmpty_cons, Bool.and_false, Bool.false_and]
    split <;> rfl

/-- **The last step of segments**: the longest front ends with it, and all
behind it stays where it is. -/
theorem frontsOf_cases (first : Bool) (segments : List (List Char)) :
    frontsOf first segments = [] ∨
    ∃ front step blank, segments = front ++ step :: blank ∧
      isStep (first && front.isEmpty) step = true ∧ (∀ segment ∈ blank, stays segment = true) ∧
      frontsOf first segments = (front ++ [step]) :: frontsOf first front := by
  induction segments using List.reverseRecOn with
  | nil => exact .inl rfl
  | append_singleton segments segment ih =>
    rw [frontsOf_append_singleton]
    by_cases hstep : isStep (first && segments.isEmpty) segment = true
    · rw [if_pos hstep]
      exact .inr ⟨segments, segment, [], rfl, hstep, fun _ h => absurd h List.not_mem_nil, rfl⟩
    · rw [if_neg hstep, List.nil_append]
      obtain hnone | ⟨front, step, blank, rfl, hstep', hblank, hfronts⟩ := ih
      · exact .inl hnone
      · refine .inr ⟨front, step, blank ++ [segment], ?_, hstep', fun s hs => ?_, hfronts⟩
        · rw [List.append_assoc, List.cons_append]
        · obtain hs | hs := List.mem_append.mp hs
          · exact hblank s hs
          · rw [List.mem_singleton.mp hs]
            exact stays_of_not_isStep hstep

/-! ## The last step -/

/-- **The last step of a path**, with what is in front of it and behind it. -/
structure EndsWith (path : Path) (front : List (List Char)) (step : List Char)
    (blank : List (List Char)) : Prop where
  /-- These are all segments. -/
  segments_eq : path.segments = front ++ step :: blank
  /-- It is a step. -/
  isStep : isStep front.isEmpty step = true
  /-- What is behind it stays where it is. -/
  stays : ∀ segment ∈ blank, stays segment = true
  /-- The longest front ends with it. -/
  fronts_eq : path.fronts = (front ++ [step]) :: frontsOf true front

/-- A path has a last step if it has fronts. -/
theorem fronts_eq_nil_or_endsWith (path : Path) :
    path.fronts = [] ∨ ∃ front step blank, path.EndsWith front step blank := by
  obtain hnone | ⟨front, step, blank, hsegments, hstep, hblank, hfronts⟩ :=
    frontsOf_cases true path.segments
  · exact .inl hnone
  · exact .inr ⟨front, step, blank, hsegments, hstep, hblank, hfronts⟩

theorem EndsWith.fileName?_eq (h : path.EndsWith front step blank) :
    path.fileName? = if step == ['.'] || step == ['.', '.'] then none
      else some (String.ofList step) := by
  rw [fileName?, h.fronts_eq]
  simp

theorem EndsWith.parent?_eq (h : path.EndsWith front step blank) :
    path.parent? = some (match frontsOf true front with
      | [] => ⟨if path.isAbsolute then "/" else ""⟩
      | shorter :: _ => ⟨join shorter⟩) := by
  rw [parent?, h.fronts_eq]
  cases frontsOf true front <;> rfl

/-- **A path with a name ends with it.** -/
theorem exists_endsWith_of_fileName? (h : path.fileName? = some name) :
    ∃ front blank, path.EndsWith front name.toList blank ∧ IsPlain name := by
  obtain hnone | ⟨front, step, blank, hends⟩ := path.fronts_eq_nil_or_endsWith
  · rw [fileName?, hnone] at h
    cases h
  · rw [hends.fileName?_eq] at h
    split at h
    · cases h
    · next hstep =>
      obtain rfl := Option.some.inj h
      rw [Bool.or_eq_true, not_or, beq_iff_eq, beq_iff_eq] at hstep
      have hmem : step ∈ path.segments := by
        rw [hends.segments_eq]
        exact List.mem_append_right _ List.mem_cons_self
      have hempty : step ≠ [] := by
        rintro rfl
        exact Bool.false_ne_true hends.isStep
      rw [String.toList_ofList]
      refine ⟨front, blank, hends, ?_⟩
      rw [IsPlain, String.toList_ofList]
      exact ⟨notMem_of_mem_split hmem, by simp [Path.stays, hempty, hstep.1], hstep.2⟩

theorem exists_parent?_of_fileName? (h : path.fileName? = some name) :
    ∃ parent, path.parent? = some parent := by
  obtain ⟨front, blank, hends, -⟩ := exists_endsWith_of_fileName? h
  exact ⟨_, hends.parent?_eq⟩

/-! ## The name inside the parent -/

theorem intercalate_append_singleton (hne : segments ≠ []) (segment : List Char) :
    List.intercalate ['/'] (segments ++ [segment])
      = List.intercalate ['/'] segments ++ '/' :: segment := by
  induction segments with
  | nil => exact absurd rfl hne
  | cons s segments ih =>
    by_cases hnil : segments = []
    · rw [hnil, List.singleton_append, List.intercalate_cons_cons, List.intercalate_singleton,
        List.intercalate_singleton, List.append_assoc, List.singleton_append]
    · rw [List.cons_append, List.intercalate_cons_of_ne_nil (by simp), ih hnil,
        List.intercalate_cons_of_ne_nil hnil, ← List.append_assoc]

/-- How a text of several segments starts depends on the first of them. -/
theorem head?_intercalate (segment : List Char) (hne : segments ≠ []) :
    (List.intercalate ['/'] (segment :: segments)).head? = (segment ++ ['/']).head? := by
  rw [List.intercalate_cons_of_ne_nil hne]
  cases segment <;> rfl

/-- Segments without a step stay where they are. -/
theorem stays_of_frontsOf_eq_nil {first : Bool} (h : frontsOf first segments = []) :
    ∀ segment ∈ segments, stays segment = true := by
  induction segments generalizing first with
  | nil => exact List.forall_mem_nil _
  | cons s segments ih =>
    rw [frontsOf, List.append_eq_nil_iff, List.map_eq_nil_iff] at h
    have hstep : ¬isStep first s = true := by
      intro hstep
      rw [if_pos hstep] at h
      cases h.2
    exact List.forall_mem_cons.mpr ⟨stays_of_not_isStep hstep, ih h.1⟩

/-- Without a step in front the first segment is empty, since any other would be
a step there. -/
theorem eq_nil_of_frontsOf_cons (h : frontsOf true (segment :: segments) = []) : segment = [] := by
  rw [frontsOf, List.append_eq_nil_iff] at h
  cases segment with
  | nil => rfl
  | cons c segment => cases h.2

/-- **The text of a name inside the parent** has some of the segments of the
path, in order, and what is left out of them stays where it is. -/
theorem EndsWith.exists_inside (h : path.EndsWith front name.toList []) (hname : IsPlain name)
    (hparent : path.parent? = some parent) :
    ∃ kept blank, front = kept ++ blank ∧ (∀ segment ∈ blank, Path.stays segment = true) ∧
      (kept = [] → blank = []) ∧
      (parent.inside name).text.toList = List.intercalate ['/'] (kept ++ [name.toList]) := by
  have hhead := head?_of_isPlain hname
  have htext : path.text.toList = List.intercalate ['/'] (front ++ [name.toList]) := by
    rw [← h.segments_eq]
    exact (intercalate_split path.text.toList).symm
  obtain rfl := Option.some.inj (hparent.symm.trans h.parent?_eq)
  obtain hnone | ⟨shorter, step, blank, hfront, hstep, hblank, hfronts⟩ :=
    frontsOf_cases true front
  · -- nothing is in front of the name but the root, or nothing at all
    have hstays := stays_of_frontsOf_eq_nil hnone
    simp only [hnone, isAbsolute, htext]
    cases front with
    | nil =>
      refine ⟨[], [], rfl, hstays, fun _ => rfl, ?_⟩
      simp [inside, hhead]
    | cons segment blank =>
      obtain rfl := eq_nil_of_frontsOf_cons hnone
      refine ⟨[[]], blank, rfl, (List.forall_mem_cons.mp hstays).2, fun h => (by cases h), ?_⟩
      rw [List.cons_append, head?_intercalate [] (by simp)]
      simp [inside, hhead]
  · have hne : shorter ++ [step] ≠ [] := by simp
    refine ⟨shorter ++ [step], blank, by simp [hfront], hblank, fun h => absurd h hne, ?_⟩
    have hmem : step ∈ path.segments := by
      rw [h.segments_eq, hfront]
      simp
    have hempty : step ≠ [] := by
      rintro rfl
      exact Bool.false_ne_true hstep
    -- the text of the parent ends with its last step, so a slash is put between
    obtain ⟨lead, hlead⟩ : ∃ lead, List.intercalate ['/'] (shorter ++ [step]) = lead ++ step := by
      cases shorter with
      | nil => exact ⟨[], List.intercalate_singleton⟩
      | cons s shorter =>
        rw [intercalate_append_singleton (List.cons_ne_nil _ _)]
        exact ⟨_, List.append_cons _ _ _⟩
    have hlast : (List.intercalate ['/'] (shorter ++ [step])).getLast? ≠ some '/' := by
      rw [hlead, List.getLast?_append_of_ne_nil _ hempty]
      exact fun hlast => notMem_of_mem_split hmem (List.mem_of_getLast? hlast)
    have hnonempty : List.intercalate ['/'] (shorter ++ [step]) ≠ [] := by
      rw [hlead]
      exact List.append_ne_nil_of_right_ne_nil _ hempty
    rw [hfronts, intercalate_append_singleton hne]
    simp [inside, hhead, join, hlast, hnonempty]

end Path

namespace FileTree

variable {tree : FileTree} {path parent : Path} {location : Location} {name : String}
  {content : ByteArray} {front blank : List (List Char)} {step : List Char}

/-! ## Paths to files -/

theorem fault?_eq_none : fault? path = none ↔
    '\x00' ∉ path.text.toList ∧ path.text ≠ "" ∧ ¬pathLimit < path.text.utf8ByteSize := by
  unfold fault?
  split
  · next h => simp [List.contains_iff_mem.mp h]
  · next h =>
    rw [List.contains_iff_mem] at h
    split
    · next hempty => simp [hempty]
    · next hne =>
      split
      · next hlong => simp [hlong]
      · next hshort => exact ⟨fun _ => ⟨h, hne, hshort⟩, fun _ => rfl⟩

/-- **Where a path is not at fault**, neither is one with less in it. -/
theorem fault?_of_sublist {shorter : Path} (h : shorter.text.toList.Sublist path.text.toList)
    (hne : shorter.text ≠ "") (hfault : fault? path = none) : fault? shorter = none := by
  obtain ⟨hnul, -, hshort⟩ := fault?_eq_none.mp hfault
  refine fault?_eq_none.mpr ⟨fun hmem => hnul (h.subset hmem), hne, fun hlong => hshort ?_⟩
  have hbytes : (bytes shorter.text).length ≤ (bytes path.text).length := by
    rw [bytes_eq, bytes_eq]
    exact (h.flatMap _).length_le
  exact Nat.lt_of_lt_of_le hlong hbytes

theorem node?_of_fileAt? (h : tree.fileAt? location = some content) :
    tree.node? location = some (.file content) := by
  unfold fileAt? at h
  split at h
  · next hnode => rw [hnode, Option.some.inj h]
  · cases h
  · cases h

/-- Where a file is, no walk along segments that stay has led. -/
theorem eq_nil_of_walk_blank (hblank : ∀ segment ∈ blank, Path.stays segment = true)
    {start : Location} (hwalk : tree.walk start blank = .ok location)
    (hfile : tree.fileAt? location = some content) : blank = [] := by
  cases blank with
  | nil => rfl
  | cons segment blank =>
    obtain ⟨hstart, -⟩ := walk_cons_eq_ok.mp hwalk
    rw [← eq_of_walk_blank hblank hwalk, node?_of_fileAt? hfile] at hstart
    cases hstart

/-- **The path to a file ends with its last step**, taken from a
directory. -/
theorem exists_walk_of_file (hlocate : tree.locate path = .ok location)
    (hfile : tree.fileAt? location = some content) (hends : path.EndsWith front step blank) :
    blank = [] ∧ ∃ place, tree.walk (tree.start path) front = .ok place ∧
      tree.node? place = some .directory ∧ location = FileTree.step place step ∧
      ¬nameLimit < (String.ofList step).utf8ByteSize := by
  obtain ⟨-, hwalk⟩ := follow_eq_ok.mp hlocate
  rw [hends.segments_eq, List.append_cons, walk_append] at hwalk
  obtain ⟨last, hlast, hrest⟩ := bind_eq_ok.mp hwalk
  obtain rfl := eq_nil_of_walk_blank hends.stays hrest hfile
  obtain rfl := Except.ok.inj hrest
  rw [walk_append] at hlast
  obtain ⟨place, hplace, hstep⟩ := bind_eq_ok.mp hlast
  obtain ⟨hnode, hshort, hend⟩ := walk_cons_eq_ok.mp hstep
  exact ⟨rfl, place, hplace, hnode, (Except.ok.inj hend).symm, hshort⟩

/-- **What is somewhere is in a directory.** -/
def Proper (tree : FileTree) : Prop :=
  ∀ location, tree.node? location ≠ none → tree.node? location.dropLast = some .directory

/-- It is enough that this is so for the nodes of the tree. -/
theorem proper_of_forall_mem
    (h : ∀ n ∈ tree.nodes, tree.node? n.fst.dropLast = some .directory) : tree.Proper := by
  intro location hnode
  by_cases hroot : location = []
  · rw [hroot]
    rfl
  · rw [node?, if_neg hroot] at hnode
    obtain ⟨node, hlookup⟩ := Option.ne_none_iff_exists'.mp hnode
    obtain ⟨front, back, hnodes, -⟩ := List.lookup_eq_some_iff.mp hlookup
    refine h (location, node) ?_
    rw [hnodes]
    exact List.mem_append_right _ List.mem_cons_self

/-- **A path to a file has a name at its end.** -/
theorem exists_fileName?_of_file (hproper : tree.Proper) (hlocate : tree.locate path = .ok location)
    (hfile : tree.fileAt? location = some content) : ∃ name, path.fileName? = some name := by
  have hnode := node?_of_fileAt? hfile
  obtain hnone | ⟨front, step, blank, hends⟩ := path.fronts_eq_nil_or_endsWith
  · -- without a step the path does not lead away from a directory
    obtain ⟨-, hwalk⟩ := follow_eq_ok.mp hlocate
    have hstays := Path.stays_of_frontsOf_eq_nil hnone
    exact absurd (eq_nil_of_walk_blank hstays hwalk hfile) (Path.split_ne_nil _)
  · obtain ⟨-, place, -, hplace, rfl, -⟩ := exists_walk_of_file hlocate hfile hends
    rw [hends.fileName?_eq]
    split
    · next hpoints =>
      -- points lead to a directory as well
      have hdirectory : tree.node? (FileTree.step place step) = some .directory := by
        obtain hpoint | hup := Bool.or_eq_true_iff.mp hpoints
        · rw [eq_of_beq hpoint]
          exact hplace
        · rw [eq_of_beq hup]
          exact hproper place (by rw [hplace]; exact Option.some_ne_none _)
      rw [hdirectory] at hnode
      cases hnode
    · exact ⟨_, rfl⟩

/-- **The name inside the parent leads to the file** that the path leads
to. -/
theorem locate_parent_inside (hlocate : tree.locate path = .ok location)
    (hfile : tree.fileAt? location = some content) (hname : path.fileName? = some name)
    (hparent : path.parent? = some parent) :
    tree.locate (parent.inside name) = .ok location := by
  obtain ⟨front, blank, hends, hplain⟩ := Path.exists_endsWith_of_fileName? hname
  obtain ⟨rfl, place, hplace, hnode, hlocation, hshort⟩ :=
    exists_walk_of_file hlocate hfile hends
  obtain ⟨kept, blank, rfl, hblank, hnone, htext⟩ := hends.exists_inside hplain hparent
  have hpath : path.text.toList = List.intercalate ['/'] (kept ++ blank ++ [name.toList]) := by
    rw [← hends.segments_eq]
    exact (Path.intercalate_split path.text.toList).symm
  have hsub : (kept ++ [name.toList]).Sublist (kept ++ blank ++ [name.toList]) :=
    (List.sublist_append_left kept blank).append_right _
  have hsegments : (parent.inside name).segments = kept ++ [name.toList] := by
    rw [Path.segments, htext]
    refine Path.split_intercalate (by simp) fun segment hsegment => ?_
    have hmem : segment ∈ path.segments := hends.segments_eq ▸ hsub.subset hsegment
    exact Path.notMem_of_mem_split hmem
  have hne : (parent.inside name).text ≠ "" := by
    intro hempty
    rw [Path.segments, hempty] at hsegments
    have hlast := congrArg List.getLast? hsegments
    rw [List.getLast?_append_of_ne_nil _ (List.cons_ne_nil _ _)] at hlast
    have hnil : [] = name.toList := Option.some.inj hlast
    rw [Path.IsPlain, ← hnil] at hplain
    exact Bool.false_ne_true hplain.2.1.symm
  have hstart : tree.start (parent.inside name) = tree.start path := by
    rw [start, start, Path.isAbsolute, Path.isAbsolute, htext, hpath]
    cases kept with
    | nil => rw [hnone rfl]; rfl
    | cons segment kept =>
      rw [List.cons_append, List.cons_append, List.cons_append,
        Path.head?_intercalate segment (by simp), Path.head?_intercalate segment (by simp)]
  have hkept : tree.walk (tree.start path) kept = .ok place := by
    rw [walk_append] at hplace
    obtain ⟨middle, hmiddle, hrest⟩ := bind_eq_ok.mp hplace
    rw [hmiddle, eq_of_walk_blank hblank hrest]
  refine follow_eq_ok.mpr ⟨fault?_of_sublist ?_ hne (follow_eq_ok.mp hlocate).1, ?_⟩
  · rw [htext, hpath]
    exact intercalate_sublist _ hsub
  · rw [hsegments, hstart, walk_append, hkept]
    exact walk_cons_eq_ok.mpr ⟨hnode, hshort, congrArg Except.ok hlocation.symm⟩

/-- **What is read at a path is read under its name inside its parent.** -/
theorem readText_parent_inside {text : String} (hread : tree.readText path = .ok text)
    (hname : path.fileName? = some name) (hparent : path.parent? = some parent) :
    tree.readText (parent.inside name) = .ok text := by
  obtain ⟨location, hlocate, hfile⟩ := readText_eq_ok.mp hread
  exact readText_eq_ok.mpr ⟨location, locate_parent_inside hlocate hfile hname hparent, hfile⟩

end FileTree

end SchemaScaffold
