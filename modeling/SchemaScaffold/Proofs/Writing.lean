import SchemaScaffold.Output.Sink
import SchemaScaffold.Proofs.FileTree

/-!
# What writing files into a directory changes

The files that a run writes are in one directory, and each has a plain name
there: one step by itself. So the path of such a file ends with its name,
and where the path leads ends with it too (`FileTree.locate_inside`). Files
of different names are therefore in different places, whatever the path of
the directory is like.

That is what makes a law out of a list of writes. What the list has written
(`Output.Wrote`) is a text for each name and nothing else, and this composes,
as long as no name comes twice (`Output.Wrote.append`). A write that is
refused makes directories at most, so the writes in front of it are all that
has happened (`Output.stoppedAt_writeAll`).
-/

namespace SchemaScaffold

/-! ## Plain names -/

namespace Path

/-- **A plain name is one step by itself**, to what has this name. -/
def IsPlain (name : String) : Prop :=
  '/' ∉ name.toList ∧ stays name.toList = false ∧ name.toList ≠ ['.', '.']

instance (name : String) : Decidable (IsPlain name) :=
  inferInstanceAs (Decidable (_ ∧ _ ∧ _))

theorem split_ne_nil (text : List Char) : split text ≠ [] := by
  cases text with
  | nil => exact List.cons_ne_nil _ _
  | cons c rest =>
    rw [split]
    split
    · exact List.cons_ne_nil _ _
    · split
      · exact List.cons_ne_nil _ _
      · exact List.cons_ne_nil _ _

/-- **A slash separates** the pieces in front of it from those behind
it. -/
theorem split_append_slash (front back : List Char) :
    split (front ++ '/' :: back) = split front ++ split back := by
  induction front with
  | nil => rfl
  | cons c front ih =>
    rw [List.cons_append, split, split]
    by_cases hc : c = '/'
    · rw [if_pos hc, if_pos hc, ih, List.cons_append]
    · rw [if_neg hc, if_neg hc, ih]
      cases hfront : split front with
      | nil => exact absurd hfront (split_ne_nil front)
      | cons piece more => rfl

/-- Without a slash there is one piece. -/
theorem split_of_notMem {text : List Char} (h : '/' ∉ text) : split text = [text] := by
  induction text with
  | nil => rfl
  | cons c text ih =>
    have hc : c ≠ '/' := fun heq => h (heq ▸ List.mem_cons_self)
    rw [split, if_neg hc, ih fun hmem => h (List.mem_cons_of_mem c hmem)]

/-- Only the empty text has one piece that is empty. -/
theorem eq_nil_of_split {text : List Char} (h : split text = [[]]) : text = [] := by
  cases text with
  | nil => rfl
  | cons c text =>
    rw [split] at h
    split at h
    · exact absurd (List.cons.inj h).2 (split_ne_nil text)
    · split at h <;> cases h

theorem head?_of_isPlain {name : String} (h : IsPlain name) :
    (name.toList.head? == some '/') = false := by
  rw [beq_eq_false_iff_ne]
  intro hhead
  exact h.1 (List.mem_of_head? hhead)

/-- **Where a plain name is put in a directory**: by itself, if the text of the
directory is empty; in place of the empty segment behind a slash at its end; or
behind all its segments. -/
theorem segments_inside_cases (directory : Path) {name : String} (h : IsPlain name) :
    (directory.segments = [[]] ∧ (directory.inside name).segments = [name.toList]) ∨
    (∃ front, front ≠ [] ∧ directory.segments = front ++ [[]] ∧
      (directory.inside name).segments = front ++ [name.toList]) ∨
    (directory.segments ≠ [[]] ∧
      (directory.inside name).segments = directory.segments ++ [name.toList]) := by
  have hname : split name.toList = [name.toList] := split_of_notMem h.1
  have hslash (text : List Char) : split (text ++ '/' :: name.toList)
      = split text ++ [name.toList] := by
    rw [split_append_slash, hname]
  rw [inside, head?_of_isPlain h, if_neg Bool.false_ne_true]
  by_cases hempty : directory.text.toList = []
  · left
    rw [hempty]
    simp only [segments, hempty, List.isEmpty_nil, Bool.true_or, if_true, String.toList_append,
      List.nil_append]
    exact ⟨rfl, hname⟩
  · by_cases hlast : directory.text.toList.getLast? = some '/'
    · obtain ⟨text, htext⟩ := List.getLast?_eq_some_iff.mp hlast
      refine .inr (.inl ⟨split text, split_ne_nil text, ?_, ?_⟩)
      · rw [segments, htext]
        exact split_append_slash text []
      · rw [if_pos (by simp [hlast]), segments, String.toList_append, htext, List.append_assoc]
        exact hslash text
    · refine .inr (.inr ⟨fun hsegments => hempty (eq_nil_of_split hsegments), ?_⟩)
      rw [if_neg (by simp [hempty, hlast]), segments, String.toList_append, String.toList_append,
        List.append_assoc]
      exact hslash directory.text.toList

/-- **The last segment of a path inside another** is the plain name it has
there. -/
theorem segments_inside (path : Path) {name : String} (h : IsPlain name) :
    ∃ front, (path.inside name).segments = front ++ [name.toList] := by
  obtain ⟨-, hinside⟩ | ⟨front, -, -, hinside⟩ | ⟨-, hinside⟩ := path.segments_inside_cases h
  · exact ⟨[], hinside⟩
  · exact ⟨front, hinside⟩
  · exact ⟨path.segments, hinside⟩

end Path

namespace FileTree

variable {tree before middle after made : FileTree} {directory path : Path}
  {location other : Location} {name text : String}

/-- **Where a path inside a directory leads** ends with the plain name it has
there. -/
theorem locate_inside (hname : Path.IsPlain name)
    (h : tree.locate (directory.inside name) = .ok location) :
    ∃ place, location = place ++ [name] := by
  obtain ⟨front, hfront⟩ := Path.segments_inside directory hname
  obtain ⟨-, hwalk⟩ := follow_eq_ok.mp h
  rw [hfront, walk_append] at hwalk
  obtain ⟨place, -, hstep⟩ := bind_eq_ok.mp hwalk
  obtain ⟨-, -, hend⟩ := walk_cons_eq_ok.mp hstep
  refine ⟨place, ?_⟩
  rw [← Except.ok.inj hend, step, if_neg (by simp [hname.2.1]), if_neg hname.2.2,
    String.ofList_toList]

/-- So different names are in different places. -/
theorem eq_of_locate_inside {name' : String} (hname : Path.IsPlain name)
    (hname' : Path.IsPlain name') (h : tree.locate (directory.inside name) = .ok location)
    (h' : tree.locate (directory.inside name') = .ok location) : name = name' := by
  obtain ⟨place, hplace⟩ := locate_inside hname h
  obtain ⟨place', hplace'⟩ := locate_inside hname' h'
  exact List.singleton_inj.mp (List.append_inj' (hplace.symm.trans hplace') rfl).2

/-! ## One text -/

/-- **A text is written where no directory is**, and nowhere else. -/
theorem writeText_eq_ok : tree.writeText path text = .ok after ↔
    ∃ location, tree.locate path = .ok location ∧ tree.node? location ≠ some .directory ∧
      after = tree.setNode location (.file text.toUTF8) := by
  rw [writeText, bind_eq_ok]
  refine exists_congr fun location => and_congr_right fun _ => ?_
  split
  · next hnode =>
    constructor
    · intro h
      cases h
    · rintro ⟨h, -⟩
      exact absurd hnode h
  · next hnode =>
    exact ⟨fun h => ⟨hnode, (Except.ok.inj h).symm⟩, fun h => congrArg Except.ok h.2.symm⟩

/-- What is no directory is not the root. -/
theorem ne_root_of_node? (h : tree.node? location ≠ some .directory) : location ≠ [] := by
  rintro rfl
  exact h rfl

/-- A file that is set is at its location, and the others are as they
were. -/
theorem fileAt?_setNode (tree : FileTree) (bytes : ByteArray) (h : location ≠ [])
    (other : Location) :
    (tree.setNode location (.file bytes)).fileAt? other
      = if other = location then some bytes else tree.fileAt? other := by
  unfold fileAt?
  rw [node?_setNode_of_ne tree h]
  by_cases hother : other = location
  · rw [if_pos hother, if_pos hother]
  · rw [if_neg hother, if_neg hother]

/-- There are bytes to read just where a file is. -/
theorem readBytes_eq_ok {bytes : ByteArray} : tree.readBytes path = .ok bytes ↔
    ∃ location, tree.locate path = .ok location ∧ tree.fileAt? location = some bytes := by
  rw [readBytes, bind_eq_ok]
  refine exists_congr fun location => and_congr_right fun _ => ?_
  unfold fileAt?
  cases tree.node? location with
  | none => exact ⟨(fun h => by cases h), fun h => by cases h⟩
  | some node =>
    cases node with
    | directory => exact ⟨(fun h => by cases h), fun h => by cases h⟩
    | file found => exact ⟨fun h => congrArg some (Except.ok.inj h),
        fun h => congrArg Except.ok (Option.some.inj h)⟩

/-- The bytes of a text are read as this text. -/
theorem fromUTF8?_eq_some {bytes : ByteArray} :
    String.fromUTF8? bytes = some text ↔ bytes = text.toUTF8 := by
  rw [String.fromUTF8?]
  constructor
  · intro h
    split at h
    · cases h
      rfl
    · cases h
  · rintro rfl
    exact dif_pos text.isValidUTF8

/-- **What is read is the text of the file** that the path leads to. -/
theorem readText_eq_ok : tree.readText path = .ok text ↔
    ∃ location, tree.locate path = .ok location ∧
      tree.fileAt? location = some text.toUTF8 := by
  rw [← readBytes_eq_ok, readText, bind_eq_ok]
  constructor
  · rintro ⟨bytes, hbytes, htext⟩
    split at htext
    · next hsome =>
      rw [← Except.ok.inj htext, ← fromUTF8?_eq_some.mp hsome, hbytes]
    · cases htext
  · intro h
    exact ⟨_, h, by rw [fromUTF8?_eq_some.mpr rfl]⟩

/-- Nothing is read where nothing is. -/
theorem readText_of_node?_eq_none (hlocate : tree.locate path = .ok location)
    (hnode : tree.node? location = none) : tree.readText path = .error .notFound := by
  simp only [readText, readBytes, hlocate, hnode, bind, Except.bind]

/-- Nothing is read where the path does not lead anywhere. -/
theorem readText_of_locate_eq_error {error : IoError} (h : tree.locate path = .error error) :
    tree.readText path = .error error := by
  unfold readText readBytes
  rw [h]
  rfl

/-! ## One file into a directory -/

/-- **Writing into a directory** stops where the directory is refused. -/
theorem writeInto_run (tree : FileTree) (directory path : Path) (text : String) :
    (writeInto directory path text : ExceptT IoError (StateM FileTree) Unit) tree
      = match (FileSystem.createDirectories directory :
          ExceptT IoError (StateM FileTree) Unit) tree with
        | (.error error, made) => (.error error, made)
        | (.ok (), made) => made.change (made.writeText path text) := by
  simp only [writeInto, bind, ExceptT.bind, ExceptT.mk, StateT.bind]
  match (FileSystem.createDirectories directory : ExceptT IoError (StateM FileTree) Unit) tree with
  | (.error error, made) => rfl
  | (.ok (), made) => rfl

/-- **All that writing into a directory can do**: it is refused, and has made
directories at most, or it has set one file after that. -/
theorem writeInto_cases {result : Except IoError Unit}
    (h : (writeInto directory path text : ExceptT IoError (StateM FileTree) Unit) before
      = (result, after)) :
    (∃ error, result = .error error ∧ before.Grows after) ∨
    ∃ made location, result = .ok () ∧ before.Grows made ∧ made.locate path = .ok location ∧
      made.node? location ≠ some .directory ∧
      after = made.setNode location (.file text.toUTF8) := by
  rw [writeInto_run] at h
  split at h
  · next error made hmade =>
    obtain ⟨rfl, rfl⟩ := Prod.mk.inj h
    exact .inl ⟨error, rfl, grows_createDirectories hmade⟩
  · next made hmade =>
    have hgrows := grows_createDirectories hmade
    cases htext : made.writeText path text with
    | error error =>
      rw [htext] at h
      obtain ⟨rfl, rfl⟩ := Prod.mk.inj h
      exact .inl ⟨error, rfl, hgrows⟩
    | ok written =>
      rw [htext] at h
      obtain ⟨rfl, rfl⟩ := Prod.mk.inj h
      obtain ⟨location, hlocate, hnode, hset⟩ := writeText_eq_ok.mp htext
      exact .inr ⟨made, location, rfl, hgrows, hlocate, hnode, hset⟩

end FileTree

/-! ## Outputs -/

/-- **A file to be written** into a directory. -/
structure Output where
  /-- The name it has there. -/
  name : String
  /-- Its name is plain. -/
  plain : Path.IsPlain name
  /-- What it is to hold. -/
  text : String

namespace Output

/-- Writes an output into a directory. -/
def write (directory : Path) (output : Output) : ExceptT IoError (StateM FileTree) Unit :=
  writeInto directory (directory.inside output.name) output.text

/-- **Writes outputs into a directory**, in order. -/
def writeAll (directory : Path) (outputs : List Output) :
    ExceptT IoError (StateM FileTree) Unit :=
  outputs.forM (write directory)

/-- **What outputs have been written** into a directory, and that nothing else
has been. -/
structure Wrote (directory : Path) (outputs : List Output) (before after : FileTree) : Prop where
  /-- The directories are there still. -/
  keeps : before.Keeps after
  /-- The outputs can be read. -/
  holds {output : Output} : output ∈ outputs →
    after.readText (directory.inside output.name) = .ok output.text
  /-- What is at a location is as it was, unless this is where an output is. -/
  frame {location : Location} : after.fileAt? location ≠ before.fileAt? location →
    ∃ output ∈ outputs, after.locate (directory.inside output.name) = .ok location

variable {directory : Path} {output : Output} {outputs front back : List Output}
  {before middle after tree : FileTree} {location : Location} {error : IoError}

theorem wrote_of_grows (h : before.Grows after) : Wrote directory [] before after :=
  ⟨h.keeps, fun houtput => absurd houtput List.not_mem_nil,
    fun hlocation => absurd (h.fileAt?_eq _) hlocation⟩

/-- **What has another name** is as it was. -/
theorem Wrote.fileAt?_eq (h : Wrote directory outputs before after)
    (hnames : ∀ other ∈ outputs, output.name ≠ other.name)
    (hlocate : after.locate (directory.inside output.name) = .ok location) :
    after.fileAt? location = before.fileAt? location := by
  by_contra hchanged
  obtain ⟨other, hother, hlocate'⟩ := h.frame hchanged
  exact hnames other hother
    (FileTree.eq_of_locate_inside output.plain other.plain hlocate hlocate')

/-- **Outputs of other names can be written after** what has been. -/
theorem Wrote.append (h : Wrote directory front before middle)
    (h' : Wrote directory back middle after)
    (hnames : ∀ x ∈ front, ∀ y ∈ back, x.name ≠ y.name) :
    Wrote directory (front ++ back) before after := by
  refine ⟨h.keeps.trans h'.keeps, fun {output} houtput => ?_, fun {location} hchanged => ?_⟩
  · obtain hfront | hback := List.mem_append.mp houtput
    · obtain ⟨location, hlocate, hfile⟩ := FileTree.readText_eq_ok.mp (h.holds hfront)
      have hafter := h'.keeps.locate hlocate
      refine FileTree.readText_eq_ok.mpr ⟨location, hafter, ?_⟩
      rw [h'.fileAt?_eq (hnames output hfront) hafter, hfile]
    · exact h'.holds hback
  · -- what the first list has changed is still where it was; any other change is by the second
    by_cases hsame : after.fileAt? location = middle.fileAt? location
    · obtain ⟨output, houtput, hlocate⟩ := h.frame (hsame ▸ hchanged)
      exact ⟨output, List.mem_append_left back houtput, h'.keeps.locate hlocate⟩
    · obtain ⟨output, houtput, hlocate⟩ := h'.frame hsame
      exact ⟨output, List.mem_append_right front houtput, hlocate⟩

/-- **One output is written**: the directory is made where it was missing,
and the file is set. -/
theorem wrote_write (h : output.write directory before = (.ok (), after)) :
    Wrote directory [output] before after := by
  obtain ⟨error, hresult, -⟩ | ⟨made, location, -, hgrows, hlocate, hnode, rfl⟩ :=
    FileTree.writeInto_cases h
  · cases hresult
  have hkeeps : made.Keeps (made.setNode location (.file output.text.toUTF8)) :=
    FileTree.keeps_setNode hnode
  have hfile := FileTree.fileAt?_setNode made output.text.toUTF8 (FileTree.ne_root_of_node? hnode)
  refine ⟨hgrows.keeps.trans hkeeps, fun {other} hother => ?_, fun {other} hchanged => ?_⟩
  · obtain rfl := List.mem_singleton.mp hother
    refine FileTree.readText_eq_ok.mpr ⟨location, hkeeps.locate hlocate, ?_⟩
    rw [hfile, if_pos rfl]
  · by_cases hother : other = location
    · exact ⟨output, List.mem_singleton_self output, hother ▸ hkeeps.locate hlocate⟩
    · rw [hfile, if_neg hother, hgrows.fileAt?_eq] at hchanged
      exact absurd rfl hchanged

/-- **An output that is refused** leaves directories behind at most. -/
theorem grows_write (h : output.write directory before = (.error error, after)) :
    before.Grows after := by
  obtain ⟨-, -, hgrows⟩ | ⟨-, -, hresult, -⟩ := FileTree.writeInto_cases h
  · exact hgrows
  · cases hresult

theorem writeAll_cons_run (directory : Path) (output : Output) (outputs : List Output)
    (tree : FileTree) :
    writeAll directory (output :: outputs) tree
      = match output.write directory tree with
        | (.error error, made) => (.error error, made)
        | (.ok (), made) => writeAll directory outputs made := by
  show (output.write directory >>= fun _ => writeAll directory outputs) tree = _
  simp only [bind, ExceptT.bind, ExceptT.mk, StateT.bind]
  match output.write directory tree with
  | (.error error, made) => rfl
  | (.ok (), made) => rfl

/-- Outputs are written after others if these have been accepted. -/
theorem writeAll_append_run (directory : Path) (front back : List Output) (tree : FileTree) :
    writeAll directory (front ++ back) tree
      = match writeAll directory front tree with
        | (.error error, made) => (.error error, made)
        | (.ok (), made) => writeAll directory back made := by
  induction front generalizing tree with
  | nil => rfl
  | cons output front ih =>
    rw [List.cons_append, writeAll_cons_run, writeAll_cons_run]
    match output.write directory tree with
    | (.error error, made) => rfl
    | (.ok (), made) => exact ih made

/-- **Outputs that are all accepted are all written**, and nothing else is,
if their names are different. -/
theorem wrote_writeAll (hnames : (outputs.map name).Nodup)
    (h : writeAll directory outputs before = (.ok (), after)) :
    Wrote directory outputs before after := by
  induction outputs generalizing before with
  | nil =>
    obtain rfl : before = after := (Prod.mk.inj h).2
    exact wrote_of_grows (.refl before)
  | cons output outputs ih =>
    rw [List.map_cons, List.nodup_cons] at hnames
    rw [writeAll_cons_run] at h
    split at h
    · cases h
    · next middle hwrite =>
      refine (wrote_write hwrite).append (ih hnames.2 h) fun x hx y hy heq => hnames.1 ?_
      rw [← List.mem_singleton.mp hx, heq]
      exact List.mem_map_of_mem hy

/-- **How far a list of outputs was written** that was stopped by one of
them. -/
structure StoppedAt (directory : Path) (front : List Output) (output : Output)
    (back : List Output) (before after : FileTree) : Prop where
  /-- Those in front of it have been accepted, and it has been refused. -/
  refused : ∃ middle error,
    writeAll directory front before = (.ok (), middle) ∧
    output.write directory middle = (.error error, after)
  /-- Those in front of it have been written, and nothing else has been. -/
  wrote : Wrote directory front before after
  /-- It and those behind it are as they were. -/
  untouched {other : Output} {location : Location} : other ∈ output :: back →
    after.locate (directory.inside other.name) = .ok location →
    after.fileAt? location = before.fileAt? location

/-- **Where a list of outputs is refused, one of them is**, and those in
front of it have been accepted. -/
theorem writeAll_refused
    (h : writeAll directory outputs before = (.error error, after)) :
    ∃ front output back middle, outputs = front ++ output :: back ∧
      writeAll directory front before = (.ok (), middle) ∧
      output.write directory middle = (.error error, after) := by
  induction outputs generalizing before with
  | nil => cases h
  | cons output outputs ih =>
    rw [writeAll_cons_run] at h
    split at h
    · next hwrite =>
      cases h
      exact ⟨[], output, outputs, before, rfl, rfl, hwrite⟩
    · next made hwrite =>
      obtain ⟨front, refused, back, middle, rfl, hfront, hrefused⟩ := ih h
      refine ⟨output :: front, refused, back, middle, rfl, ?_, hrefused⟩
      rw [writeAll_cons_run, hwrite]
      exact hfront

/-- **A list of outputs that is refused** has stopped at one of them, if their
names are different. -/
theorem stoppedAt_writeAll (hnames : (outputs.map name).Nodup)
    (h : writeAll directory outputs before = (.error error, after)) :
    ∃ front output back, outputs = front ++ output :: back ∧
      StoppedAt directory front output back before after := by
  obtain ⟨front, output, back, middle, rfl, hfront, houtput⟩ := writeAll_refused h
  rw [List.map_append, List.nodup_append] at hnames
  obtain ⟨hnodup, -, hdisjoint⟩ := hnames
  -- the output that was refused has made directories at most: it is as if no more was written
  have hwrote : Wrote directory front before after := by
    rw [← List.append_nil front]
    exact (wrote_writeAll hnodup hfront).append (wrote_of_grows (grows_write houtput))
      fun _ _ _ hy => absurd hy List.not_mem_nil
  refine ⟨front, output, back, rfl, ⟨middle, error, hfront, houtput⟩, hwrote,
    fun {other location} hother hlocate => hwrote.fileAt?_eq (fun x hx heq => ?_) hlocate⟩
  exact hdisjoint x.name (List.mem_map_of_mem hx) other.name (List.mem_map_of_mem hother) heq.symm

end Output

/-! ## Modules as outputs -/

/-- The name of the file of a stage is plain. -/
theorem Stage.plain_file (stage : Stage) : Path.IsPlain (stage.name ++ ".py") := by
  cases stage <;> decide

/-- What a stage made, as an output. -/
def Generated.output (generated : Generated) (stage : Stage) : Output :=
  ⟨stage.name ++ ".py", stage.plain_file, generated.text stage⟩

/-- The application module, as an output. -/
def Application.output (schemaFile : String) : Output :=
  ⟨fileName, by decide, text schemaFile⟩

/-- **Into a directory, generated modules are put as outputs.** -/
theorem Generated.putInto_directory (generated : Generated) (directory : Path) :
    (generated.putInto (Sink.directory directory) : ExceptT IoError (StateM FileTree) Unit)
      = Output.writeAll directory (Stage.all.map generated.output) := rfl

/-- **Generating into a sink** hands nothing over unless all is generated. -/
theorem Document.generateInto_run {σ : Type} (document : Document) (given : Scope)
    (sink : Sink (StateM σ)) (state : σ) :
    (document.generateInto given sink : ExceptT Failure (StateM σ) Generated) state
      = match document.generate given with
        | .error error => (.error (.generate error), state)
        | .ok generated =>
          match (generated.putInto sink : ExceptT IoError (StateM σ) Unit) state with
          | (.error error, after) => (.error (.io error), after)
          | (.ok (), after) => (.ok generated, after) := by
  unfold generateInto
  cases document.generate given with
  | error error => rfl
  | ok generated =>
    simp only [bind, ExceptT.bind, ExceptT.mk, StateT.bind, adapt_run]
    obtain ⟨result, after⟩ := (generated.putInto sink : ExceptT IoError (StateM σ) Unit) state
    cases result <;> rfl

end SchemaScaffold
