import SchemaScaffold.Proofs.Writing

/-!
# That the two sinks agree

A shelf and a directory are asked the same things, one after the other: to
take blocks for a stage, or the modules generated from a document. What is
given back for a request is known from the request alone
(`Request.answer`), if the directory starts out fresh (`FileTree.Fresh`): it
can be made and written to, and nothing is where the files of the stages
belong.

What ties the shelf to the tree (`Agree`) is weaker at the start than it is
later. Before anything has been put, the directory need not be there, and
the tree is the one it was. From the first text on the directory is there, and
at the place of each stage is the file that holds what the shelf holds, or
nothing. One request leads from either to the second, or leaves everything
as it was (`Request.exists_serve`), so the two never part.
-/

namespace SchemaScaffold

/-! ## Requests -/

/-- **What can be asked of a sink.** -/
inductive Request where
  /-- To take blocks for a stage. -/
  | put (stage : Stage) (blocks : List Block)
  /-- To take the modules generated from a document. -/
  | generate (document : Document) (given : Scope)

namespace Request

section

variable {m : Type → Type} [Monad m]

/-- **Does what a sink is asked**, and gives back what has been generated. -/
def serve (sink : Sink m) : Request → ExceptT Failure m (Option Generated)
  | put stage blocks => do
    (sink.putBlocks stage blocks).adapt Failure.io
    return none
  | generate document given => do
    let generated ← document.generateInto given sink
    return some generated

/-- **Does all that a sink is asked**, in order. What fails does not keep the
rest from being done. -/
def serveAll (sink : Sink m) : List Request → m (List (Except Failure (Option Generated)))
  | [] => return []
  | request :: requests => do
    let result ← (request.serve sink).run
    let results ← serveAll sink requests
    return result :: results

end

/-- **What is to be given back** for a request. -/
def answer : Request → Except Failure (Option Generated)
  | put _ _ => .ok none
  | generate document given =>
    match document.generate given with
    | .error error => .error (.generate error)
    | .ok generated => .ok (some generated)

/-- The blocks for a stage that a request writes, if it succeeds in it. -/
def blocks? (stage : Stage) : Request → Option (List Block)
  | put target blocks => if stage = target then some blocks else none
  | generate document given =>
    (document.generate given).toOption.map fun generated => generated.blocks stage

/-- **The blocks for a stage that were written last**, by a request that
succeeded. -/
def lastBlocks? (requests : List Request) (stage : Stage) : Option (List Block) :=
  requests.reverse.findSome? (blocks? stage)

theorem lastBlocks?_cons (request : Request) (requests : List Request) (stage : Stage) :
    lastBlocks? (request :: requests) stage
      = (lastBlocks? requests stage).or (request.blocks? stage) := by
  rw [lastBlocks?, lastBlocks?, List.reverse_cons, List.findSome?_append]
  simp

variable {σ : Type}

theorem serve_put_run (sink : Sink (StateM σ)) (stage : Stage) (blocks : List Block) (state : σ) :
    ((put stage blocks).serve sink : ExceptT Failure (StateM σ) (Option Generated)) state
      = match (sink.putBlocks stage blocks : ExceptT IoError (StateM σ) Unit) state with
        | (.error error, after) => (.error (.io error), after)
        | (.ok (), after) => (.ok none, after) := by
  simp only [serve, bind, ExceptT.bind, ExceptT.mk, StateT.bind, adapt_run]
  obtain ⟨result, after⟩ := (sink.putBlocks stage blocks : ExceptT IoError (StateM σ) Unit) state
  cases result <;> rfl

theorem serve_generate_run (sink : Sink (StateM σ)) (document : Document) (given : Scope)
    (state : σ) :
    ((generate document given).serve sink : ExceptT Failure (StateM σ) (Option Generated)) state
      = match (document.generateInto given sink : ExceptT Failure (StateM σ) Generated) state with
        | (.error failure, after) => (.error failure, after)
        | (.ok generated, after) => (.ok (some generated), after) := by
  simp only [serve, bind, ExceptT.bind, ExceptT.mk, StateT.bind]
  obtain ⟨result, after⟩ :=
    (document.generateInto given sink : ExceptT Failure (StateM σ) Generated) state
  cases result <;> rfl

theorem serveAll_cons_run (sink : Sink (StateM σ)) (request : Request) (requests : List Request)
    (state : σ) :
    (serveAll sink (request :: requests) : StateM σ _) state
      = match (request.serve sink : ExceptT Failure (StateM σ) (Option Generated)) state with
        | (result, middle) =>
          match (serveAll sink requests : StateM σ _) middle with
          | (results, after) => (result :: results, after) := rfl

/-- **A document from which nothing can be generated** leaves every sink as it
is. -/
theorem serve_generate_of_error {document : Document} {given : Scope} {error : GenerateError}
    (h : document.generate given = .error error) (sink : Sink (StateM σ)) (state : σ) :
    ((generate document given).serve sink : ExceptT Failure (StateM σ) (Option Generated)) state
      = (.error (.generate error), state) := by
  rw [serve_generate_run, Document.generateInto_run, h]

end Request

/-! ## A fresh directory -/

/-- **A directory can be made and written to**, and nothing is there yet where
the files of the stages belong. So it is with a directory that is missing at
first, and with one that has nothing in it. -/
structure FileTree.Fresh (root : Path) (tree made : FileTree) : Prop where
  /-- It can be made. -/
  created : (FileSystem.createDirectories root : ExceptT IoError (StateM FileTree) Unit) tree
    = (.ok (), made)
  /-- Nothing is at the places of the files. -/
  vacant {stage : Stage} {location : Location} :
    made.locate (stage.pathIn root) = .ok location → tree.node? location = none
  /-- The files can be written. -/
  writable (stage : Stage) (text : String) :
    ∃ written, made.writeText (stage.pathIn root) text = .ok written

variable {root : Path} {tree made current : FileTree} {shelf : Shelf} {stage other : Stage}
  {location : Location}

/-- Different stages have different files. -/
theorem Stage.eq_of_file_eq (h : stage.name ++ ".py" = other.name ++ ".py") : stage = other := by
  cases stage <;> cases other <;> first | rfl | exact absurd h (by decide)

namespace FileTree.Fresh

/-- The file of a stage has a place. -/
theorem exists_locate (h : Fresh root tree made) (stage : Stage) :
    ∃ location, made.locate (stage.pathIn root) = .ok location := by
  obtain ⟨written, hwritten⟩ := h.writable stage ""
  obtain ⟨location, hlocate, -⟩ := writeText_eq_ok.mp hwritten
  exact ⟨location, hlocate⟩

/-- Nothing is there once the directory has been made. -/
theorem node?_eq_none (h : Fresh root tree made)
    (hlocate : made.locate (stage.pathIn root) = .ok location) : made.node? location = none := by
  obtain ⟨written, hwritten⟩ := h.writable stage ""
  obtain ⟨place, hplace, hnode, -⟩ := writeText_eq_ok.mp hwritten
  obtain rfl : location = place := Except.ok.inj (hlocate.symm.trans hplace)
  -- a directory made at this very place would not let the file be written
  obtain heq | ⟨-, hdirectory⟩ := (grows_createDirectories h.created).node?_eq location
  · rw [heq, h.vacant hlocate]
  · exact absurd hdirectory hnode

end FileTree.Fresh

/-! ## The shelf and the tree -/

/-- **The tree holds what the shelf holds**, in files at the places of the
stages. -/
structure Mirrors (root : Path) (made : FileTree) (shelf : Shelf) (current : FileTree) : Prop where
  /-- The directory that was made is there. -/
  keeps : made.Keeps current
  /-- At the place of a stage is the file for it, or nothing. -/
  node?_eq {stage : Stage} {location : Location} :
    made.locate (stage.pathIn root) = .ok location →
    current.node? location = (shelf.get? stage).map fun text => Node.file text.toUTF8

/-- **The shelf and the tree agree**: nothing has been put anywhere yet, or
the tree holds what the shelf holds. -/
inductive Agree (root : Path) (tree made : FileTree) : Shelf → FileTree → Prop where
  /-- Nothing has been put. -/
  | untouched : Agree root tree made .empty tree
  /-- Something has been. -/
  | mirrored {shelf : Shelf} {current : FileTree} (h : Mirrors root made shelf current) :
    Agree root tree made shelf current

/-- Before the first text, the directory is made, and nothing is in it that
the shelf does not hold. -/
theorem mirrors_made (h : tree.Fresh root made) : Mirrors root made .empty made := by
  refine ⟨.refl made, fun {stage location} hlocate => ?_⟩
  rw [h.node?_eq_none hlocate]
  cases stage <;> rfl

/-- **The directory can be made at any time**, and then the tree holds what
the shelf holds. -/
theorem Agree.createDirectories (hfresh : tree.Fresh root made)
    (h : Agree root tree made shelf current) :
    ∃ base, (FileSystem.createDirectories root : ExceptT IoError (StateM FileTree) Unit) current
      = (.ok (), base) ∧ Mirrors root made shelf base := by
  cases h with
  | untouched => exact ⟨made, hfresh.created, mirrors_made hfresh⟩
  | mirrored h => exact ⟨current, FileTree.createDirectories_again hfresh.created h.keeps, h⟩

/-- **A file set for a stage is as a text kept for it.** -/
theorem Mirrors.setNode (h : Mirrors root made shelf current)
    (hlocate : made.locate (stage.pathIn root) = .ok location) (text : String) :
    current.node? location ≠ some .directory ∧
      Mirrors root made (shelf.set stage text)
        (current.setNode location (.file text.toUTF8)) := by
  have hnode : current.node? location ≠ some .directory := by
    rw [h.node?_eq hlocate]
    cases shelf.get? stage <;> exact nofun
  refine ⟨hnode, h.keeps.trans (FileTree.keeps_setNode hnode),
    fun {other place} hplace => ?_⟩
  rw [FileTree.node?_setNode_of_ne current (FileTree.ne_root_of_node? hnode), Shelf.get?_set]
  by_cases hother : other = stage
  · subst hother
    rw [if_pos rfl, if_pos (Except.ok.inj (hplace.symm.trans hlocate))]
    rfl
  · have hne : place ≠ location := fun heq => hother (Stage.eq_of_file_eq
      (FileTree.eq_of_locate_inside other.plain_file stage.plain_file hplace (heq ▸ hlocate)))
    rw [if_neg hother, if_neg hne]
    exact h.node?_eq hplace

/-- **A text for a stage is taken by both sinks**, and they still agree. -/
theorem Agree.put (hfresh : tree.Fresh root made) (h : Agree root tree made shelf current)
    (stage : Stage) (text : String) :
    ∃ after, ((Sink.directory root).put stage text :
        ExceptT IoError (StateM FileTree) Unit) current = (.ok (), after) ∧
      Agree root tree made (shelf.set stage text) after := by
  obtain ⟨base, hbase, hmirrors⟩ := h.createDirectories hfresh
  obtain ⟨location, hlocate⟩ := hfresh.exists_locate stage
  obtain ⟨hnode, hset⟩ := hmirrors.setNode hlocate text
  have hwrite : base.writeText (stage.pathIn root) text
      = .ok (base.setNode location (.file text.toUTF8)) :=
    FileTree.writeText_eq_ok.mpr ⟨location, hmirrors.keeps.locate hlocate, hnode, rfl⟩
  refine ⟨base.setNode location (.file text.toUTF8), ?_, .mirrored hset⟩
  show (writeInto root (stage.pathIn root) text :
    ExceptT IoError (StateM FileTree) Unit) current = _
  rw [FileTree.writeInto_run, hbase]
  show FileTree.change base (base.writeText (stage.pathIn root) text) = _
  rw [hwrite]
  rfl

/-- **Generated modules are taken by both sinks**, stage by stage. -/
theorem Agree.putInto (hfresh : tree.Fresh root made) (h : Agree root tree made shelf current)
    (generated : Generated) :
    ∃ after, (generated.putInto (Sink.directory root) :
        ExceptT IoError (StateM FileTree) Unit) current = (.ok (), after) ∧
      Agree root tree made
        ((shelf.set .types (generated.text .types)).set .resolvers (generated.text .resolvers))
        after := by
  obtain ⟨middle, htypes, hmiddle⟩ := h.put hfresh .types (generated.text .types)
  obtain ⟨after, hresolvers, hafter⟩ := hmiddle.put hfresh .resolvers (generated.text .resolvers)
  have htypes' : (generated.output .types).write root current = (.ok (), middle) := htypes
  have hresolvers' : (generated.output .resolvers).write root middle = (.ok (), after) := hresolvers
  refine ⟨after, ?_, hafter⟩
  show Output.writeAll root [generated.output .types, generated.output .resolvers] current = _
  rw [Output.writeAll_cons_run, htypes']
  show Output.writeAll root [generated.output .resolvers] middle = _
  rw [Output.writeAll_cons_run, hresolvers']
  rfl

/-- **What is read is what is kept**, and nothing is found where nothing is
kept. -/
theorem Agree.readText_eq (hfresh : tree.Fresh root made)
    (h : Agree root tree made shelf current) (stage : Stage) :
    current.readText (stage.pathIn root)
      = match shelf.get? stage with
        | some text => .ok text
        | none => .error .notFound := by
  obtain ⟨location, hlocate⟩ := hfresh.exists_locate stage
  cases h with
  | untouched =>
    have hnone : Shelf.empty.get? stage = none := by cases stage <;> rfl
    rw [hnone]
    -- the directory need not be there yet, and then the path does not lead anywhere
    obtain hbefore | hbefore := (FileTree.grows_createDirectories hfresh.created).locate hlocate
    · exact FileTree.readText_of_node?_eq_none hbefore (hfresh.vacant hlocate)
    · exact FileTree.readText_of_locate_eq_error hbefore
  | mirrored h =>
    have hlocate' := h.keeps.locate hlocate
    have hnode := h.node?_eq hlocate
    cases hkept : shelf.get? stage with
    | none =>
      rw [hkept] at hnode
      exact FileTree.readText_of_node?_eq_none hlocate' hnode
    | some text =>
      rw [hkept] at hnode
      refine FileTree.readText_eq_ok.mpr ⟨location, hlocate', ?_⟩
      rw [FileTree.fileAt?, hnode]
      rfl

/-! ## Runs -/

namespace Request

variable {request : Request} {requests : List Request}

/-- **One request keeps the two in agreement.** Both give back the answer that
is to be given, and what is kept for a stage is what the request has written
for it, if anything. -/
theorem exists_serve (hfresh : tree.Fresh root made) (h : Agree root tree made shelf current)
    (request : Request) :
    ∃ shelf' after,
      (request.serve Sink.shelf : ExceptT Failure (StateM Shelf) (Option Generated)) shelf
        = (request.answer, shelf') ∧
      (request.serve (Sink.directory root) :
        ExceptT Failure (StateM FileTree) (Option Generated)) current = (request.answer, after) ∧
      Agree root tree made shelf' after ∧
      ∀ stage : Stage, shelf'.get? stage
        = ((request.blocks? stage).map (Module.text stage.module)).or (shelf.get? stage) := by
  cases request with
  | put stage blocks =>
    obtain ⟨after, hput, hafter⟩ := h.put hfresh stage (Module.text stage.module blocks)
    refine ⟨shelf.set stage (Module.text stage.module blocks), after, rfl, ?_, hafter,
      fun other => ?_⟩
    · rw [serve_put_run]
      unfold Sink.putBlocks
      rw [hput]
      rfl
    · rw [Shelf.get?_set, blocks?]
      by_cases hother : other = stage
      · rw [if_pos hother, if_pos hother, hother]
        rfl
      · rw [if_neg hother, if_neg hother]
        rfl
  | generate document given =>
    cases hgenerate : document.generate given with
    | error error =>
      have hanswer : (generate document given).answer = .error (.generate error) := by
        rw [answer, hgenerate]
      refine ⟨shelf, current, ?_, ?_, h, fun stage => ?_⟩
      · rw [hanswer, serve_generate_of_error hgenerate]
      · rw [hanswer, serve_generate_of_error hgenerate]
      · rw [blocks?, hgenerate]
        rfl
    | ok generated =>
      have hanswer : (generate document given).answer = .ok (some generated) := by
        rw [answer, hgenerate]
      obtain ⟨after, hput, hafter⟩ := h.putInto hfresh generated
      refine ⟨_, after, ?_, ?_, hafter, fun stage => ?_⟩
      · rw [hanswer, serve_generate_run, Document.generateInto_run, hgenerate]
        rfl
      · rw [hanswer, serve_generate_run, Document.generateInto_run, hgenerate]
        simp only [hput]
      · rw [Shelf.get?_set, Shelf.get?_set, blocks?, hgenerate]
        cases stage <;> rfl

/-- **So does any number of requests**, and what is kept for a stage is what
was written for it last. -/
theorem exists_serveAll (hfresh : tree.Fresh root made) (h : Agree root tree made shelf current)
    (requests : List Request) :
    ∃ shelf' after,
      (serveAll Sink.shelf requests : StateM Shelf _) shelf = (requests.map answer, shelf') ∧
      (serveAll (Sink.directory root) requests : StateM FileTree _) current
        = (requests.map answer, after) ∧
      Agree root tree made shelf' after ∧
      ∀ stage : Stage, shelf'.get? stage
        = ((lastBlocks? requests stage).map (Module.text stage.module)).or
          (shelf.get? stage) := by
  induction requests generalizing shelf current with
  | nil => exact ⟨shelf, current, rfl, rfl, h, fun stage => rfl⟩
  | cons request requests ih =>
    obtain ⟨shelf₁, middle, hshelf, htree, hmiddle, hkept⟩ := exists_serve hfresh h request
    obtain ⟨shelf₂, after, hshelf', htree', hafter, hkept'⟩ := ih hmiddle
    refine ⟨shelf₂, after, ?_, ?_, hafter, fun stage => ?_⟩
    · rw [serveAll_cons_run, hshelf]
      simp only [hshelf', List.map_cons]
    · rw [serveAll_cons_run, htree]
      simp only [htree', List.map_cons]
    · rw [hkept' stage, hkept stage, lastBlocks?_cons, Option.map_or, Option.or_assoc]

/-- **The two sinks agree over any run**, if the directory starts out fresh.

Whatever a shelf with nothing on it and the directory are asked, both give the
same answers. And since the run may be any, it is after each step of it that
what follows holds. What the shelf keeps for a stage is the text of the blocks that
were written for it last, and this is what can be read from the file of the
stage; where the shelf keeps nothing, there is no file. And if nothing can be
generated from a document that comes next, both are left exactly as they
are. -/
theorem serveAll_agrees (hfresh : tree.Fresh root made) (requests : List Request) :
    ∃ shelf after,
      (serveAll Sink.shelf requests : StateM Shelf _) .empty = (requests.map answer, shelf) ∧
      (serveAll (Sink.directory root) requests : StateM FileTree _) tree
        = (requests.map answer, after) ∧
      (∀ stage : Stage, shelf.get? stage
        = (lastBlocks? requests stage).map (Module.text stage.module)) ∧
      (∀ stage : Stage, after.readText (stage.pathIn root)
        = match shelf.get? stage with
          | some text => .ok text
          | none => .error .notFound) ∧
      ∀ document given error, document.generate given = .error error →
        ((generate document given).serve Sink.shelf :
          ExceptT Failure (StateM Shelf) (Option Generated)) shelf
            = (.error (.generate error), shelf) ∧
        ((generate document given).serve (Sink.directory root) :
          ExceptT Failure (StateM FileTree) (Option Generated)) after
            = (.error (.generate error), after) := by
  obtain ⟨shelf, after, hshelf, htree, hagree, hkept⟩ := exists_serveAll hfresh .untouched requests
  refine ⟨shelf, after, hshelf, htree, fun stage => ?_, hagree.readText_eq hfresh,
    fun document given error herror =>
      ⟨serve_generate_of_error herror _ _, serve_generate_of_error herror _ _⟩⟩
  rw [hkept stage]
  cases stage <;> exact Option.or_none

/-- In a tree with nothing in it, a directory two levels down is fresh. -/
theorem exists_fresh_nested : ∃ made, FileTree.Fresh ⟨"out/py"⟩ ⟨[], []⟩ made := by
  have hcreated : ((FileSystem.createDirectories ⟨"out/py"⟩ :
      ExceptT IoError (StateM FileTree) Unit) ⟨[], []⟩).1 = .ok () := by decide +kernel
  have hplace : ∀ stage : Stage, ((FileSystem.createDirectories ⟨"out/py"⟩ :
      ExceptT IoError (StateM FileTree) Unit) ⟨[], []⟩).2.locate (stage.pathIn ⟨"out/py"⟩)
        = .ok ["out", "py", stage.name ++ ".py"] := fun stage => by
    cases stage <;> decide +kernel
  have hnode : ∀ stage : Stage, ((FileSystem.createDirectories ⟨"out/py"⟩ :
      ExceptT IoError (StateM FileTree) Unit) ⟨[], []⟩).2.node?
        ["out", "py", stage.name ++ ".py"] = none := fun stage => by
    cases stage <;> decide +kernel
  refine ⟨_, ⟨(Prod.eta _).symm.trans (Prod.ext hcreated rfl), fun {stage location} hlocate => ?_,
    fun stage text => ⟨_, FileTree.writeText_eq_ok.mpr ⟨_, hplace stage, ?_, rfl⟩⟩⟩⟩
  · rw [Except.ok.inj (hlocate.symm.trans (hplace stage))]
    rfl
  · rw [hnode stage]
    exact nofun

/-- A document that speaks of a type nothing provides. -/
def unprovided : Document := .ofList [.union { name := "Item", members := ["Book"] }]

/-- **Blocks for one stage, and a document of which nothing comes**: there is
one module in both sinks, and no file for the other. -/
theorem serveAll_agrees_nested :
    ∃ (made : FileTree) (shelf : Shelf) (after : FileTree),
      FileTree.Fresh ⟨"out/py"⟩ ⟨[], []⟩ made ∧
      (serveAll (Sink.directory ⟨"out/py"⟩) [put .resolvers [], generate unprovided .empty] :
        StateM FileTree _) ⟨[], []⟩
          = ([.ok none, .error (.generate (.unresolvedType "Book"))], after) ∧
      shelf.get? .types = none ∧
      after.readText (Stage.types.pathIn ⟨"out/py"⟩) = .error .notFound ∧
      after.readText (Stage.resolvers.pathIn ⟨"out/py"⟩)
        = .ok (Module.text Stage.resolvers.module []) := by
  obtain ⟨made, hfresh⟩ := exists_fresh_nested
  have herror : unprovided.generate .empty = .error (.unresolvedType "Book") :=
    failure?_eq_some.mp (by decide +kernel)
  have hanswer : (generate unprovided .empty).answer
      = .error (.generate (.unresolvedType "Book")) := by rw [answer, herror]
  have hlast : ∀ stage : Stage, lastBlocks? [put .resolvers [], generate unprovided .empty] stage
      = if stage = .resolvers then some [] else none := fun stage => by
    rw [lastBlocks?_cons, lastBlocks?_cons, blocks?, blocks?, herror]
    rfl
  obtain ⟨shelf, after, -, htree, hkept, hread, -⟩ :=
    serveAll_agrees hfresh [put .resolvers [], generate unprovided .empty]
  have htypes : shelf.get? .types = none := by
    rw [hkept .types, hlast .types]
    rfl
  have hresolvers : shelf.get? .resolvers = some (Module.text Stage.resolvers.module []) := by
    rw [hkept .resolvers, hlast .resolvers]
    rfl
  have hreadTypes := hread .types
  have hreadResolvers := hread .resolvers
  rw [htypes] at hreadTypes
  rw [hresolvers] at hreadResolvers
  rw [List.map_cons, List.map_cons, hanswer] at htree
  exact ⟨made, shelf, after, hfresh, htree, htypes, hreadTypes, hreadResolvers⟩

end Request

end SchemaScaffold
