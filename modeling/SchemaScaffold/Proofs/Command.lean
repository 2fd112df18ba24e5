import SchemaScaffold.CommandLine.Run
import SchemaScaffold.Proofs.Writing

/-!
# What a run of the command changes

A run looks at the schema first, and only at the schema. If it is withheld –
it cannot be read, it is not accepted, or no modules can be generated from it
– the run ends there, and the tree is as it was. If not, all that is left to
do is known before anything is done: it is a list of outputs, the module of
each stage and then the application module if it is asked for
(`Arguments.outputs`). The rest of the run is to write this list
(`write_run_of_generate`), so what it changes is what writing a list
changes, whether the list is written to its end or an output is refused.
-/

namespace SchemaScaffold

/-! ## The schema -/

namespace FileTree

/-- **The schema at a path has modules.** -/
def Provides (tree : FileTree) (path : Path) (generated : Generated) : Prop :=
  ∃ text document, tree.readText path = .ok text ∧ Document.parse text = .ok document ∧
    document.generate .empty = .ok generated

/-- **The schema at a path has no modules.** -/
inductive Withholds (tree : FileTree) (path : Path) : Prop where
  /-- It cannot be read. -/
  | unreadable {error : IoError} (hread : tree.readText path = .error error)
  /-- Its text is not accepted. -/
  | unparsed {text : String} {error : ParseError} (hread : tree.readText path = .ok text)
      (hparse : Document.parse text = .error error)
  /-- A stage fails. -/
  | ungenerated {text : String} {document : Document} {error : GenerateError}
      (hread : tree.readText path = .ok text) (hparse : Document.parse text = .ok document)
      (hgenerate : document.generate .empty = .error error)

/-- A schema has modules or it has none. -/
theorem provides_or_withholds (tree : FileTree) (path : Path) :
    (∃ generated, tree.Provides path generated) ∨ tree.Withholds path := by
  cases hread : tree.readText path with
  | error error => exact .inr (.unreadable hread)
  | ok text =>
    cases hparse : Document.parse text with
    | error error => exact .inr (.unparsed hread hparse)
    | ok document =>
      cases hgenerate : document.generate .empty with
      | error error => exact .inr (.ungenerated hread hparse hgenerate)
      | ok generated => exact .inl ⟨generated, text, document, hread, hparse, hgenerate⟩

end FileTree

namespace CommandLine

/-! ## The outputs -/

namespace Arguments

/-- **What the arguments ask to be written**, in order. -/
def outputs (arguments : Arguments) (generated : Generated) : List Output :=
  Stage.all.map generated.output ++
    if arguments.app then [Application.output arguments.schemaFileName] else []

/-- **The paths the arguments ask to be written to**: those of the stages, and
that of the application module if it is asked for. -/
def Names (arguments : Arguments) (path : Path) : Prop :=
  (∃ stage : Stage, path = stage.pathIn arguments.outputDirectory) ∨
    arguments.app = true ∧ path = arguments.outputDirectory.inside Application.fileName

variable (arguments : Arguments) (generated : Generated)

/-- No name comes twice. -/
theorem nodup_outputs : ((arguments.outputs generated).map Output.name).Nodup := by
  unfold outputs
  cases arguments.app with
  | false => exact (by decide : ["types.py", "resolvers.py"].Nodup)
  | true => exact (by decide : ["types.py", "resolvers.py", "app.py"].Nodup)

/-- The outputs have the paths that are asked for. -/
theorem names_of_mem_outputs {output : Output} (h : output ∈ arguments.outputs generated) :
    arguments.Names (arguments.outputDirectory.inside output.name) := by
  obtain hstage | happ := List.mem_append.mp h
  · obtain ⟨stage, -, rfl⟩ := List.mem_map.mp hstage
    exact .inl ⟨stage, rfl⟩
  · split at happ
    · next hasked =>
      rw [List.mem_singleton.mp happ]
      exact .inr ⟨hasked, rfl⟩
    · cases happ

theorem output_mem_outputs (stage : Stage) :
    generated.output stage ∈ arguments.outputs generated :=
  List.mem_append_left _ (List.mem_map_of_mem (by cases stage <;> decide))

theorem application_mem_outputs (h : arguments.app = true) :
    Application.output arguments.schemaFileName ∈ arguments.outputs generated := by
  unfold outputs
  rw [if_pos h]
  exact List.mem_append_right _ (List.mem_singleton_self _)

end Arguments

/-! ## The run -/

variable {words : List String} {arguments : Arguments} {document : Document}
  {generated : Generated} {outcome : Outcome} {before after tree : FileTree}

/-- **The document of a file** is had from its text, and the tree is left as
it is. -/
theorem load_run (path : Path) (tree : FileTree) :
    (Document.load path : ExceptT LoadError (StateM FileTree) Document) tree
      = match tree.readText path with
        | .error error => (.error (.io error), tree)
        | .ok text =>
          match Document.parse text with
          | .error error => (.error (.parse error), tree)
          | .ok document => (.ok document, tree) := by
  simp only [Document.load, bind, ExceptT.bind, ExceptT.mk, StateT.bind, adapt_run,
    FileSystem.readText]
  cases tree.readText path with
  | error error => rfl
  | ok text =>
    cases hparse : Document.parse text with
    | error error =>
      simp only [Except.mapError, ExceptT.bindCont, hparse]
      rfl
    | ok document =>
      simp only [Except.mapError, ExceptT.bindCont, hparse]
      rfl

/-- A run ends where there is no document, and writes where there is one. -/
theorem perform_run (arguments : Arguments) (tree : FileTree) :
    (perform arguments : StateM FileTree Outcome) tree
      = match (Document.load arguments.schema :
          ExceptT LoadError (StateM FileTree) Document) tree with
        | (.error error, made) => (.rejected error, made)
        | (.ok document, made) => (write arguments document : StateM FileTree Outcome) made := by
  unfold perform
  simp only [bind, StateT.bind]
  match (Document.load arguments.schema : ExceptT LoadError (StateM FileTree) Document) tree with
  | (.error error, made) => rfl
  | (.ok document, made) => rfl

/-- **The application module is written as an output**, and where it went is
said. -/
theorem application_write_run (directory : Path) (schemaFile : String) (tree : FileTree) :
    (Application.write directory schemaFile : ExceptT IoError (StateM FileTree) Path) tree
      = match (Application.output schemaFile).write directory tree with
        | (.error error, made) => (.error error, made)
        | (.ok (), made) => (.ok (directory.inside Application.fileName), made) := by
  unfold Application.write Output.write Application.output
  simp only [bind, ExceptT.bind, ExceptT.mk, StateT.bind]
  match (writeInto directory (directory.inside Application.fileName)
    (Application.text schemaFile) : ExceptT IoError (StateM FileTree) Unit) tree with
  | (.error error, made) => rfl
  | (.ok (), made) => rfl

/-- The stages are generated, then written, and the application module comes
last. -/
theorem write_run (arguments : Arguments) (document : Document) (tree : FileTree) :
    (write arguments document : StateM FileTree Outcome) tree
      = match (document.generateInto .empty (Sink.directory arguments.outputDirectory) :
          ExceptT Failure (StateM FileTree) Generated) tree with
        | (.error failure, made) =>
          (.failed ("generating modules into " ++ arguments.outputDirectory.text) failure, made)
        | (.ok _, made) =>
          if arguments.app then
            match (Application.write arguments.outputDirectory arguments.schemaFileName :
                ExceptT IoError (StateM FileTree) Path) made with
            | (.error error, made) => (.failed "writing app.py" (.io error), made)
            | (.ok _, made) => (.finished, made)
          else (.finished, made) := by
  unfold write
  simp only [bind, StateT.bind]
  match (document.generateInto .empty (Sink.directory arguments.outputDirectory) :
    ExceptT Failure (StateM FileTree) Generated) tree with
  | (.error failure, made) => rfl
  | (.ok generated, made) =>
    cases arguments.app with
    | false => rfl
    | true =>
      simp only [StateT.bind, if_true, bind]
      match (Application.write arguments.outputDirectory arguments.schemaFileName :
        ExceptT IoError (StateM FileTree) Path) made with
      | (.error error, made) => rfl
      | (.ok path, made) => rfl

/-- **Without modules nothing is done**, and the run has failed. -/
theorem perform_of_withholds (h : before.Withholds arguments.schema)
    (hrun : (perform arguments : StateM FileTree Outcome) before = (outcome, after)) :
    outcome.exitCode = 1 ∧ after = before := by
  rw [perform_run, load_run] at hrun
  cases h with
  | unreadable hread =>
    rw [hread] at hrun
    obtain ⟨rfl, rfl⟩ := Prod.mk.inj hrun
    exact ⟨rfl, rfl⟩
  | unparsed hread hparse =>
    simp only [hread, hparse] at hrun
    obtain ⟨rfl, rfl⟩ := Prod.mk.inj hrun
    exact ⟨rfl, rfl⟩
  | ungenerated hread hparse hgenerate =>
    simp only [hread, hparse, write_run, Document.generateInto_run, hgenerate] at hrun
    obtain ⟨rfl, rfl⟩ := Prod.mk.inj hrun
    exact ⟨rfl, rfl⟩

/-- **With modules, the run is to write the outputs**, and it has failed just
if one of them is refused. -/
theorem perform_of_provides (h : before.Provides arguments.schema generated)
    (hrun : (perform arguments : StateM FileTree Outcome) before = (outcome, after)) :
    ∃ result, Output.writeAll arguments.outputDirectory (arguments.outputs generated) before
        = (result, after) ∧
      outcome.exitCode = (match result with | .ok () => 0 | .error _ => 1) := by
  obtain ⟨text, document, hread, hparse, hgenerate⟩ := h
  simp only [perform_run, load_run, hread, hparse, write_run, Document.generateInto_run,
    hgenerate, Generated.putInto_directory] at hrun
  -- the stages come first, and the application module only once they have been accepted
  unfold Arguments.outputs
  rw [Output.writeAll_append_run]
  match hstages : Output.writeAll arguments.outputDirectory (Stage.all.map generated.output)
    before with
  | (.error error, made) =>
    rw [hstages] at hrun
    obtain ⟨rfl, rfl⟩ := Prod.mk.inj hrun
    exact ⟨.error error, rfl, rfl⟩
  | (.ok (), made) =>
    rw [hstages] at hrun
    cases happ : arguments.app with
    | false =>
      rw [happ] at hrun
      obtain ⟨rfl, rfl⟩ := Prod.mk.inj hrun
      exact ⟨.ok (), rfl, rfl⟩
    | true =>
      rw [happ] at hrun
      simp only [if_true, application_write_run] at hrun ⊢
      rw [Output.writeAll_cons_run]
      match happlication : (Application.output arguments.schemaFileName).write
        arguments.outputDirectory made with
      | (.error error, written) =>
        rw [happlication] at hrun
        obtain ⟨rfl, rfl⟩ := Prod.mk.inj hrun
        exact ⟨.error error, rfl, rfl⟩
      | (.ok (), written) =>
        rw [happlication] at hrun
        obtain ⟨rfl, rfl⟩ := Prod.mk.inj hrun
        exact ⟨.ok (), rfl, rfl⟩

/-- With modules, all outputs are written, or one of them is refused. -/
theorem written_or_stopped (h : before.Provides arguments.schema generated)
    (hrun : (perform arguments : StateM FileTree Outcome) before = (outcome, after)) :
    (outcome.exitCode = 0 ∧
      Output.writeAll arguments.outputDirectory (arguments.outputs generated) before
        = (.ok (), after)) ∨
    (outcome.exitCode = 1 ∧
      ∃ front output back, arguments.outputs generated = front ++ output :: back ∧
        Output.StoppedAt arguments.outputDirectory front output back before after) := by
  obtain ⟨result, hwrite, hexit⟩ := perform_of_provides h hrun
  cases result with
  | ok _ => exact .inl ⟨hexit, hwrite⟩
  | error error =>
    exact .inr ⟨hexit, Output.stoppedAt_writeAll (arguments.nodup_outputs generated) hwrite⟩

/-- What is changed is at the path of an output. -/
theorem exists_names_of_changed
    (hrun : (perform arguments : StateM FileTree Outcome) before = (outcome, after))
    {location : Location} (hchanged : after.fileAt? location ≠ before.fileAt? location) :
    ∃ path, arguments.Names path ∧ after.locate path = .ok location := by
  obtain ⟨generated, hprovides⟩ | hwithholds := before.provides_or_withholds arguments.schema
  · obtain ⟨-, hall⟩ | ⟨-, front, refused, back, houtputs, hstopped⟩ :=
      written_or_stopped hprovides hrun
    · have hwrote := Output.wrote_writeAll (arguments.nodup_outputs generated) hall
      obtain ⟨output, houtput, hlocate⟩ := hwrote.frame hchanged
      exact ⟨_, arguments.names_of_mem_outputs generated houtput, hlocate⟩
    · obtain ⟨output, houtput, hlocate⟩ := hstopped.wrote.frame hchanged
      refine ⟨_, arguments.names_of_mem_outputs generated ?_, hlocate⟩
      rw [houtputs]
      exact List.mem_append_left _ houtput
  · rw [(perform_of_withholds hwithholds hrun).2] at hchanged
    exact absurd rfl hchanged

/-- A run that succeeds has found modules, and all outputs are written. -/
theorem wrote_of_exitCode
    (hrun : (perform arguments : StateM FileTree Outcome) before = (outcome, after))
    (hexit : outcome.exitCode = 0) : ∃ generated, before.Provides arguments.schema generated ∧
      Output.Wrote arguments.outputDirectory (arguments.outputs generated) before after := by
  obtain ⟨generated, hprovides⟩ | hwithholds := before.provides_or_withholds arguments.schema
  · obtain ⟨-, hall⟩ | ⟨hfailed, -⟩ := written_or_stopped hprovides hrun
    · exact ⟨generated, hprovides,
        Output.wrote_writeAll (arguments.nodup_outputs generated) hall⟩
    · rw [hexit] at hfailed
      cases hfailed
  · rw [(perform_of_withholds hwithholds hrun).1] at hexit
    cases hexit

/-- **What a run of the command changes**, whatever the tree is like.

However the run ends, no file is changed but at the paths that the arguments
ask to be written to. If the schema has no modules, the run fails and nothing
at all is changed. If it succeeds, the schema as it was at the start has
modules, and the files hold them and the application module, if this is asked
for. With modules, it succeeds just if all outputs are accepted; else it has
failed, and only those in front of the one refused have been written. -/
theorem run_changes (hwords : Arguments.ofWords words = .ok arguments)
    (hrun : (run words : StateM FileTree Outcome) before = (outcome, after)) :
    (∀ location, after.fileAt? location ≠ before.fileAt? location →
      ∃ path, arguments.Names path ∧ after.locate path = .ok location) ∧
    (before.Withholds arguments.schema → outcome.exitCode = 1 ∧ after = before) ∧
    (outcome.exitCode = 0 → ∃ generated, before.Provides arguments.schema generated ∧
      (∀ stage : Stage, after.readText (stage.pathIn arguments.outputDirectory)
        = .ok (generated.text stage)) ∧
      (arguments.app = true →
        after.readText (arguments.outputDirectory.inside Application.fileName)
          = .ok (Application.text arguments.schemaFileName))) ∧
    ∀ generated, before.Provides arguments.schema generated →
      (outcome.exitCode = 0 ∧
        Output.writeAll arguments.outputDirectory (arguments.outputs generated) before
        = (.ok (), after)) ∨
      (outcome.exitCode = 1 ∧
        ∃ front output back, arguments.outputs generated = front ++ output :: back ∧
          Output.StoppedAt arguments.outputDirectory front output back before after) := by
  have hperform : (perform arguments : StateM FileTree Outcome) before = (outcome, after) := by
    rw [run, hwords] at hrun
    exact hrun
  refine ⟨fun location hchanged => exists_names_of_changed hperform hchanged,
    fun hwithholds => perform_of_withholds hwithholds hperform, fun hexit => ?_,
    fun generated hprovides => written_or_stopped hprovides hperform⟩
  obtain ⟨generated, hprovides, hwrote⟩ := wrote_of_exitCode hperform hexit
  refine ⟨generated, hprovides, fun stage => ?_, fun happ => ?_⟩
  · have hholds := hwrote.holds (arguments.output_mem_outputs generated stage)
    exact hholds
  · have hholds := hwrote.holds (arguments.application_mem_outputs generated happ)
    exact hholds

/-- A tree with a schema, and with a directory where the module of resolvers
belongs that is generated beside it. -/
def occupied : FileTree where
  nodes := [(["schema.graphql"], .file "type Query \x7bbook(title: String!): String\x7d".toUTF8),
    (["resolvers.py"], .directory)]
  workingDirectory := []

/-- The schema there has modules. -/
theorem exists_provides_occupied :
    ∃ generated, occupied.Provides ⟨"schema.graphql"⟩ generated := by
  have hread : occupied.readText ⟨"schema.graphql"⟩
      = .ok "type Query \x7bbook(title: String!): String\x7d" := by decide +kernel
  have hrun : (Document.parse "type Query \x7bbook(title: String!): String\x7d").toOption.any
      (fun document => (document.generate .empty).toOption.any fun _ => true) = true := by
    decide +kernel
  obtain ⟨document, hparse, hdocument⟩ := exists_ok_of_any hrun
  obtain ⟨generated, hgenerate, -⟩ := exists_ok_of_any hdocument
  exact ⟨generated, _, document, hread, hparse, hgenerate⟩

/-- **Beside the schema the resolvers are refused**, and what was in front of
them has been written; into a directory of their own, all is written. -/
theorem run_changes_occupied :
    (∃ outcome after generated, (run ["schema.graphql"] : StateM FileTree Outcome) occupied
        = (outcome, after) ∧ outcome.exitCode = 1 ∧
      ∃ front output back,
        Arguments.outputs ⟨⟨"schema.graphql"⟩, none, false, false⟩ generated
          = front ++ output :: back ∧
        Output.StoppedAt ⟨""⟩ front output back occupied after) ∧
    ∃ outcome after, (run ["schema.graphql", "--app", "-oout/py"] : StateM FileTree Outcome)
        occupied = (outcome, after) ∧ outcome.exitCode = 0 ∧
      after.readText ⟨"out/py/app.py"⟩ = .ok (Application.text "schema.graphql") := by
  constructor
  · have hwords : Arguments.ofWords ["schema.graphql"]
        = .ok ⟨⟨"schema.graphql"⟩, none, false, false⟩ := by decide +kernel
    have hexit : ((run ["schema.graphql"] : StateM FileTree Outcome) occupied).1.exitCode = 1 := by
      decide +kernel
    have hdirectory : Arguments.outputDirectory ⟨⟨"schema.graphql"⟩, none, false, false⟩
        = ⟨""⟩ := by decide +kernel
    obtain ⟨generated, hprovides⟩ := exists_provides_occupied
    obtain ⟨outcome, after, hrun⟩ : ∃ outcome after,
        (run ["schema.graphql"] : StateM FileTree Outcome) occupied = (outcome, after) :=
      ⟨_, _, (Prod.eta _).symm⟩
    rw [hrun] at hexit
    obtain ⟨-, -, -, hfate⟩ := run_changes hwords hrun
    obtain ⟨hfinished, -⟩ | ⟨-, hstopped⟩ := hfate generated hprovides
    · rw [hexit] at hfinished
      cases hfinished
    · rw [hdirectory] at hstopped
      exact ⟨outcome, after, generated, hrun, hexit, hstopped⟩
  · have hwords : Arguments.ofWords ["schema.graphql", "--app", "-oout/py"]
        = .ok ⟨⟨"schema.graphql"⟩, some ⟨"out/py"⟩, true, false⟩ := by decide +kernel
    have hexit : ((run ["schema.graphql", "--app", "-oout/py"] :
        StateM FileTree Outcome) occupied).1.exitCode = 0 := by decide +kernel
    have hpath : Path.inside ⟨"out/py"⟩ Application.fileName = ⟨"out/py/app.py"⟩ := by
      decide +kernel
    have hfile : Arguments.schemaFileName
        ⟨⟨"schema.graphql"⟩, some ⟨"out/py"⟩, true, false⟩ = "schema.graphql" := by decide +kernel
    obtain ⟨outcome, after, hrun⟩ : ∃ outcome after,
        (run ["schema.graphql", "--app", "-oout/py"] : StateM FileTree Outcome) occupied
          = (outcome, after) := ⟨_, _, (Prod.eta _).symm⟩
    rw [hrun] at hexit
    obtain ⟨-, -, hfinished, -⟩ := run_changes hwords hrun
    obtain ⟨generated, -, -, happ⟩ := hfinished hexit
    have happlication := happ rfl
    rw [hfile] at happlication
    refine ⟨outcome, after, hrun, hexit, ?_⟩
    rw [← hpath]
    exact happlication

end CommandLine

end SchemaScaffold
