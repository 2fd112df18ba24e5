import SchemaScaffold.Proofs.BytePath
import SchemaScaffold.Proofs.Command
import SchemaScaffold.Proofs.Literal

/-!
# Whether the application finds its schema

The application module is started later, and by another program. What it
loads then is not the schema that was read but a file *beside the module*, by
a name that is written in it between quotation marks. Two things have to hold
for this to be the schema. The name has to be read as it was written, which is
the case just if it is inert (`Application.schemaFile?_text`). And the file of
that name beside the module has to be the schema.

The second holds where the module is written into the parent of the schema,
for there the name leads to the schema (`FileTree.readText_parent_inside`),
however the path of the schema is spelled. It does not hold in a directory
that is asked for, because nothing is ever written there but modules: the
schema is in it just if it was in it before (`run_launches`). So a service
that is generated into a directory of its own does not start
(`missesSchema_shelf`).
-/

namespace SchemaScaffold

namespace Application

/-- The text of the module up to the name of the file of the schema. -/
def opening : String :=
  "\n".intercalate ((lines "").take 8
    ++ ["type_defs = load_schema_from_path(Path(__file__).parent / \""])

/-- The text of the module behind that name and the mark that ends it. -/
def closing : String := ")\n" ++ "\n".intercalate ((lines "").drop 9) ++ "\n"

theorem text_eq (name : String) : text name = opening ++ name ++ "\"" ++ closing := by
  unfold text opening closing lines
  simp only [List.take, List.drop, List.cons_append, List.nil_append,
    String.intercalate_cons_cons, String.intercalate_singleton, String.append_assoc]
  rfl

theorem toList_text (name : String) :
    (text name).toList = opening.toList ++ (name.toList ++ '"' :: closing.toList) := by
  rw [text_eq, String.append_assoc, String.append_assoc, String.toList_append,
    String.toList_append, String.toList_append]
  rfl

/-- **The name of the file that a module loads**, if the rest of the module is
as it should be. -/
def schemaFile? (named : String → Option Char) (module : String) : Option String :=
  if opening.toList.isPrefixOf module.toList then
    match Literal.read? named (module.toList.drop opening.toList.length) with
    | some (name, rest) => if rest = closing.toList then some (String.ofList name) else none
    | none => none
  else none

/-- **A module loads the file that it names** just if the name is inert. -/
theorem schemaFile?_text {named : String → Option Char} {name : String} :
    schemaFile? named (text name) = some name ↔ Literal.IsInert name.toList := by
  have hread : Literal.read? named (name.toList ++ '"' :: closing.toList)
      = some (name.toList, closing.toList) ↔ Literal.IsInert name.toList := Literal.read?_eq_some
  rw [← hread, schemaFile?, toList_text,
    if_pos (List.isPrefixOf_iff_prefix.mpr (List.prefix_append _ _)), List.drop_left]
  cases Literal.read? named (name.toList ++ '"' :: closing.toList) with
  | none => exact ⟨fun h => (by cases h), fun h => (by cases h)⟩
  | some found =>
    obtain ⟨value, rest⟩ := found
    dsimp only
    constructor
    · intro h
      split at h
      · next hrest =>
        rw [hrest, ← Option.some.inj h, String.toList_ofList]
      · cases h
    · intro h
      obtain ⟨rfl, rfl⟩ := Prod.mk.inj (Option.some.inj h)
      rw [if_pos rfl, String.ofList_toList]

/-- **A name with a mark in it ends there**, and then the rest of the module is
not as it should be. -/
theorem schemaFile?_text_of_mark {named : String → Option Char} {name : String}
    {front back : List Char} (hname : name.toList = front ++ '"' :: back)
    (hfront : Literal.IsInert front) : schemaFile? named (text name) = none := by
  have hread : Literal.read? named (front ++ '"' :: (back ++ '"' :: closing.toList))
      = some (front, back ++ '"' :: closing.toList) := Literal.read?_eq_some.mpr hfront
  have hrest : back ++ '"' :: closing.toList ≠ closing.toList := by
    intro h
    have hlength := congrArg List.length h
    rw [List.length_append, List.length_cons] at hlength
    omega
  rw [schemaFile?, toList_text,
    if_pos (List.isPrefixOf_iff_prefix.mpr (List.prefix_append _ _)), List.drop_left, hname,
    List.append_assoc, List.cons_append, hread]
  exact if_neg hrest

end Application

namespace FileTree

variable {tree : FileTree} {directory : Path} {name schema : String}
  {named : String → Option Char}

/-- **Whether the application module in a directory loads a schema**: the file
that the module names is in the same directory and holds the schema. -/
def Launches (tree : FileTree) (named : String → Option Char) (directory : Path)
    (schema : String) : Prop :=
  ∃ module name, tree.readText (directory.inside Application.fileName) = .ok module ∧
    Application.schemaFile? named module = some name ∧
    tree.readText (directory.inside name) = .ok schema

/-- With an inert name it does just if the schema is the file of that name. -/
theorem launches_iff
    (hmodule : tree.readText (directory.inside Application.fileName)
      = .ok (Application.text name)) (hinert : Literal.IsInert name.toList) :
    tree.Launches named directory schema ↔ tree.readText (directory.inside name) = .ok schema := by
  have hname : Application.schemaFile? named (Application.text name) = some name :=
    Application.schemaFile?_text.mpr hinert
  constructor
  · rintro ⟨module, found, hread, hfound, hschema⟩
    obtain rfl := Except.ok.inj (hmodule.symm.trans hread)
    obtain rfl := Option.some.inj (hname.symm.trans hfound)
    exact hschema
  · intro hschema
    exact ⟨_, name, hmodule, hname, hschema⟩

end FileTree

namespace Output

variable {directory : Path} {outputs : List Output} {before after : FileTree}
  {name schema : String}

/-- **A file beside the outputs is as it was.** -/
theorem Wrote.readText_iff (h : Wrote directory outputs before after) (hplain : Path.IsPlain name)
    (hnames : ∀ output ∈ outputs, name ≠ output.name) :
    after.readText (directory.inside name) = .ok schema ↔
      ∃ location, after.locate (directory.inside name) = .ok location ∧
        before.fileAt? location = some schema.toUTF8 := by
  rw [FileTree.readText_eq_ok]
  let output : Output := ⟨name, hplain, ""⟩
  have hnames : ∀ other ∈ outputs, output.name ≠ other.name := hnames
  refine exists_congr fun location => and_congr_right fun hlocate => ?_
  rw [h.fileAt?_eq hnames hlocate]

end Output

namespace CommandLine

variable {words : List String} {arguments : Arguments} {generated : Generated}
  {outcome : Outcome} {before after : FileTree} {schema name : String}

/-- The directory to write to is the parent of the schema, unless one is asked
for. -/
theorem Arguments.outputDirectory_eq (hname : arguments.schema.fileName? = some name)
    (hout : arguments.outDir? = none) :
    arguments.schema.parent? = some arguments.outputDirectory := by
  obtain ⟨parent, hparent⟩ := Path.exists_parent?_of_fileName? hname
  rw [outputDirectory, hout, hparent]
  rfl

/-- A run with words that can be read performs what they ask for. -/
theorem perform_of_run (hwords : Arguments.ofWords words = .ok arguments)
    (hrun : (run words : StateM FileTree Outcome) before = (outcome, after)) :
    (perform arguments : StateM FileTree Outcome) before = (outcome, after) := by
  rw [run, hwords] at hrun
  exact hrun

/-- **The application module is the one for the name of the schema.** -/
theorem readText_application (hwords : Arguments.ofWords words = .ok arguments)
    (happ : arguments.app = true)
    (hrun : (run words : StateM FileTree Outcome) before = (outcome, after))
    (hexit : outcome.exitCode = 0) (hname : arguments.schema.fileName? = some name) :
    after.readText (arguments.outputDirectory.inside Application.fileName)
      = .ok (Application.text name) := by
  obtain ⟨generated, -, hwrote⟩ := wrote_of_exitCode (perform_of_run hwords hrun) hexit
  have hfileName : arguments.schemaFileName = name := by
    rw [Arguments.schemaFileName_eq, hname]
    rfl
  have hholds := hwrote.holds (arguments.application_mem_outputs generated happ)
  rw [← hfileName]
  exact hholds

/-- **When the application finds its schema.** Let the application module be
asked for, let the run succeed, and let the schema be at the end what it was.
Then the schema has a name, the modules are those of the schema, and the
application module is the one for this name. It loads a file of this name just
if the name is inert.

Let it be inert. Without a directory that is asked for, the application finds
its schema. In such a directory it does just if there is a file of the same
name, not one of the modules, that was there before and holds the schema – for
nothing but the modules is written there. -/
theorem run_launches (named : String → Option Char) (hproper : before.Proper)
    (hwords : Arguments.ofWords words = .ok arguments) (happ : arguments.app = true)
    (hrun : (run words : StateM FileTree Outcome) before = (outcome, after))
    (hexit : outcome.exitCode = 0)
    (hkept : after.readText arguments.schema = before.readText arguments.schema) :
    ∃ schema name document generated, before.readText arguments.schema = .ok schema ∧
      Document.parse schema = .ok document ∧ document.generate .empty = .ok generated ∧
      (∀ stage : Stage, after.readText (stage.pathIn arguments.outputDirectory)
        = .ok (generated.text stage)) ∧
      arguments.schema.fileName? = some name ∧
      after.readText (arguments.outputDirectory.inside Application.fileName)
        = .ok (Application.text name) ∧
      (Application.schemaFile? named (Application.text name) = some name ↔
        Literal.IsInert name.toList) ∧
      (Literal.IsInert name.toList →
        (arguments.outDir? = none → after.Launches named arguments.outputDirectory schema) ∧
        ∀ directory, arguments.outDir? = some directory →
          (∀ output ∈ arguments.outputs generated, name ≠ output.name) →
          (after.Launches named directory schema ↔
            ∃ location, after.locate (directory.inside name) = .ok location ∧
              before.fileAt? location = some schema.toUTF8)) := by
  obtain ⟨generated, ⟨schema, document, hread, hparse, hgenerate⟩, hwrote⟩ :=
    wrote_of_exitCode (perform_of_run hwords hrun) hexit
  obtain ⟨location, hlocate, hfile⟩ := FileTree.readText_eq_ok.mp hread
  obtain ⟨name, hname⟩ := FileTree.exists_fileName?_of_file hproper hlocate hfile
  have hstages (stage : Stage) : after.readText (stage.pathIn arguments.outputDirectory)
      = .ok (generated.text stage) := by
    have hholds := hwrote.holds (arguments.output_mem_outputs generated stage)
    exact hholds
  have hmodule := readText_application hwords happ hrun hexit hname
  refine ⟨schema, name, document, generated, hread, hparse, hgenerate,
    hstages, hname, hmodule, Application.schemaFile?_text,
    fun hinert => ⟨fun hout => ?_, fun directory hout hnames => ?_⟩⟩
  · have hparent := Arguments.outputDirectory_eq hname hout
    rw [FileTree.launches_iff hmodule hinert]
    exact FileTree.readText_parent_inside (hkept.trans hread) hname hparent
  · have hdirectory : arguments.outputDirectory = directory := by
      rw [Arguments.outputDirectory, hout]
    rw [hdirectory] at hmodule hwrote
    obtain ⟨-, -, -, hplain⟩ := Path.exists_endsWith_of_fileName? hname
    rw [FileTree.launches_iff hmodule hinert]
    exact Output.Wrote.readText_iff hwrote hplain hnames

/-! ## Two services -/

/-- The schema of a small service. -/
def shelfSchema : String := "type Query \x7bbook(id: ID!): String\x7d"

/-- A tree with this schema in two files, one of which has a mark in its
name. -/
def shelf : FileTree where
  nodes := [(["library.graphql"], .file shelfSchema.toUTF8),
    (["new\"s.graphql"], .file shelfSchema.toUTF8)]
  workingDirectory := []

/-- In the directory of the schema the application finds it. -/
theorem run_launches_shelf :
    ∃ outcome after, (run ["library.graphql", "--app"] : StateM FileTree Outcome) shelf
        = (outcome, after) ∧ outcome.exitCode = 0 ∧
      after.readText ⟨"library.graphql"⟩ = shelf.readText ⟨"library.graphql"⟩ ∧
      ∃ schema, shelf.readText ⟨"library.graphql"⟩ = .ok schema ∧
        ∀ named, after.Launches named ⟨""⟩ schema := by
  have hproper : shelf.Proper := FileTree.proper_of_forall_mem (by decide +kernel)
  have hwords : Arguments.ofWords ["library.graphql", "--app"]
      = .ok ⟨⟨"library.graphql"⟩, none, true, false⟩ := by decide +kernel
  have hresult :
      ((run ["library.graphql", "--app"] : StateM FileTree Outcome) shelf).1.exitCode = 0 ∧
      ((run ["library.graphql", "--app"] : StateM FileTree Outcome) shelf).2.readText
        ⟨"library.graphql"⟩ = shelf.readText ⟨"library.graphql"⟩ := by decide +kernel
  have hinert : Literal.IsInert "library.graphql".toList := by decide
  have hname : Path.fileName? ⟨"library.graphql"⟩ = some "library.graphql" := by decide +kernel
  have hdirectory : Arguments.outputDirectory ⟨⟨"library.graphql"⟩, none, true, false⟩ = ⟨""⟩ := by
    decide +kernel
  obtain ⟨outcome, after, hrun⟩ : ∃ outcome after,
      (run ["library.graphql", "--app"] : StateM FileTree Outcome) shelf = (outcome, after) :=
    ⟨_, _, (Prod.eta _).symm⟩
  rw [hrun] at hresult
  obtain ⟨hexit, hkept⟩ := hresult
  have hlaunch (named : String → Option Char) :
      ∃ schema, shelf.readText ⟨"library.graphql"⟩ = .ok schema ∧
        after.Launches named ⟨""⟩ schema := by
    obtain ⟨schema, name, _, _, hread, -, -, -, hfound, -, -, hlaunches⟩ :=
      run_launches named hproper hwords rfl hrun hexit hkept
    obtain rfl := Option.some.inj (hname.symm.trans hfound)
    have hbeside := (hlaunches hinert).1 rfl
    rw [hdirectory] at hbeside
    exact ⟨schema, hread, hbeside⟩
  obtain ⟨schema, hread, -⟩ := hlaunch fun _ => none
  refine ⟨outcome, after, hrun, hexit, hkept, schema, hread, fun named => ?_⟩
  obtain ⟨schema', hread', hbeside⟩ := hlaunch named
  rwa [Except.ok.inj (hread.symm.trans hread')]

/-- **Whether a run leaves an application behind that does not find its
schema**, although the run succeeds and the schema is there. -/
def MissesSchema (words : List String) (before : FileTree) : Prop :=
  ∃ arguments outcome after schema, Arguments.ofWords words = .ok arguments ∧
    arguments.app = true ∧
    (run words : StateM FileTree Outcome) before = (outcome, after) ∧ outcome.exitCode = 0 ∧
    before.readText arguments.schema = .ok schema ∧
    after.readText arguments.schema = .ok schema ∧
    ∀ named, ¬after.Launches named arguments.outputDirectory schema

/-- The two ways to miss the schema: there is nothing of its name beside the
application, or there is a mark in the name. -/
theorem missesSchema_of_run (hwords : Arguments.ofWords words = .ok arguments)
    (happ : arguments.app = true) (hname : arguments.schema.fileName? = some name)
    (hread : before.readText arguments.schema = .ok schema)
    (hrun : (run words : StateM FileTree Outcome) before = (outcome, after))
    (hexit : outcome.exitCode = 0) (hkept : after.readText arguments.schema = .ok schema)
    (hmiss : (Literal.IsInert name.toList ∧
        after.readText (arguments.outputDirectory.inside name) = .error .notFound) ∨
      ∃ front back, name.toList = front ++ '"' :: back ∧ Literal.IsInert front) :
    MissesSchema words before := by
  have hmodule := readText_application hwords happ hrun hexit hname
  refine ⟨arguments, outcome, after, schema, hwords, happ, hrun, hexit, hread, hkept,
    fun named hlaunches => ?_⟩
  obtain ⟨hinert, hmissing⟩ | ⟨front, back, hmark, hfront⟩ := hmiss
  · rw [FileTree.launches_iff hmodule hinert, hmissing] at hlaunches
    cases hlaunches
  · obtain ⟨module, found, hfile, hfound, -⟩ := hlaunches
    obtain rfl := Except.ok.inj (hmodule.symm.trans hfile)
    rw [Application.schemaFile?_text_of_mark hmark hfront] at hfound
    cases hfound

/-- **Two services that do not find their schema**: one is generated into a
directory of its own, where there is no schema, and the other has a schema
with a mark in its name. -/
theorem missesSchema_shelf :
    MissesSchema ["library.graphql", "--out-dir", "service", "--app"] shelf ∧
    MissesSchema ["new\"s.graphql", "--app"] shelf := by
  constructor
  · have hwords : Arguments.ofWords ["library.graphql", "--out-dir", "service", "--app"]
        = .ok ⟨⟨"library.graphql"⟩, some ⟨"service"⟩, true, false⟩ := by decide +kernel
    have hname : Path.fileName? ⟨"library.graphql"⟩ = some "library.graphql" := by decide +kernel
    have hread : shelf.readText ⟨"library.graphql"⟩ = .ok shelfSchema := by decide +kernel
    have hinert : Literal.IsInert "library.graphql".toList := by decide
    have hresult :
        let result := (run ["library.graphql", "--out-dir", "service", "--app"] :
          StateM FileTree Outcome) shelf
        result.1.exitCode = 0 ∧ result.2.readText ⟨"library.graphql"⟩ = .ok shelfSchema ∧
        result.2.readText (Path.inside ⟨"service"⟩ "library.graphql") = .error .notFound := by
      decide +kernel
    obtain ⟨hexit, hkept, hmissing⟩ := hresult
    exact missesSchema_of_run hwords rfl hname hread (Prod.eta _).symm hexit hkept
      (.inl ⟨hinert, hmissing⟩)
  · have hwords : Arguments.ofWords ["new\"s.graphql", "--app"]
        = .ok ⟨⟨"new\"s.graphql"⟩, none, true, false⟩ := by decide +kernel
    have hname : Path.fileName? ⟨"new\"s.graphql"⟩ = some "new\"s.graphql" := by decide +kernel
    have hread : shelf.readText ⟨"new\"s.graphql"⟩ = .ok shelfSchema := by decide +kernel
    have hmark : "new\"s.graphql".toList = "new".toList ++ '"' :: "s.graphql".toList := by decide
    have hfront : Literal.IsInert "new".toList := by decide
    have hresult :
        let result := (run ["new\"s.graphql", "--app"] : StateM FileTree Outcome) shelf
        result.1.exitCode = 0 ∧
        result.2.readText ⟨"new\"s.graphql"⟩ = .ok shelfSchema := by
      decide +kernel
    obtain ⟨hexit, hkept⟩ := hresult
    exact missesSchema_of_run hwords rfl hname hread (Prod.eta _).symm hexit hkept
      (.inr ⟨_, _, hmark, hfront⟩)

end CommandLine

end SchemaScaffold
