import SchemaScaffold.Proofs.Form
import SchemaScaffold.Proofs.Rendering
import SchemaScaffold.Proofs.Written

/-!
# The registry of a module of resolvers

The names that are bound, the names in the registry and the names that stubs
are attached to are put into the text at three different places, and each is
written there from the schema anew. A module that is read from top to bottom
fails at the first name that has not been assigned, so the three have to agree
in more than their letters: the assignments have to come first.

To see this the text is taken as what it is when it is read, a sequence of
**statements** (`ModuleStatement`), and the names are followed through it
(`Scoped`). Nothing has to be known of a group of statements except the names
that it assigns, and these are known behind it. So the groups of the bindings
can be looked at one by one, and what they assign together is what the
registry lists.

That the registry is last is a question of weights and not of names. All
blocks here are as heavy as can be, and what compares equal is not moved.
-/

namespace SchemaScaffold

/-! ## Statements and the names they use -/

/-- **A statement of a module of resolvers**, with the names of bindings that
stand in it. -/
inductive ModuleStatement where
  /-- A binding is assigned to a name. -/
  | assignment (name value : String)
  /-- A function is attached to the field of a binding. -/
  | attachment (name field function : String)
  /-- Bindings are listed. -/
  | registry (names : List String)

namespace ModuleStatement

/-- The text of a statement. -/
def text : ModuleStatement → String
  | assignment name value => name ++ " = " ++ value
  | attachment name field function =>
    "@" ++ name ++ ".field(" ++ ("\"" ++ field ++ "\"") ++ ")\n" ++ function
  | registry names => "resolvers = [" ++ ", ".intercalate names ++ "]"

/-- The names that a statement assigns bindings to. -/
def assigned : ModuleStatement → List String
  | assignment name _ => [name]
  | attachment _ _ _ => []
  | registry _ => []

/-- **The names of bindings that a statement uses.** -/
def used : ModuleStatement → List String
  | assignment _ _ => []
  | attachment name _ _ => [name]
  | registry names => names

/-- The text of statements, one under the other. -/
def groupText (statements : List ModuleStatement) : String := "\n".intercalate (statements.map text)

/-- **The groups of a module in which names are bound**: for each name the
statements that bind it, and then the registry of the names. -/
def registered (bound : List (String × List ModuleStatement)) : List (List ModuleStatement) :=
  bound.map Prod.snd ++ [[registry (bound.map Prod.fst)]]

/-- **Whether statements use names that are known**: each uses those it was
given, and those that are assigned in front of it. -/
def Scoped (known : List String) : List ModuleStatement → Prop
  | [] => True
  | s :: rest => (∀ name ∈ s.used, name ∈ known) ∧ Scoped (known ++ s.assigned) rest

variable {known : List String} {statements others : List ModuleStatement}

/-- **What one group assigns is known to the next.** -/
theorem scoped_append : Scoped known (statements ++ others) ↔
    Scoped known statements ∧ Scoped (known ++ statements.flatMap assigned) others := by
  induction statements generalizing known with
  | nil => simp [Scoped]
  | cons s rest ih =>
    rw [List.cons_append, Scoped, Scoped, ih, List.flatMap_cons, and_assoc, List.append_assoc]

/-- Names are known just if they are given or assigned in front. -/
theorem scoped_iff : Scoped known statements ↔
    ∀ before s after, statements = before ++ s :: after →
      ∀ name ∈ s.used, name ∈ known ++ before.flatMap assigned := by
  constructor
  · rintro h before s after rfl
    exact (scoped_append.mp h).2.1
  · intro h
    induction statements generalizing known with
    | nil => exact trivial
    | cons s rest ih =>
      have hfirst := h [] s rest rfl
      rw [List.flatMap_nil, List.append_nil] at hfirst
      refine ⟨hfirst, ih fun before s' after hrest name hname => ?_⟩
      have hbehind := h (s :: before) s' after (congrArg (s :: ·) hrest) name hname
      rwa [List.flatMap_cons, ← List.append_assoc] at hbehind

theorem mem_flatMap_assigned {name : String} :
    name ∈ statements.flatMap assigned ↔ ∃ value, assignment name value ∈ statements := by
  rw [List.mem_flatMap]
  constructor
  · rintro ⟨s, hs, hname⟩
    cases s with
    | assignment other value =>
      obtain rfl := List.mem_singleton.mp hname
      exact ⟨value, hs⟩
    | attachment other field function => cases hname
    | registry names => cases hname
  · rintro ⟨value, hs⟩
    exact ⟨_, hs, List.mem_singleton.mpr rfl⟩

/-- What is attached to a known name does not assign any. -/
theorem scoped_attachments {name : String} (hname : name ∈ known)
    (h : ∀ s ∈ statements, ∃ field function, s = attachment name field function) :
    Scoped known statements ∧ statements.flatMap assigned = [] := by
  induction statements with
  | nil => exact ⟨trivial, rfl⟩
  | cons s rest ih =>
    obtain ⟨⟨field, function, rfl⟩, hrest⟩ := List.forall_mem_cons.mp h
    obtain ⟨hscoped, hnone⟩ := ih hrest
    refine ⟨⟨List.forall_mem_singleton.mpr hname, ?_⟩, hnone⟩
    rwa [assigned, List.append_nil]

end ModuleStatement

/-! ## The first line of a text -/

/-- A text up to the end of its first line. -/
def firstLine (text : String) : String := .ofList (text.toList.takeWhile (· != '\n'))

/-- The first line can be told from what stands under it. -/
theorem firstLine_append {line rest : String} (hline : '\n' ∉ line.toList)
    (hrest : ∀ c ∈ rest.toList.head?, c = '\n') : firstLine (line ++ rest) = line := by
  have hkept : ∀ c ∈ line.toList, (c != '\n') = true := fun c hc =>
    bne_iff_ne.mpr fun heq => hline (heq ▸ hc)
  have hnone : rest.toList.takeWhile (· != '\n') = [] := by
    cases htext : rest.toList with
    | nil => rfl
    | cons c text => simp [hrest c (htext ▸ rfl)]
  rw [firstLine, String.toList_append, List.takeWhile_append_of_pos hkept, hnone, List.append_nil,
    String.ofList_toList]

/-- The first line of a group is its first statement, if that is one line. -/
theorem ModuleStatement.firstLine_groupText {s : ModuleStatement} {rest : List ModuleStatement}
    (h : '\n' ∉ s.text.toList) : firstLine (groupText (s :: rest)) = s.text := by
  rw [groupText, List.map_cons]
  cases rest with
  | nil =>
    have hall : firstLine (s.text ++ "") = s.text := firstLine_append h fun c hc => nomatch hc
    rwa [String.append_empty] at hall
  | cons s' rest =>
    rw [List.map_cons, String.intercalate_cons_cons, String.append_assoc]
    refine firstLine_append h fun c hc => ?_
    rw [String.toList_append] at hc
    exact (Option.mem_some.mp hc).symm

/-- An identifier is one line. -/
theorem IsIdentifier.notMem_newline {name : String} (hname : IsIdentifier name) :
    '\n' ∉ name.toList := fun h => absurd (hname.consists '\n' h) (by decide)

/-! ## The statements of a binding -/

namespace ObjectBinding

/-- The functions attached to an object. -/
def attachments (binding : ObjectBinding) : List ModuleStatement :=
  binding.stubs.map fun stub =>
    .attachment binding.name stub.schemaName (stub.text binding.name binding.parent?)

end ObjectBinding

namespace Binding

/-- **The statements of a binding**: it is assigned, and functions are
attached to it. -/
def statements : Binding → List ModuleStatement
  | object it => .assignment it.name it.call :: it.attachments
  | enumeration it => [.assignment it.name it.call]

theorem text_eq_groupText (binding : Binding) :
    binding.text = ModuleStatement.groupText binding.statements := by
  cases binding with
  | object it =>
    rw [text, ObjectBinding.text, it.opening_eq_call, statements, ModuleStatement.groupText,
      List.map_cons, ObjectBinding.attachments, List.map_map]
    rfl
  | enumeration it =>
    rw [statements, ModuleStatement.groupText, List.map_singleton, String.intercalate_singleton]
    exact it.text_eq_call

/-- **A binding assigns its name**, and uses no other. -/
theorem scoped_statements (binding : Binding) (known : List String) :
    ModuleStatement.Scoped known binding.statements ∧
      binding.statements.flatMap ModuleStatement.assigned = [binding.name] := by
  cases binding with
  | object it =>
    have hattached : ∀ s ∈ it.attachments,
        ∃ field function, s = .attachment it.name field function :=
      List.forall_mem_map.mpr fun stub _ => ⟨_, _, rfl⟩
    obtain ⟨hscoped, hnone⟩ := ModuleStatement.scoped_attachments
      (List.mem_append_right known (List.mem_singleton.mpr rfl)) hattached
    rw [statements, List.flatMap_cons, hnone]
    exact ⟨⟨List.forall_mem_nil _, hscoped⟩, rfl⟩
  | enumeration it =>
    rw [statements]
    exact ⟨⟨List.forall_mem_nil _, trivial⟩, rfl⟩

/-- The statements of all bindings. By induction on the bindings: what those
in front have assigned is known. -/
theorem scoped_flatMap_statements (bindings : List Binding) (known : List String) :
    ModuleStatement.Scoped known (bindings.flatMap statements) ∧
      (bindings.flatMap statements).flatMap ModuleStatement.assigned = bindings.map name := by
  induction bindings generalizing known with
  | nil => exact ⟨trivial, rfl⟩
  | cons binding bindings ih =>
    obtain ⟨hfirst, hname⟩ := binding.scoped_statements known
    obtain ⟨hrest, hnames⟩ := ih (known ++ [binding.name])
    rw [List.flatMap_cons, List.flatMap_append, hname, hnames]
    exact ⟨ModuleStatement.scoped_append.mpr ⟨hfirst, hname.symm ▸ hrest⟩, rfl⟩

/-- The name of a binding, with its statements. -/
def named (binding : Binding) : String × List ModuleStatement := (binding.name, binding.statements)

theorem registered_map_named (bindings : List Binding) :
    ModuleStatement.registered (bindings.map named)
      = bindings.map statements ++ [[.registry (bindings.map name)]] := by
  rw [ModuleStatement.registered, List.map_map, List.map_map]
  rfl

/-- **No statement of the module uses a name that is not assigned in front.** -/
theorem scoped_registered (bindings : List Binding) :
    ModuleStatement.Scoped [] (ModuleStatement.registered (bindings.map named)).flatten := by
  obtain ⟨hscoped, hnames⟩ := scoped_flatMap_statements bindings []
  rw [registered_map_named, List.flatten_append, ← List.flatMap_def, List.flatten_singleton]
  refine ModuleStatement.scoped_append.mpr ⟨hscoped, fun name hname => ?_, trivial⟩
  rwa [List.nil_append, hnames]

theorem map_body_blocks {bindings : List Binding} (h : bindings ≠ []) :
    (blocks bindings).map Block.body
      = (ModuleStatement.registered (bindings.map named)).map ModuleStatement.groupText := by
  rw [blocks_of_ne_nil h, registered_map_named, List.map_append, List.map_append, List.map_map,
    List.map_map]
  have hbodies : bindings.map (Block.body ∘ block)
      = bindings.map (ModuleStatement.groupText ∘ statements) :=
    List.map_congr_left fun binding _ => binding.text_eq_groupText
  rw [hbodies, List.map_singleton, List.map_singleton, ModuleStatement.groupText,
    List.map_singleton, String.intercalate_singleton]
  rfl

/-- **No block of resolvers is moved**, since all are as heavy as can be. -/
theorem sorted_blocks (bindings : List Binding) :
    Module.sorted (blocks bindings) = blocks bindings := by
  have hheavy : ∀ block ∈ blocks bindings, block.weight = 0xFFFFFFFF := by
    intro block hblock
    cases bindings with
    | nil => cases hblock
    | cons binding bindings =>
      obtain hblock | hblock := List.mem_append.mp hblock
      · obtain ⟨binding, -, rfl⟩ := List.mem_map.mp hblock
        rfl
      · rw [List.mem_singleton.mp hblock]
        rfl
  refine List.mergeSort_of_pairwise (List.pairwise_of_forall_mem_list fun a ha b hb => ?_)
  rw [hheavy a ha, hheavy b hb]
  rfl

/-- The text of the module of resolvers, whatever it is called. -/
theorem text_blocks {bindings : List Binding} (h : bindings ≠ []) (module : String) :
    Module.text module (blocks bindings) = "\n\n\n".intercalate
      (Module.importSection (Module.header module (blocks bindings)).rows
        ++ (ModuleStatement.registered (bindings.map named)).map ModuleStatement.groupText)
      ++ "\n" := by
  have hblocks : blocks bindings ≠ [] := fun hnil => h (blocks_eq_nil.mp hnil)
  rw [Module.text_of_ne_nil hblocks, sorted_blocks, map_body_blocks h]

end Binding

/-! ## The definitions that are bound -/

/-- **The statements for a definition** in a scope. The name is that of the
definition in snake case, and it is assigned first. -/
inductive Definition.HasStatements (scope : Scope) :
    Definition → String → List ModuleStatement → Prop where
  /-- To the name of an object a function is attached for each field with
  arguments, in order, and the function is the stub for that field. -/
  | object {it : ObjectType} {call : String} {attachments : List ModuleStatement}
    (hcall : WritesCall it call)
    (hattachments : List.Forall₂ (fun field s => ∃ function, WritesStub scope it field function ∧
        s = .attachment (snakeCase it.name) field.name function)
      (computedFields it.fields) attachments) :
    HasStatements scope (.object it) (snakeCase it.name)
      (.assignment (snakeCase it.name) call :: attachments)
  /-- To the name of an enumeration nothing is attached. -/
  | enumeration {it : EnumType} :
    HasStatements scope (.enumeration it) (snakeCase it.name) [.assignment (snakeCase it.name)
      ("EnumType(" ++ ("\"" ++ it.name ++ "\"") ++ ", values=" ++ it.name ++ ")")]

/-- **How a group of statements binds a definition** to a name. -/
structure Definition.BoundBy (scope : Scope) (definition : Definition) (name : String)
    (group : List ModuleStatement) : Prop where
  /-- The statements are those for the definition. -/
  statements : definition.HasStatements scope name group
  /-- If the definition is called by an identifier, the assignment is a line of
  its own. -/
  firstLine_eq : (∀ schemaName ∈ definition.boundName?, IsIdentifier schemaName) →
    ∃ value attachments, group = .assignment name value :: attachments ∧
      firstLine (ModuleStatement.groupText group) = name ++ " = " ++ value

section Bound

variable {scope : Scope} {definition : Definition} {binding : Binding} {name : String}
  {group : List ModuleStatement}

/-- The call for what is called by an identifier is one line. -/
theorem WritesCall.notMem_newline {it : ObjectType} {call : String} (h : WritesCall it call)
    (hname : IsIdentifier it.name) : '\n' ∉ call.toList := by
  have hnone := hname.notMem_newline
  cases h with
  | query => decide
  | mutation => decide
  | object => simp [hnone]

/-- The name is that of the definition in snake case. -/
theorem Definition.HasStatements.name_eq (h : definition.HasStatements scope name group) :
    name = snakeCase (definition.boundName?.getD "") := by
  cases h <;> rfl

/-- The assignment comes first, and its text is one line. -/
theorem Definition.HasStatements.firstLine_eq (h : definition.HasStatements scope name group)
    (hidentifier : ∀ schemaName ∈ definition.boundName?, IsIdentifier schemaName) :
    ∃ value attachments, group = .assignment name value :: attachments ∧
      firstLine (ModuleStatement.groupText group) = name ++ " = " ++ value := by
  have hline {name value : String} (hname : IsIdentifier name) (hvalue : '\n' ∉ value.toList) :
      '\n' ∉ (ModuleStatement.assignment name value).text.toList := by
    have hnone := hname.notMem_newline
    simp [ModuleStatement.text, hnone, hvalue]
  cases h with
  | @object it call attachments hcall hattachments =>
    have hname : IsIdentifier it.name := hidentifier it.name rfl
    exact ⟨_, _, rfl, ModuleStatement.firstLine_groupText
      (hline hname.snakeCase (hcall.notMem_newline hname))⟩
  | @enumeration it =>
    have hname : IsIdentifier it.name := hidentifier it.name rfl
    have hnone := hname.notMem_newline
    exact ⟨_, _, rfl, ModuleStatement.firstLine_groupText (hline hname.snakeCase (by simp [hnone]))⟩

/-- **A binding has the statements for its definition.** -/
theorem Definition.hasStatements
    (h : Binding.ofDefinition? scope definition = .ok (some binding)) :
    definition.HasStatements scope binding.name binding.statements := by
  cases definition with
  | object it =>
    obtain ⟨made, hmade, hok⟩ := bind_eq_ok.mp h
    cases Except.ok.inj hok
    obtain ⟨hname, hcall, hstubs⟩ := ObjectBinding.writes hmade
    show (Definition.object it).HasStatements scope made.name
      (.assignment made.name made.call :: made.attachments)
    rw [ObjectBinding.attachments, hname]
    refine .object hcall (List.forall₂_map_right_iff.mpr (hstubs.imp ?_))
    rintro field stub ⟨hfield, hstub⟩
    exact ⟨_, hname ▸ hstub, by rw [hfield]⟩
  | enumeration it =>
    obtain ⟨made, hmade, hok⟩ := bind_eq_ok.mp h
    cases Except.ok.inj hok
    obtain ⟨hname, hcall⟩ := EnumBinding.writes hmade
    show (Definition.enumeration it).HasStatements scope made.name
      [.assignment made.name made.call]
    rw [hname, hcall]
    exact .enumeration
  | interface it => cases h
  | union it => cases h
  | inputObject it => cases h
  | scalar it => cases h
  | schema it => cases h
  | directive it => cases h

end Bound

namespace Document

variable {document : Document} {scope : Scope} {blocks : List Block}

/-- Nothing is bound just if there is nothing to bind. -/
theorem bindingsIn_eq_nil : document.bindingsIn scope = [] ↔
    (∀ it, .object it ∉ document.definitions.toList) ∧
      ∀ it, .enumeration it ∉ document.definitions.toList := by
  rw [List.eq_nil_iff_forall_not_mem]
  constructor
  · refine fun hnone => ⟨fun it hit => ?_, fun it hit => ?_⟩
    · exact hnone _ (object_mem_bindingsIn.mpr ⟨it, hit, rfl⟩)
    · exact hnone _ (enumeration_mem_bindingsIn.mpr ⟨it, hit, rfl⟩)
  · rintro ⟨hobjects, henumerations⟩ binding hbinding
    obtain ⟨it, hit, -⟩ | ⟨it, hit, -⟩ := mem_bindingsIn.mp hbinding
    · exact hobjects it hit
    · exact henumerations it hit

/-- **The registry is complete, and comes last.** The module of resolvers has
no block just if a document has neither objects nor enumerations. Otherwise
its blocks are one for each object and each enumeration, in order of
definition, and the registry. Each of the former begins with the assignment of
a name and attaches functions to that name only; the names that the registry
lists are those of the assignments, as they come. In the text of the module
the blocks stand in this order, whatever the module is called. So every name
that a statement uses is assigned by a statement in front of it. -/
theorem resolverBlocks_registered (h : document.resolverBlocks scope = .ok blocks) :
    (blocks = [] ↔ (∀ it, .object it ∉ document.definitions.toList) ∧
      ∀ it, .enumeration it ∉ document.definitions.toList) ∧
    (blocks ≠ [] → ∃ bound : List (String × List ModuleStatement),
      List.Forall₂ (fun definition b => definition.BoundBy scope b.fst b.snd)
        (document.definitions.toList.filter fun definition => definition.boundName?.isSome) bound ∧
      blocks.map Block.body
        = (ModuleStatement.registered bound).map ModuleStatement.groupText ∧
      (∀ module, Module.text module blocks = "\n\n\n".intercalate
        (Module.importSection (Module.header module blocks).rows
          ++ (ModuleStatement.registered bound).map ModuleStatement.groupText) ++ "\n") ∧
      ∀ before s after, (ModuleStatement.registered bound).flatten = before ++ s :: after →
        ∀ name ∈ s.used, ∃ value, .assignment name value ∈ before) := by
  obtain ⟨bindings, hbindings, hblocks⟩ := bind_eq_ok.mp h
  obtain rfl := Except.ok.inj hblocks
  obtain rfl := bindings_eq hbindings
  refine ⟨Binding.blocks_eq_nil.trans bindingsIn_eq_nil, fun hsome => ?_⟩
  have hne : document.bindingsIn scope ≠ [] := fun hnil => hsome (Binding.blocks_eq_nil.mpr hnil)
  refine ⟨(document.bindingsIn scope).map Binding.named, ?_, Binding.map_body_blocks hne,
    Binding.text_blocks hne, fun before s after hsplit name hname => ?_⟩
  · refine List.forall₂_map_right_iff.mpr
      (forall₂_bindingsIn fun definition hmem binding hbinding => ?_)
    have hstatements := Definition.hasStatements
      ((ofDefinition?_of_bindings hbindings hmem).trans (congrArg Except.ok hbinding))
    exact ⟨hstatements, hstatements.firstLine_eq⟩
  · have hknown := ModuleStatement.scoped_iff.mp (Binding.scoped_registered _) before s after
      hsplit name hname
    rw [List.nil_append] at hknown
    exact ModuleStatement.mem_flatMap_assigned.mp hknown

/-- The types of the library, two of them given to other modules than that of
types. -/
def suppliedScope : Scope :=
  .ofList [("Book", ".types"), ("Date", "datetime"), ("Genre", "models"), ("Period", "books")]

/-- **The registry of the library** lists its enumeration, the book and the
root object, in order of definition, and all three are assigned in front. -/
theorem resolverBlocks_registered_library :
    ∃ blocks bound, library.resolverBlocks suppliedScope = .ok blocks ∧ blocks ≠ [] ∧
      blocks.map Block.body = (ModuleStatement.registered bound).map ModuleStatement.groupText ∧
      bound.map Prod.fst = ["genre", "book", "query"] ∧
      ∀ before s after, (ModuleStatement.registered bound).flatten = before ++ s :: after →
        ∀ name ∈ s.used, ∃ value, .assignment name value ∈ before := by
  obtain ⟨blocks, hblocks⟩ : ∃ blocks, library.resolverBlocks suppliedScope = .ok blocks := by
    rw [← failure?_eq_none]
    decide +kernel
  obtain ⟨hnone, hregistered⟩ := resolverBlocks_registered hblocks
  have hbook := List.mem_of_getElem? (rfl : library.definitions.toList[3]? = some (.object _))
  have hsome : blocks ≠ [] := fun hnil => (hnone.mp hnil).1 _ hbook
  obtain ⟨bound, hbound, hbodies, -, hbefore⟩ := hregistered hsome
  refine ⟨blocks, bound, hblocks, hsome, hbodies, ?_, hbefore⟩
  obtain _ | ⟨hgenre, _ | ⟨hbook, _ | ⟨hquery, ⟨⟩⟩⟩⟩ := hbound
  rw [List.map_cons, List.map_cons, List.map_singleton, hgenre.statements.name_eq,
    hbook.statements.name_eq, hquery.statements.name_eq]
  decide +kernel

end Document

end SchemaScaffold
