import SchemaScaffold.Schema.Document

/-!
# What a document knows by name

A document is asked for names through its two indexes, and they were built
one definition at a time. An index only holds places. That the place of a
name is that of a definition, of one with this name, and of the last one
with it, is nowhere looked at when a document is asked, so it has to hold of
every document that can be reached – by adding definitions to it, or by
collecting a list (`Document.Grown`).

It does, for each of the two indexes by itself (`Document.IsIndex`). What
carries it through an addition is that the definitions only grow at the end:
a place that is there stays the place of what it was, and the new place is
that of the new definition (`Document.IsIndex.enter`). With that the answers
of a document can be read off the history of its definitions
(`Document.Answers`), and the two sides never mix: a definition has its name
on one of them, and a schema block on neither.
-/

namespace SchemaScaffold

namespace Document

variable {side : Definition → Option String} {history definitions : List Definition}
  {definition : Definition} {document : Document} {index : Table Nat} {name : String}

/-! ## Growing -/

/-- **How documents come about**, each with the history of its definitions. -/
inductive Grown : List Definition → Document → Prop where
  /-- There is the document without definitions. -/
  | empty : Grown [] empty
  /-- A definition can be added. -/
  | add {history : List Definition} {document : Document} (h : Grown history document)
      (definition : Definition) : Grown (history ++ [definition]) (document.add definition)
  /-- A document can be collected from a list. -/
  | collect (definitions : List Definition) : Grown definitions (ofList definitions)

/-- **The last definition of a name** in a history, on one side. -/
def latest? (side : Definition → Option String) (name : String) (history : List Definition) :
    Option Definition :=
  history.reverse.find? fun definition => side definition == some name

/-- **A definition takes its name over**, and leaves the others. -/
theorem latest?_concat (history : List Definition) (definition : Definition) :
    latest? side name (history ++ [definition])
      = if side definition = some name then some definition else latest? side name history := by
  rw [latest?, List.reverse_append, List.reverse_singleton, List.singleton_append, List.find?_cons]
  by_cases h : side definition = some name
  · rw [if_pos h, h, beq_self_eq_true]
  · rw [if_neg h, beq_eq_false_iff_ne.mpr h]
    rfl

/-- A name has a last definition just if some definition has it. -/
theorem exists_latest? :
    (∃ definition, latest? side name history = some definition) ↔
      name ∈ history.filterMap side := by
  rw [← Option.isSome_iff_exists, latest?, List.find?_isSome, List.mem_filterMap]
  simp only [List.mem_reverse, beq_iff_eq]

/-- The last definition of a name has it. -/
theorem side_of_latest? (h : latest? side name history = some definition) :
    side definition = some name := by
  have hnamed := List.find?_some h
  exact eq_of_beq hnamed

/-! ## Indexes -/

/-- **Whether a table is an index of a side**: its places are places of the
history, and the one of a name is that of its last definition. -/
structure IsIndex (side : Definition → Option String) (history : List Definition)
    (index : Table Nat) : Prop where
  /-- No place lies outside. -/
  bounded : ∀ {name position}, index.get? name = some position → position < history.length
  /-- At the place of a name there is its last definition. -/
  found : ∀ name, ((index.get? name).bind fun position => history[position]?)
    = latest? side name history

/-- **After entering a name** it has the new place. -/
theorem get?_enter (index : Table Nat) (name? : Option String) (position : Nat) (name : String) :
    (enter index name? position).get? name
      = if name? = some name then some position else index.get? name := by
  cases name? with
  | none => rfl
  | some entered =>
    rw [enter, Table.get?_insert]
    simp only [Option.some.injEq, eq_comm]

theorem isIndex_empty : IsIndex side [] .empty := ⟨nofun, fun _ => rfl⟩

/-- **An index stays one** when a definition is put behind the others and its name
is entered with the new place. -/
theorem IsIndex.enter (h : IsIndex side history index) (definition : Definition) :
    IsIndex side (history ++ [definition])
      (Document.enter index (side definition) history.length) := by
  have hlength : (history ++ [definition]).length = history.length + 1 := List.length_append
  constructor
  · intro name position hget
    rw [get?_enter] at hget
    rw [hlength]
    split at hget
    · rw [← Option.some.inj hget]
      exact Nat.lt_succ_self _
    · exact Nat.lt_succ_of_lt (h.bounded hget)
  · intro name
    rw [get?_enter, latest?_concat, ← h.found name]
    split
    · exact List.getElem?_concat_length
    · -- the places there lie in front of the new one
      cases hget : index.get? name with
      | none => rfl
      | some position => exact List.getElem?_append_left (h.bounded hget)

/-- **A name has a place** just if some definition has the name. -/
theorem IsIndex.contains_iff (h : IsIndex side history index) :
    index.contains name = true ↔ name ∈ history.filterMap side := by
  rw [← exists_latest?, ← h.found name, Table.contains]
  cases hget : index.get? name with
  | none => exact ⟨nofun, nofun⟩
  | some position =>
    exact ⟨fun _ => ⟨_, List.getElem?_eq_getElem (h.bounded hget)⟩, fun _ => rfl⟩

/-- **Whether both indexes of a document are**, of the definitions it has. -/
structure Indexed (history : List Definition) (document : Document) : Prop where
  /-- The definitions are those of the history. -/
  definitions : document.definitions.toList = history
  /-- The index of the types. -/
  types : IsIndex Definition.typeName? history document.typeIndex
  /-- The index of the directives. -/
  directives : IsIndex Definition.directiveName? history document.directiveIndex

/-- The document without definitions is. -/
theorem indexed_empty : Indexed [] empty := ⟨rfl, isIndex_empty, isIndex_empty⟩

/-- One definition more. -/
theorem Indexed.add (h : Indexed history document) (definition : Definition) :
    Indexed (history ++ [definition]) (document.add definition) := by
  have hsize : document.definitions.size = history.length := by
    rw [← h.definitions, Array.length_toList]
  refine ⟨?_, ?_, ?_⟩
  · rw [definitions_add, Array.toList_push, h.definitions]
  · rw [Document.add, hsize]
    exact h.types.enter definition
  · rw [Document.add, hsize]
    exact h.directives.enter definition

/-- Many definitions more. -/
theorem Indexed.foldl_add (h : Indexed history document) (definitions : List Definition) :
    Indexed (history ++ definitions) (definitions.foldl Document.add document) := by
  induction definitions generalizing history document with
  | nil => exact (List.append_nil history).symm ▸ h
  | cons definition definitions ih =>
    rw [List.append_cons]
    exact ih (h.add definition)

/-- **Every document is indexed**, however it came about. -/
theorem Grown.indexed (h : Grown history document) : Indexed history document := by
  induction h with
  | empty => exact indexed_empty
  | add h definition ih => exact ih.add definition
  | collect definitions => exact indexed_empty.foldl_add definitions

/-! ## Answers -/

/-- **Whether two definitions compete**: they have one name on one side. -/
def Competes (earlier definition : Definition) : Prop :=
  ∃ name, (earlier.typeName? = some name ∧ definition.typeName? = some name) ∨
    (earlier.directiveName? = some name ∧ definition.directiveName? = some name)

section Indexed

variable (h : Indexed history document)

include h

/-- **What is at the place of a name** is its last definition. -/
theorem Indexed.at?_eq (hindex : IsIndex side history index) (name : String) :
    document.at? index name = latest? side name history := by
  rw [at?, ← hindex.found name, ← h.definitions]
  simp only [Array.getElem?_toList]

/-- The types are asked for by their index. -/
theorem Indexed.type?_eq (name : String) :
    document.type? name = latest? Definition.typeName? name history :=
  h.at?_eq h.types name

/-- The directives are asked for by theirs, and nothing else is found there. -/
theorem Indexed.directive?_eq (name : String) :
    document.directive? name = latest? Definition.directiveName? name history := by
  rw [directive?, h.at?_eq h.directives]
  cases hlatest : latest? Definition.directiveName? name history with
  | none => rfl
  | some definition =>
    rw [Option.filter_some, side_of_latest? hlatest]
    rfl

/-- **A name is declared** just if some definition declares it. -/
theorem Indexed.mem_typeNames_iff : name ∈ document.typeNames ↔ document.hasType name = true := by
  rw [typeNames, h.definitions, hasType, h.types.contains_iff]

/-- **A definition conflicts with a document** if its name is there already, on
its own side. -/
theorem Indexed.conflictsWith_iff :
    document.conflictsWith definition = true ↔
      (∃ name ∈ history.filterMap Definition.typeName?, definition.typeName? = some name) ∨
      ∃ name ∈ history.filterMap Definition.directiveName?,
        definition.directiveName? = some name := by
  rw [conflictsWith, Bool.or_eq_true, Option.any_eq_true, Option.any_eq_true]
  refine or_congr (exists_congr fun name => ?_) (exists_congr fun name => ?_)
  · rw [hasType, h.types.contains_iff, and_comm]
  · rw [hasDirective, h.directives.contains_iff, and_comm]

/-- So it conflicts if it competes with one of the definitions. -/
theorem Indexed.conflictsWith_iff_competes :
    document.conflictsWith definition = true ↔
      ∃ earlier ∈ history, Competes earlier definition := by
  rw [h.conflictsWith_iff]
  constructor
  · rintro (⟨name, hearlier, hname⟩ | ⟨name, hearlier, hname⟩)
    · obtain ⟨earlier, hmem, hside⟩ := List.mem_filterMap.mp hearlier
      exact ⟨earlier, hmem, name, .inl ⟨hside, hname⟩⟩
    · obtain ⟨earlier, hmem, hside⟩ := List.mem_filterMap.mp hearlier
      exact ⟨earlier, hmem, name, .inr ⟨hside, hname⟩⟩
  · rintro ⟨earlier, hmem, name, ⟨hside, hname⟩ | ⟨hside, hname⟩⟩
    · exact .inl ⟨name, List.mem_filterMap.mpr ⟨earlier, hmem, hside⟩, hname⟩
    · exact .inr ⟨name, List.mem_filterMap.mpr ⟨earlier, hmem, hside⟩, hname⟩

end Indexed

/-- **A definition conflicts with a list** if its name is there already, on
its own side. -/
theorem conflictsWith_ofList {definition : Definition} :
    (ofList definitions).conflictsWith definition = true ↔
      (∃ name ∈ definitions.filterMap Definition.typeName?, definition.typeName? = some name) ∨
      ∃ name ∈ definitions.filterMap Definition.directiveName?,
        definition.directiveName? = some name :=
  (Grown.collect definitions).indexed.conflictsWith_iff

/-- **The answers of a document** with a history of definitions. -/
structure Answers (document : Document) (history : List Definition) : Prop where
  /-- A type is the last definition of its name that is one. -/
  type : ∀ name, document.type? name = latest? Definition.typeName? name history
  /-- A directive is the last one of its name. -/
  directive : ∀ name, document.directive? name = latest? Definition.directiveName? name history
  /-- There is a type of a name just if it is found. -/
  hasType : ∀ name, document.hasType name = true ↔ ∃ found, document.type? name = some found
  /-- There is a directive of a name just if it is found. -/
  hasDirective : ∀ name,
    document.hasDirective name = true ↔ ∃ found, document.directive? name = some found
  /-- No place that is looked up lies outside the definitions. -/
  inside : ∀ name position, document.typeIndex.get? name = some position ∨
    document.directiveIndex.get? name = some position → position < document.definitions.size
  /-- A directive shadows no type, nor does a schema block. -/
  typesApart : ∀ definition, definition.isType = false → ∀ name,
    (document.add definition).type? name = document.type? name
  /-- A type shadows no directive. -/
  directivesApart : ∀ definition, definition.isType = true → ∀ name,
    (document.add definition).directive? name = document.directive? name
  /-- A definition conflicts with what was defined before if they compete. -/
  conflicts : ∀ definition,
    document.conflictsWith definition = true ↔ ∃ earlier ∈ history, Competes earlier definition
  /-- A schema block never does. -/
  schemaBlock : ∀ it, document.conflictsWith (.schema it) = false
  /-- The declared names are those that there is a type of. -/
  names : ∀ name, name ∈ document.typeNames ↔ document.hasType name = true

/-- What is no type has no name among the types. -/
theorem typeName?_of_not_isType (h : definition.isType = false) : definition.typeName? = none := by
  rw [Definition.typeName?, h]
  rfl

/-- What is a type has no name among the directives. -/
theorem directiveName?_of_isType (h : definition.isType = true) :
    definition.directiveName? = none := by
  cases definition with
  | directive it => cases h
  | _ => rfl

/-- **A document answers by its history**, however it came about. -/
theorem answers_of_grown (h : Grown history document) : document.Answers history := by
  have hindexed := h.indexed
  have hhas {side : Definition → Option String} {index : Table Nat}
      (hindex : IsIndex side history index) (name : String) :
      index.contains name = true ↔ ∃ found, latest? side name history = some found :=
    hindex.contains_iff.trans exists_latest?.symm
  constructor
  case type => exact hindexed.type?_eq
  case directive => exact hindexed.directive?_eq
  case hasType =>
    intro name
    rw [hindexed.type?_eq]
    exact hhas hindexed.types name
  case hasDirective =>
    intro name
    rw [hindexed.directive?_eq]
    exact hhas hindexed.directives name
  case inside =>
    intro name position hget
    rw [← Array.length_toList, hindexed.definitions]
    exact hget.elim hindexed.types.bounded hindexed.directives.bounded
  case typesApart =>
    intro definition htype name
    rw [(hindexed.add definition).type?_eq, hindexed.type?_eq, latest?_concat,
      typeName?_of_not_isType htype]
    exact if_neg nofun
  case directivesApart =>
    intro definition htype name
    rw [(hindexed.add definition).directive?_eq, hindexed.directive?_eq, latest?_concat,
      directiveName?_of_isType htype]
    exact if_neg nofun
  case conflicts => exact fun definition => hindexed.conflictsWith_iff_competes
  case schemaBlock => exact fun _ => rfl
  case names => exact fun name => hindexed.mem_typeNames_iff

/-- A type, a directive of the same name, a schema block, and then an enumeration
that takes the name of the type over. -/
def takenOver : List Definition :=
  [.object { name := "A" }, .directive { name := "A" }, .schema {},
    .enumeration { name := "A", values := ["X"] }]

/-- **The enumeration is found, and so is the directive**, in a document where the
first definitions have been collected and the last one added. -/
theorem answers_of_grown_takenOver :
    ∃ document, Grown takenOver document ∧
      document.type? "A" = some (.enumeration { name := "A", values := ["X"] }) ∧
      document.directive? "A" = some (.directive { name := "A" }) ∧
      document.type? "B" = none ∧
      document.conflictsWith (.scalar { name := "A" }) = true ∧
      document.conflictsWith (.schema {}) = false := by
  have hgrown := (Grown.collect (takenOver.take 3)).add (.enumeration { name := "A", values := ["X"] })
  refine ⟨_, hgrown, ?_⟩
  have hanswers := answers_of_grown hgrown
  have hconflicts : Competes (.object { name := "A" }) (.scalar { name := "A" }) :=
    ⟨"A", .inl ⟨rfl, rfl⟩⟩
  exact ⟨hanswers.type "A", hanswers.directive "A", hanswers.type "B",
    (hanswers.conflicts _).mpr ⟨_, List.mem_cons_self, hconflicts⟩, hanswers.schemaBlock {}⟩

end Document

end SchemaScaffold
