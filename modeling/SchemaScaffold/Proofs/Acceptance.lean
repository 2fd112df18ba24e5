import Mathlib.Data.List.Induction
import Mathlib.Data.List.Nodup
import Mathlib.Tactic.Tauto
import SchemaScaffold.Proofs.Lookup
import SchemaScaffold.Proofs.Outcome
import SchemaScaffold.Sdl.Parse

/-!
# Which texts are accepted

A text that the grammar cuts into clauses, none of them at fault, may still
be refused as a schema. Whether it is can be said of the clauses alone. A
clause is refused for what it is – an extension – or for what stands in
front of it, a clause that has its name on the same side
(`Sdl.Clause.refusal?`). Neither needs the document that is being built,
nor the values of the literals: the kind and the name of a clause are those
of its definition (`Sdl.Statement.outline_eq`).

The document takes the place of the clauses in front, because its indexes
know the names of those and no others. So each entry is added or refused as
its clause is (`Document.addEntry_eq`), the first refusal is the error, and
without one the document has a definition for every clause
(`Document.parse_refuses_first`).
-/

namespace SchemaScaffold

/-! ## Headings -/

/-- **The heading of a definition**: its kind and its name, without any
parts. -/
def Definition.outline : Definition → Definition
  | .object it => .object { name := it.name }
  | .interface it => .interface { name := it.name }
  | .enumeration it => .enumeration { name := it.name }
  | .union it => .union { name := it.name }
  | .inputObject it => .inputObject { name := it.name }
  | .scalar it => .scalar it
  | .schema _ => .schema {}
  | .directive it => .directive { name := it.name }

section Outline

variable (definition : Definition)

@[simp] theorem Definition.kind_outline : definition.outline.kind = definition.kind := by
  cases definition <;> rfl

@[simp] theorem Definition.name?_outline : definition.outline.name? = definition.name? := by
  cases definition <;> rfl

@[simp] theorem Definition.typeName?_outline :
    definition.outline.typeName? = definition.typeName? := by
  cases definition <;> rfl

@[simp] theorem Definition.directiveName?_outline :
    definition.outline.directiveName? = definition.directiveName? := by
  cases definition <;> rfl

end Outline

/-- The names of the directives of a document, in order. -/
def Document.directiveNames (document : Document) : List String :=
  document.definitions.toList.filterMap Definition.directiveName?

namespace Sdl

/-- **The heading of a statement**, as that of a definition. -/
def Statement.outline : Statement → Definition
  | schema _ _ => .schema {}
  | scalar name _ => .scalar { name }
  | object name _ _ _ => .object { name }
  | interface name _ _ => .interface { name }
  | union name _ _ => .union { name }
  | enumeration name _ _ => .enumeration { name }
  | inputObject name _ _ => .inputObject { name }
  | directive name _ => .directive { name }

/-- **A definition has the heading of its statement.** -/
theorem Statement.outline_eq {statement : Statement} {extending : Bool} {definition : Definition}
    (h : statement.definition extending = .ok definition) :
    definition.outline = statement.outline := by
  cases statement with
  | schema applied roots =>
    obtain ⟨_, -, h⟩ := bind_eq_ok.mp h
    obtain ⟨block, -, hok⟩ := bind_eq_ok.mp h
    rw [← Except.ok.inj hok]
    rfl
  | scalar name applied =>
    obtain ⟨_, -, hok⟩ := bind_eq_ok.mp h
    rw [← Except.ok.inj hok]
    rfl
  | union name applied members =>
    obtain ⟨_, -, hok⟩ := bind_eq_ok.mp h
    rw [← Except.ok.inj hok]
    rfl
  | directive name arguments =>
    obtain ⟨_, -, hok⟩ := bind_eq_ok.mp h
    rw [← Except.ok.inj hok]
    rfl
  | object name implements applied fields | interface name applied fields
  | enumeration name applied values | inputObject name applied fields =>
    obtain ⟨_, -, h⟩ := bind_eq_ok.mp h
    obtain ⟨_, -, hok⟩ := bind_eq_ok.mp h
    rw [← Except.ok.inj hok]
    rfl

/-! ## Refusals -/

namespace Clause

/-- The name of the type a clause is about, if it is about one. -/
def typeName? (clause : Clause) : Option String := clause.statement.outline.typeName?

/-- The name of the directive a clause is about, if it is about one. -/
def directiveName? (clause : Clause) : Option String := clause.statement.outline.directiveName?

/-- **The name that a clause has in common** with one of the clauses in
front of it: as a type with a type, or as a directive with a directive. -/
def repeated? (earlier : List Clause) (clause : Clause) : Option String :=
  (clause.typeName?.filter (· ∈ earlier.filterMap typeName?)).or
    (clause.directiveName?.filter (· ∈ earlier.filterMap directiveName?))

/-- **Why a clause is refused** behind the given ones, if it is. That it is
an extension comes first, and one of a schema block, which has no name, is
called by the word for it. -/
def refusal? (earlier : List Clause) (clause : Clause) : Option ParseError :=
  if clause.extends? then some (.extension (clause.statement.outline.name?.getD "schema"))
  else (clause.repeated? earlier).map (.duplicate clause.statement.outline.kind)

end Clause

/-- **The refusal at a place** of a sequence of clauses. -/
def refusalAt? (clauses : List Clause) (i : Nat) : Option ParseError :=
  clauses[i]?.bind (Clause.refusal? (clauses.take i))

/-- **The text is of the grammar**, is cut into the given clauses, and none
of them is at fault. -/
def Reads (text : String) (clauses : List Clause) : Prop :=
  (∃ rest, Sdl.clauses text.toList = some (clauses, rest)) ∧
    ∀ clause ∈ clauses, ∃ definition,
      clause.statement.definition clause.extends? = .ok definition

/-- **What a clause comes to** once its definition is known. -/
theorem Clause.entry_eq {clause : Clause} {definition : Definition}
    (h : clause.statement.definition clause.extends? = .ok definition) :
    clause.entry = .ok (if clause.extends? then
        .extension (clause.statement.outline.name?.getD "schema")
      else .declared definition) := by
  rw [← Statement.outline_eq h, Definition.name?_outline, Clause.entry, h]
  show (if clause.extends? then pure _ else pure _ : Except Fault Entry) = _
  split <;> rfl

/-- Up to the front part of a sequence, what is behind it does not count. -/
theorem refusalAt?_append {clauses : List Clause} {i : Nat} (h : i < clauses.length)
    (more : List Clause) : refusalAt? (clauses ++ more) i = refusalAt? clauses i := by
  rw [refusalAt?, refusalAt?, List.getElem?_append_left h,
    List.take_append_of_le_length (Nat.le_of_lt h)]

theorem refusalAt?_of_length_le {clauses : List Clause} {i : Nat} (h : clauses.length ≤ i) :
    refusalAt? clauses i = none := by
  rw [refusalAt?, List.getElem?_eq_none h]
  rfl

/-- The clause behind the front part is refused for what is in front. -/
theorem refusalAt?_length (earlier later : List Clause) (clause : Clause) :
    refusalAt? (earlier ++ clause :: later) earlier.length = clause.refusal? earlier := by
  rw [refusalAt?, List.getElem?_append_right (Nat.le_refl _), Nat.sub_self, List.take_left]
  rfl

/-- **A clause repeats no name** just if its name is new on its side. -/
theorem Clause.repeated?_eq_none {earlier : List Clause} {clause : Clause} :
    clause.repeated? earlier = none ↔
      (∀ name, clause.typeName? = some name → name ∉ earlier.filterMap typeName?) ∧
      ∀ name, clause.directiveName? = some name → name ∉ earlier.filterMap directiveName? := by
  have hside (name? : Option String) (names : List String) :
      name?.filter (fun name => decide (name ∈ names)) = none ↔
        ∀ name, name? = some name → name ∉ names := by
    simp only [Option.filter_eq_none_iff, decide_eq_true_eq]
  rw [repeated?, Option.or_eq_none_iff, hside, hside]

/-- **The name that is repeated** is the name of the clause. -/
theorem Clause.name?_of_repeated? {earlier : List Clause} {clause : Clause} {name : String}
    (h : clause.repeated? earlier = some name) : clause.statement.outline.name? = some name := by
  obtain h | ⟨-, h⟩ := Option.or_eq_some_iff.mp h
  · have htype : clause.statement.outline.typeName? = some name :=
      (Option.filter_eq_some_iff.mp h).1
    exact (Option.ite_none_right_eq_some.mp htype).2
  · have hdirective : clause.statement.outline.directiveName? = some name :=
      (Option.filter_eq_some_iff.mp h).1
    unfold Definition.directiveName? at hdirective
    split at hdirective
    · next heq => rw [heq]; exact hdirective
    · cases hdirective

/-- **A clause is not refused** just if it is no extension and repeats no
name. -/
theorem Clause.refusal?_eq_none {earlier : List Clause} {clause : Clause} :
    clause.refusal? earlier = none ↔ clause.extends? = false ∧ clause.repeated? earlier = none := by
  rw [refusal?]
  cases clause.extends? with
  | true =>
    constructor
    · intro h
      cases h
    · rintro ⟨h, -⟩
      cases h
  | false =>
    rw [if_neg Bool.false_ne_true, Option.map_eq_none_iff]
    exact ⟨fun h => ⟨rfl, h⟩, And.right⟩

/-- One name more on a side is new there, or comes twice. -/
theorem nodup_filterMap_concat (side : Clause → Option String) (clauses : List Clause)
    (clause : Clause) :
    ((clauses ++ [clause]).filterMap side).Nodup ↔ (clauses.filterMap side).Nodup ∧
      ∀ name, side clause = some name → name ∉ clauses.filterMap side := by
  rw [List.filterMap_append]
  cases hname : side clause with
  | none => simp [hname]
  | some name =>
    rw [List.filterMap_cons_some hname, List.filterMap_nil, ← List.concat_eq_append,
      List.nodup_concat, and_comm]
    exact and_congr_right fun _ => ⟨fun h _ heq => Option.some.inj heq ▸ h, fun h => h _ rfl⟩

/-- One clause more is refused by itself, or one in front of it is. -/
theorem forall_refusalAt?_concat (clauses : List Clause) (clause : Clause) :
    (∀ i, refusalAt? (clauses ++ [clause]) i = none) ↔
      (∀ i, refusalAt? clauses i = none) ∧ clause.refusal? clauses = none := by
  constructor
  · intro h
    refine ⟨fun i => ?_, ?_⟩
    · obtain hi | hi := Nat.lt_or_ge i clauses.length
      · rw [← refusalAt?_append hi [clause], h]
      · exact refusalAt?_of_length_le hi
    · rw [← refusalAt?_length clauses [] clause, h]
  · rintro ⟨hclauses, hclause⟩ i
    obtain hi | rfl | hi := Nat.lt_trichotomy i clauses.length
    · rw [refusalAt?_append hi, hclauses]
    · rw [refusalAt?_length, hclause]
    · exact refusalAt?_of_length_le (by rw [List.length_append]; exact hi)

/-- **No clause is refused** just if none is an extension and no name comes
twice on one side. By induction from the end, where a clause has all others
in front of it. -/
theorem forall_refusalAt?_eq_none (clauses : List Clause) :
    (∀ i, refusalAt? clauses i = none) ↔ (∀ clause ∈ clauses, clause.extends? = false) ∧
      (clauses.filterMap Clause.typeName?).Nodup ∧
      (clauses.filterMap Clause.directiveName?).Nodup := by
  induction clauses using List.reverseRecOn with
  | nil => simp [refusalAt?]
  | append_singleton clauses clause ih =>
    rw [forall_refusalAt?_concat, ih, Clause.refusal?_eq_none, Clause.repeated?_eq_none,
      nodup_filterMap_concat, nodup_filterMap_concat, List.forall_mem_append,
      List.forall_mem_singleton]
    tauto

/-- **There is one first refusal.** -/
theorem first_refusal_unique {clauses : List Clause} {i j : Nat} {error error' : ParseError}
    (hat : refusalAt? clauses i = some error) (hbefore : ∀ k < i, refusalAt? clauses k = none)
    (hat' : refusalAt? clauses j = some error')
    (hbefore' : ∀ k < j, refusalAt? clauses k = none) : error = error' := by
  obtain hlt | rfl | hgt := Nat.lt_trichotomy i j
  · rw [hbefore' i hlt] at hat
    cases hat
  · exact Option.some.inj (hat.symm.trans hat')
  · rw [hbefore j hgt] at hat'
    cases hat'

/-- **The definition a clause declares**: a clause that is an extension has
none. -/
def Clause.Declares (clause : Clause) (definition : Definition) : Prop :=
  clause.extends? = false ∧ clause.statement.definition false = .ok definition

/-- A side of the definitions is that of the clauses that declare them. -/
theorem filterMap_of_declares {side : Definition → Option String}
    (hside : ∀ definition, side definition.outline = side definition) {clauses : List Clause}
    {definitions : List Definition} (h : List.Forall₂ Clause.Declares clauses definitions) :
    definitions.filterMap side = clauses.filterMap fun clause => side clause.statement.outline := by
  induction h with
  | nil => rfl
  | cons h _ ih =>
    rw [List.filterMap_cons, List.filterMap_cons, ih, ← Statement.outline_eq h.2, hside]

end Sdl

/-! ## The document in the place of the clauses in front -/

namespace Document

open Sdl (Clause Reads refusalAt?)

variable {text : String} {clauses earlier : List Clause} {clause : Clause}
  {definition : Definition} {definitions : List Definition}

/-- **A definition conflicts** with those of the clauses in front just if
its clause repeats a name. -/
theorem conflictsWith_of_declares (hearlier : List.Forall₂ Clause.Declares earlier definitions)
    (hclause : definition.outline = clause.statement.outline) :
    (ofList definitions).conflictsWith definition = true ↔ clause.repeated? earlier ≠ none := by
  have htype : definition.typeName? = clause.typeName? :=
    definition.typeName?_outline.symm.trans (congrArg Definition.typeName? hclause)
  have hdirective : definition.directiveName? = clause.directiveName? :=
    definition.directiveName?_outline.symm.trans (congrArg Definition.directiveName? hclause)
  rw [conflictsWith_ofList, Sdl.filterMap_of_declares Definition.typeName?_outline hearlier,
    Sdl.filterMap_of_declares Definition.directiveName?_outline hearlier, htype, hdirective, Ne,
    Clause.repeated?_eq_none, not_and_or]
  simp only [not_forall, not_not, exists_prop]
  exact or_congr (exists_congr fun _ => and_comm) (exists_congr fun _ => and_comm)

/-- Adding a definition puts it behind the others. -/
theorem add_ofList (definitions : List Definition) (definition : Definition) :
    (ofList definitions).add definition = ofList (definitions ++ [definition]) := by
  rw [ofList, ofList, List.foldl_append]
  rfl

section Entry

variable {entry : Sdl.Entry} {error : ParseError}
  (hearlier : List.Forall₂ Clause.Declares earlier definitions)
  (hdefinition : clause.statement.definition clause.extends? = .ok definition)
  (hentry : clause.entry = .ok entry)

include hearlier hdefinition hentry

/-- **An entry is refused as its clause is.** -/
theorem addEntry_of_refusal (h : clause.refusal? earlier = some error) :
    (ofList definitions).addEntry entry = .error error := by
  have houtline := Sdl.Statement.outline_eq hdefinition
  rw [Clause.entry_eq hdefinition] at hentry
  rw [← Except.ok.inj hentry]
  rw [Clause.refusal?] at h
  split at h
  · next hextends =>
    rw [if_pos hextends, ← Option.some.inj h]
    rfl
  · next hextends =>
    obtain ⟨name, hrepeated, rfl⟩ := Option.map_eq_some_iff.mp h
    have hconflicts : (ofList definitions).conflictsWith definition = true :=
      (conflictsWith_of_declares hearlier houtline).mpr fun hnone => by
        rw [hnone] at hrepeated
        cases hrepeated
    have hname : definition.name? = some name := by
      rw [← Definition.name?_outline, houtline, Clause.name?_of_repeated? hrepeated]
    rw [if_neg hextends, addEntry, if_pos hconflicts, hname, ← Definition.kind_outline, houtline]
    rfl

/-- **The definition of a clause is added** unless the clause is refused. -/
theorem addEntry_of_not_refused (h : clause.refusal? earlier = none) :
    clause.Declares definition ∧
      (ofList definitions).addEntry entry = .ok (ofList (definitions ++ [definition])) := by
  obtain ⟨hextends, hrepeated⟩ := Clause.refusal?_eq_none.mp h
  have hconflicts : ¬(ofList definitions).conflictsWith definition = true := fun hconflicts =>
    (conflictsWith_of_declares hearlier (Sdl.Statement.outline_eq hdefinition)).mp hconflicts
      hrepeated
  rw [Clause.entry_eq hdefinition, hextends] at hentry
  rw [hextends] at hdefinition
  refine ⟨⟨hextends, hdefinition⟩, ?_⟩
  rw [← Except.ok.inj hentry, ← add_ofList]
  exact if_neg hconflicts

end Entry

/-! ## The whole sequence -/

/-- **The entries of clauses are put together** up to the first that is
refused; without one, there is a definition for each of them. By induction
on the clauses still to come, with those in front as they are. -/
theorem foldlM_addEntry (hearlier : List.Forall₂ Clause.Declares earlier definitions)
    (hclauses : ∀ clause ∈ clauses, ∃ definition,
      clause.statement.definition clause.extends? = .ok definition)
    {entries : List Sdl.Entry} (hentries : clauses.mapM Clause.entry = .ok entries) :
    (∃ more, entries.foldlM addEntry (ofList definitions) = .ok (ofList (definitions ++ more)) ∧
        List.Forall₂ Clause.Declares clauses more ∧
        ∀ i, refusalAt? (earlier ++ clauses) (earlier.length + i) = none) ∨
      ∃ i error, entries.foldlM addEntry (ofList definitions) = .error error ∧
        refusalAt? (earlier ++ clauses) (earlier.length + i) = some error ∧
        ∀ j < i, refusalAt? (earlier ++ clauses) (earlier.length + j) = none := by
  induction clauses generalizing earlier definitions entries with
  | nil =>
    refine .inl ⟨[], ?_, .nil, fun i => ?_⟩
    · rw [← Except.ok.inj hentries, List.append_nil]
      rfl
    · rw [List.append_nil]
      exact Sdl.refusalAt?_of_length_le (Nat.le_add_right _ _)
  | cons clause clauses ih =>
    obtain ⟨entry, entries, hentry, hrest, rfl⟩ :=
      List.forall₂_cons_left_iff.mp (mapM_eq_ok.mp hentries)
    obtain ⟨definition, hdefinition⟩ := hclauses clause List.mem_cons_self
    rw [List.foldlM_cons]
    cases hrefusal : clause.refusal? earlier with
    | some error =>
      refine .inr ⟨0, error, ?_, ?_, fun j hj => absurd hj (Nat.not_lt_zero j)⟩
      · rw [addEntry_of_refusal hearlier hdefinition hentry hrefusal]
        rfl
      · rw [Nat.add_zero, Sdl.refusalAt?_length, hrefusal]
    | none =>
      obtain ⟨hdeclares, hadd⟩ := addEntry_of_not_refused hearlier hdefinition hentry hrefusal
      have hfirst : refusalAt? (earlier ++ clause :: clauses) (earlier.length + 0) = none := by
        rw [Nat.add_zero, Sdl.refusalAt?_length, hrefusal]
      -- with the clause in front, the places behind it count from one less
      have hshift (i : Nat) : refusalAt? (earlier ++ clause :: clauses) (earlier.length + (i + 1))
          = refusalAt? (earlier ++ [clause] ++ clauses) ((earlier ++ [clause]).length + i) := by
        rw [← List.append_cons, List.length_append, List.length_singleton, Nat.add_assoc,
          Nat.add_comm 1]
      rw [hadd]
      obtain ⟨more, hfold, hmore, hnone⟩ | ⟨i, error, hfold, hat, hbefore⟩ :=
        ih (List.rel_append hearlier (.cons hdeclares .nil))
          (fun clause hmem => hclauses clause (List.mem_cons_of_mem _ hmem)) (mapM_eq_ok.mpr hrest)
      · refine .inl ⟨definition :: more, ?_, .cons hdeclares hmore, fun i => ?_⟩
        · rw [List.append_cons definitions definition more]
          exact hfold
        · cases i with
          | zero => exact hfirst
          | succ i => rw [hshift, hnone]
      · refine .inr ⟨i + 1, error, hfold, (hshift i).trans hat, fun j hj => ?_⟩
        cases j with
        | zero => exact hfirst
        | succ j => rw [hshift, hbefore j (Nat.lt_of_succ_lt_succ hj)]

/-- **What becomes of a text** that is read: it is refused at the first
refusal of its clauses, or has a document of their definitions. -/
theorem parse_of_reads (h : Reads text clauses) :
    (∃ definitions, Document.parse text = .ok (ofList definitions) ∧
        List.Forall₂ Clause.Declares clauses definitions ∧ ∀ i, refusalAt? clauses i = none) ∨
      ∃ i error, Document.parse text = .error error ∧ refusalAt? clauses i = some error ∧
        ∀ j < i, refusalAt? clauses j = none := by
  obtain ⟨⟨rest, hread⟩, hclauses⟩ := h
  obtain ⟨entries, hentries⟩ : ∃ entries, clauses.mapM Clause.entry = .ok entries := by
    refine exists_mapM_eq_ok.mpr fun clause hmem => ?_
    obtain ⟨definition, hdefinition⟩ := hclauses clause hmem
    exact ⟨_, Clause.entry_eq hdefinition⟩
  have hparse : Document.parse text = entries.foldlM addEntry (ofList []) := by
    have hread : Sdl.entries text = .ok entries := by
      unfold Sdl.entries
      rw [hread]
      exact hentries
    unfold Document.parse
    rw [hread]
    rfl
  have hfold := foldlM_addEntry .nil hclauses hentries
  simp only [List.nil_append, List.length_nil, Nat.zero_add, ← hparse] at hfold
  exact hfold.imp_left fun ⟨definitions, hdocument⟩ => ⟨definitions, hdocument⟩

/-- **A text that is accepted has been read**, and its clauses declare the
definitions of the document. -/
theorem exists_declares_of_parse {document : Document} (h : Document.parse text = .ok document) :
    ∃ clauses, Reads text clauses ∧
      List.Forall₂ Clause.Declares clauses document.definitions.toList := by
  have hentries : ∃ entries, Sdl.entries text = .ok entries := by
    unfold Document.parse at h
    split at h
    · cases h
    · exact ⟨_, ‹_›⟩
  obtain ⟨entries, hentries⟩ := hentries
  have hread : ∃ clauses rest, Sdl.clauses text.toList = some (clauses, rest) ∧
      clauses.mapM Clause.entry = .ok entries := by
    unfold Sdl.entries at hentries
    split at hentries
    · cases hentries
    · exact ⟨_, _, ‹_›, hentries⟩
  obtain ⟨clauses, rest, hclauses, hmap⟩ := hread
  have hreads : Reads text clauses := by
    refine ⟨⟨rest, hclauses⟩, fun clause hmem => ?_⟩
    obtain ⟨entry, hentry⟩ := exists_mapM_eq_ok.mp ⟨entries, hmap⟩ clause hmem
    obtain ⟨definition, hdefinition, -⟩ := bind_eq_ok.mp hentry
    exact ⟨definition, hdefinition⟩
  obtain ⟨definitions, hparse, hdeclares, -⟩ | ⟨i, error, hparse, -⟩ := parse_of_reads hreads
  · obtain rfl := Except.ok.inj (hparse.symm.trans h)
    exact ⟨clauses, hreads, (definitions_ofList definitions).symm ▸ hdeclares⟩
  · rw [hparse] at h
    cases h

/-- **A text is refused at the first clause that is an extension or takes a
name twice**, and accepted if there is none. An extension is told by what
it extends, also where its name is taken, and a name taken twice by the
clause that takes it again. A text is accepted just if it has no extension
and no name twice among its types or among its directives; a type and a
directive may share a name, and schema blocks, which have none, are kept
all of them. Then each clause declares one definition, in order. -/
theorem parse_refuses_first (h : Reads text clauses) :
    (∀ error, Document.parse text = .error error ↔
      ∃ i, refusalAt? clauses i = some error ∧ ∀ j < i, refusalAt? clauses j = none) ∧
    ((∃ document, Document.parse text = .ok document) ↔
      (∀ clause ∈ clauses, clause.extends? = false) ∧
        (clauses.filterMap Clause.typeName?).Nodup ∧
        (clauses.filterMap Clause.directiveName?).Nodup) ∧
    ∀ document, Document.parse text = .ok document →
      List.Forall₂ Clause.Declares clauses document.definitions.toList ∧
        document.typeNames.Nodup ∧ document.directiveNames.Nodup := by
  rw [← Sdl.forall_refusalAt?_eq_none]
  obtain ⟨definitions, hparse, hdeclares, hnone⟩ | ⟨i, error, hparse, hat, hbefore⟩ :=
    parse_of_reads h
  · refine ⟨fun error => ⟨fun herror => ?_, ?_⟩, ⟨fun _ => hnone, fun _ => ⟨_, hparse⟩⟩, ?_⟩
    · rw [hparse] at herror
      cases herror
    · rintro ⟨i, hat, -⟩
      rw [hnone] at hat
      cases hat
    · intro document hdocument
      obtain rfl := Except.ok.inj (hparse.symm.trans hdocument)
      obtain ⟨-, htypes, hdirectives⟩ := (Sdl.forall_refusalAt?_eq_none clauses).mp hnone
      rw [typeNames, directiveNames, definitions_ofList,
        Sdl.filterMap_of_declares Definition.typeName?_outline hdeclares,
        Sdl.filterMap_of_declares Definition.directiveName?_outline hdeclares]
      exact ⟨hdeclares, htypes, hdirectives⟩
  · refine ⟨fun error' => ⟨fun herror => ?_, ?_⟩, ⟨?_, fun hnone => ?_⟩,
      fun document hdocument => ?_⟩
    · obtain rfl := Except.error.inj (hparse.symm.trans herror)
      exact ⟨i, hat, hbefore⟩
    · rintro ⟨j, hat', hbefore'⟩
      rw [hparse, Sdl.first_refusal_unique hat hbefore hat' hbefore']
    · rintro ⟨document, hdocument⟩
      rw [hparse] at hdocument
      cases hdocument
    · rw [hnone] at hat
      cases hat
    · rw [hparse] at hdocument
      cases hdocument

/-- A text can be seen to be read, and its clauses to pass a test. -/
theorem exists_reads_of_any {Test : List Clause → Prop} [DecidablePred Test]
    (h : (Sdl.clauses text.toList).any (fun read => decide (Test read.fst) &&
      read.fst.all fun clause =>
        (clause.statement.definition clause.extends?).toOption.any fun _ => true) = true) :
    ∃ clauses, Reads text clauses ∧ Test clauses := by
  obtain ⟨⟨clauses, rest⟩, hread, hgood⟩ := (Option.any_eq_true _ _).mp h
  obtain ⟨htest, hall⟩ := Bool.and_eq_true_iff.mp hgood
  refine ⟨clauses, ⟨⟨rest, hread⟩, fun clause hmem => ?_⟩, of_decide_eq_true htest⟩
  obtain ⟨definition, hdefinition, -⟩ := exists_ok_of_any (List.all_eq_true.mp hall clause hmem)
  exact ⟨definition, hdefinition⟩

/-- A text where a type and a directive share a name, and there are two schema
blocks. -/
def sharedNames : String :=
  "schema \x7bquery: A\x7d directive @A on FIELD type A \x7ba: Int\x7d schema \x7bquery: A\x7d"

/-- A text where an enumeration takes the name of a type, and where the type is
extended behind it. -/
def takenNames : String :=
  "directive @A on FIELD type A enum A \x7bX\x7d extend type A \x7bb: Int\x7d"

/-- **Shared names are accepted**, and of two clauses that are at fault it is
the first that is refused. -/
theorem parse_refuses_first_shared :
    (∃ clauses document, Reads sharedNames clauses ∧
      Document.parse sharedNames = .ok document ∧ clauses.length = 4 ∧
      List.Forall₂ Clause.Declares clauses document.definitions.toList) ∧
    ∃ clauses, Reads takenNames clauses ∧
      Document.parse takenNames = .error (.duplicate "enum" "A") := by
  constructor
  · have haccepted : ∃ clauses, Reads sharedNames clauses ∧ clauses.length = 4 ∧
        (∀ clause ∈ clauses, clause.extends? = false) ∧
        (clauses.filterMap Clause.typeName?).Nodup ∧
        (clauses.filterMap Clause.directiveName?).Nodup :=
      exists_reads_of_any (by decide +kernel)
    obtain ⟨clauses, hreads, hlength, hclauses⟩ := haccepted
    obtain ⟨-, hok, hdocument⟩ := parse_refuses_first hreads
    obtain ⟨document, hparse⟩ := hok.mpr hclauses
    exact ⟨clauses, document, hreads, hparse, hlength, (hdocument document hparse).1⟩
  · have hrefused : ∃ clauses, Reads takenNames clauses ∧
        refusalAt? clauses 2 = some (.duplicate "enum" "A") ∧
        ∀ j < 2, refusalAt? clauses j = none :=
      exists_reads_of_any (by decide +kernel)
    obtain ⟨clauses, hreads, hfirst⟩ := hrefused
    exact ⟨clauses, hreads, ((parse_refuses_first hreads).1 _).mpr ⟨2, hfirst⟩⟩

end Document

end SchemaScaffold
