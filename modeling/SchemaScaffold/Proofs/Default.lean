import SchemaScaffold.Proofs.Acceptance
import SchemaScaffold.Proofs.Constant
import SchemaScaffold.Proofs.LiteralText

/-!
# The defaults of a schema keep their integers

A default may stand in five places: an argument of a field of an object or of an
interface, an argument of a directive, and a field of an input object. It is
the same in all of them. The input values of a definition are those of its
clause, in order (`Sdl.definition_inputs`), and the default of one is the value
of the other. So what `Literal.KeepsIntegers` says of one literal holds of all
the defaults of a document.

What is left is a text without a document. A default without a value is at
fault with a number, as is whatever else a statement is made of, a schema block
apart: that one may name no root for queries, or one root twice
(`Sdl.onlyNumbers_definition`). And a text is at fault with the first of its
clauses that is.

`Document.parse_keeps_integers` says both, of every text that is cut into
clauses, and says from the first letter on what becomes of the text of one
literal. Two kinds of integers do not become themselves although they are in
range (`Document.exists_integer_not_kept`). The spelling `-0` is kept as a
double, and a setting that another one follows is lost with whatever is in it.
And an integer out of range may be too large although it is a finite double:
the greatest one is.
-/

namespace SchemaScaffold

/-! ## Where defaults are -/

/-- **The input values of a definition**: arguments, and fields of an input
object. -/
def Definition.inputs : Definition → List InputValue
  | .object it => it.fields.flatMap Field.arguments
  | .interface it => it.fields.flatMap Field.arguments
  | .inputObject it => it.fields
  | .directive it => it.arguments
  | _ => []

namespace Sdl

/-- **The input values of a statement**, as they are written. -/
def Statement.inputs : Statement → List InputClause
  | .object _ _ _ fields => fields.flatMap FieldClause.arguments
  | .interface _ _ fields => fields.flatMap FieldClause.arguments
  | .inputObject _ _ fields => fields
  | .directive _ arguments => arguments
  | _ => []

theorem inputValue_default {clause : InputClause} {input : InputValue}
    (h : clause.inputValue = .ok input) :
    Option.Rel (fun literal v => literal.value = .ok v) clause.default? input.default? := by
  obtain ⟨default?, hdefault, h⟩ := bind_eq_ok.mp h
  obtain ⟨_, -, hinput⟩ := bind_eq_ok.mp h
  obtain rfl := Except.ok.inj hinput
  cases hliteral : clause.default? with
  | none =>
    rw [hliteral] at hdefault
    obtain rfl := Except.ok.inj hdefault
    exact .none
  | some literal =>
    rw [hliteral] at hdefault
    obtain ⟨v, hv, rfl⟩ := map_eq_ok.mp hdefault
    exact .some hv

theorem field_arguments {clause : FieldClause} {field : Field} (h : clause.field = .ok field) :
    List.Forall₂ (fun clause input => clause.inputValue = .ok input) clause.arguments
      field.arguments := by
  obtain ⟨arguments, harguments, h⟩ := bind_eq_ok.mp h
  obtain ⟨_, -, hfield⟩ := bind_eq_ok.mp h
  obtain rfl := Except.ok.inj hfield
  exact mapM_eq_ok.mp harguments

/-- **The input values of a definition are those of its statement**, in
order. -/
theorem definition_inputs {statement : Statement} {extending : Bool} {definition : Definition}
    (h : statement.definition extending = .ok definition) :
    List.Forall₂ (fun clause input => clause.inputValue = .ok input) statement.inputs
      definition.inputs := by
  have hfields {clauses : List FieldClause} {fields : List Field}
      (h : clauses.mapM FieldClause.field = .ok fields) :
      List.Forall₂ (fun clause input => clause.inputValue = .ok input)
        (clauses.flatMap FieldClause.arguments) (fields.flatMap Field.arguments) :=
    List.rel_flatMap (mapM_eq_ok.mp h) fun _ _ => field_arguments
  cases statement with
  | schema _ _ =>
    obtain ⟨_, -, h⟩ := bind_eq_ok.mp h
    obtain ⟨_, -, hok⟩ := bind_eq_ok.mp h
    obtain rfl := Except.ok.inj hok
    exact .nil
  | scalar _ _ | union _ _ _ =>
    obtain ⟨_, -, hok⟩ := bind_eq_ok.mp h
    obtain rfl := Except.ok.inj hok
    exact .nil
  | enumeration _ _ _ =>
    obtain ⟨_, -, h⟩ := bind_eq_ok.mp h
    obtain ⟨_, -, hok⟩ := bind_eq_ok.mp h
    obtain rfl := Except.ok.inj hok
    exact .nil
  | object _ _ _ _ | interface _ _ _ =>
    obtain ⟨_, -, h⟩ := bind_eq_ok.mp h
    obtain ⟨fields, hmap, hok⟩ := bind_eq_ok.mp h
    obtain rfl := Except.ok.inj hok
    exact hfields hmap
  | inputObject _ _ _ =>
    obtain ⟨_, -, h⟩ := bind_eq_ok.mp h
    obtain ⟨fields, hmap, hok⟩ := bind_eq_ok.mp h
    obtain rfl := Except.ok.inj hok
    exact mapM_eq_ok.mp hmap
  | directive _ _ =>
    obtain ⟨arguments, hmap, hok⟩ := bind_eq_ok.mp h
    obtain rfl := Except.ok.inj hok
    exact mapM_eq_ok.mp hmap

/-! ## What is wrong with a statement -/

/-- **Nothing but a number is wrong** with what a computation looks at. -/
def OnlyNumbers {α : Type} (x : Except Fault α) : Prop :=
  ∀ fault, x = .error fault → fault = .number

section OnlyNumbers

variable {α β : Type} {x : Except Fault α} {f : α → Except Fault β}

theorem onlyNumbers_ok (a : α) : OnlyNumbers (.ok a) := fun _ h => nomatch h

theorem OnlyNumbers.bind (hx : OnlyNumbers x) (hf : ∀ a, OnlyNumbers (f a)) :
    OnlyNumbers (x >>= f) := by
  cases x with
  | ok a => exact hf a
  | error fault => exact fun fault' h => hx fault' (by rw [← Except.error.inj h])

theorem OnlyNumbers.map (hx : OnlyNumbers x) (g : α → β) : OnlyNumbers (g <$> x) := by
  cases x with
  | ok a => exact onlyNumbers_ok _
  | error fault => exact fun fault' h => hx fault' (by rw [← Except.error.inj h])

theorem onlyNumbers_mapM {xs : List α} (hf : ∀ a ∈ xs, OnlyNumbers (f a)) :
    OnlyNumbers (xs.mapM f) := by
  induction xs with
  | nil => exact onlyNumbers_ok _
  | cons a xs ih =>
    obtain ⟨ha, hxs⟩ := List.forall_mem_cons.mp hf
    rw [List.mapM_cons]
    exact ha.bind fun _ => (ih hxs).bind fun _ => onlyNumbers_ok _

end OnlyNumbers

theorem onlyNumbers_value (literal : Literal) : OnlyNumbers literal.value := fun _ =>
  Literal.eq_number_of_value

theorem onlyNumbers_check (applied : List Applied) : OnlyNumbers (Applied.check applied) := by
  have hsettings (a : Applied) : OnlyNumbers (discard (Literal.settings a.arguments)) := by
    rw [Literal.settings_eq_mapM]
    exact (onlyNumbers_mapM fun _ _ => (onlyNumbers_value _).map _).map _
  induction applied with
  | nil => exact onlyNumbers_ok _
  | cons a applied ih => exact (hsettings a).bind fun _ => ih

theorem onlyNumbers_inputValue (clause : InputClause) : OnlyNumbers clause.inputValue := by
  have hdefault : OnlyNumbers (clause.default?.mapM Literal.value) := by
    cases clause.default? with
    | none => exact onlyNumbers_ok _
    | some literal => exact (onlyNumbers_value literal).map _
  exact hdefault.bind fun _ => (onlyNumbers_check _).bind fun _ => onlyNumbers_ok _

theorem onlyNumbers_field (clause : FieldClause) : OnlyNumbers clause.field :=
  (onlyNumbers_mapM fun _ _ => onlyNumbers_inputValue _).bind fun _ =>
    (onlyNumbers_check _).bind fun _ => onlyNumbers_ok _

theorem onlyNumbers_enumValue (clause : EnumClause) : OnlyNumbers clause.value :=
  (onlyNumbers_check _).bind fun _ => onlyNumbers_ok _

/-- **Nothing but a number is wrong with a statement**, a schema block apart. -/
theorem onlyNumbers_definition {statement : Statement} {extending : Bool}
    (h : ∀ applied roots, statement ≠ .schema applied roots) :
    OnlyNumbers (statement.definition extending) := by
  cases statement with
  | schema applied roots => exact absurd rfl (h applied roots)
  | scalar _ _ | union _ _ _ => exact (onlyNumbers_check _).bind fun _ => onlyNumbers_ok _
  | object _ _ _ _ | interface _ _ _ =>
    exact (onlyNumbers_check _).bind fun _ =>
      (onlyNumbers_mapM fun _ _ => onlyNumbers_field _).bind fun _ => onlyNumbers_ok _
  | enumeration _ _ _ =>
    exact (onlyNumbers_check _).bind fun _ =>
      (onlyNumbers_mapM fun _ _ => onlyNumbers_enumValue _).bind fun _ => onlyNumbers_ok _
  | inputObject _ _ _ =>
    exact (onlyNumbers_check _).bind fun _ =>
      (onlyNumbers_mapM fun _ _ => onlyNumbers_inputValue _).bind fun _ => onlyNumbers_ok _
  | directive _ _ =>
    exact (onlyNumbers_mapM fun _ _ => onlyNumbers_inputValue _).bind fun _ => onlyNumbers_ok _

end Sdl

/-! ## The defaults of a document -/

namespace Document

open Sdl (Clause Numeral)

variable {text : String} {clauses : List Clause} {rest : List Char}

/-- **A definition keeps the integers of a clause**: its input values are those
of the clause, in order, and each has a default just if the other has one, and
keeps the integers of it. -/
def KeepsIntegers (clause : Clause) (definition : Definition) : Prop :=
  List.Forall₂
    (fun input value => Option.Rel Sdl.Literal.KeepsIntegers input.default? value.default?)
    clause.statement.inputs definition.inputs

theorem keepsIntegers_of_declares {clause : Clause} {definition : Definition}
    (h : clause.Declares definition) : KeepsIntegers clause definition := by
  refine (Sdl.definition_inputs h.2).imp fun input value hvalue => ?_
  have hdefault := Sdl.inputValue_default hvalue
  generalize input.default? = literal?, value.default? = v? at hdefault ⊢
  cases hdefault with
  | some h => exact .some (Sdl.Literal.keepsIntegers h)
  | none => exact .none

theorem parse_keeps {document : Document} (hread : Sdl.clauses text.toList = some (clauses, rest))
    (hparse : Document.parse text = .ok document) :
    List.Forall₂ KeepsIntegers clauses document.definitions.toList := by
  obtain ⟨clauses', ⟨⟨rest', hread'⟩, -⟩, hdeclares⟩ := exists_declares_of_parse hparse
  rw [hread] at hread'
  obtain ⟨rfl, rfl⟩ := Prod.mk.inj (Option.some.inj hread')
  exact hdeclares.imp fun _ _ => keepsIntegers_of_declares

/-- **A text is at fault with its first clause that is**, and a clause that is
no schema block with a number. -/
theorem parse_of_clause_error (hread : Sdl.clauses text.toList = some (clauses, rest))
    {clause : Clause} (hclause : clause ∈ clauses)
    (herror : ¬∃ definition, clause.statement.definition clause.extends? = .ok definition) :
    ∃ fault, Document.parse text = .error (.fault fault) ∧
      (fault = .number ∨ ∃ clause ∈ clauses, ∃ applied roots,
        clause.statement = .schema applied roots ∧
          clause.statement.definition clause.extends? = .error fault) := by
  have hentries : Sdl.entries text = clauses.mapM Clause.entry := by
    rw [Sdl.entries, hread]
  cases hresult : clauses.mapM Clause.entry with
  | ok entries =>
    obtain ⟨entry, hentry⟩ := exists_mapM_eq_ok.mp ⟨entries, hresult⟩ clause hclause
    obtain ⟨definition, hdefinition, -⟩ := bind_eq_ok.mp hentry
    exact absurd ⟨definition, hdefinition⟩ herror
  | error fault =>
    have hfirst : failure? (clauses.mapM Clause.entry)
        = (clauses.flatMap fun clause => [clause]).findSome? fun clause => failure? clause.entry :=
      failure?_mapM fun clause _ => by simp
    rw [hresult] at hfirst
    obtain ⟨first, hmem, hfault⟩ := List.exists_of_findSome?_eq_some hfirst.symm
    rw [List.flatMap_singleton'] at hmem
    have hdefinition : first.statement.definition first.extends? = .error fault := by
      cases hdefinition : first.statement.definition first.extends? with
      | ok definition =>
        rw [Clause.entry_eq hdefinition] at hfault
        cases hfault
      | error fault' =>
        rw [Clause.entry, hdefinition] at hfault
        exact congrArg Except.error (Option.some.inj hfault)
    have hparse : Document.parse text = .error (.fault fault) := by
      rw [Document.parse, hentries, hresult]
    by_cases hschema : ∃ applied roots, first.statement = .schema applied roots
    · obtain ⟨applied, roots, heq⟩ := hschema
      exact ⟨fault, hparse, .inr ⟨first, hmem, applied, roots, heq, hdefinition⟩⟩
    · have hnumber := Sdl.onlyNumbers_definition
        (fun applied roots heq => hschema ⟨applied, roots, heq⟩) fault hdefinition
      exact ⟨fault, hparse, .inl hnumber⟩

/-- **A default that has no value** makes its clause be at fault. -/
theorem not_exists_definition {clause : Clause} {input : Sdl.InputClause}
    (hinput : input ∈ clause.statement.inputs) {literal : Sdl.Literal}
    (hliteral : literal ∈ input.default?) (hinfinite : ¬literal.IsFinite) :
    ¬∃ definition, clause.statement.definition clause.extends? = .ok definition := by
  rintro ⟨definition, hdefinition⟩
  obtain ⟨value, hvalue⟩ := exists_mapM_eq_ok.mp
    ⟨_, mapM_eq_ok.mpr (Sdl.definition_inputs hdefinition)⟩ input hinput
  have hdefault := Sdl.inputValue_default hvalue
  rw [Option.mem_def.mp hliteral] at hdefault
  generalize value.default? = v? at hdefault
  cases hdefault with
  | some h => exact hinfinite (Sdl.Literal.exists_value_iff.mp ⟨_, h⟩)

end Document

/-! ## One default in a text -/

namespace Sdl

open Reader

variable {literal : Literal} {body : String}

/-- The text of an input object with one field, whose default is the body. -/
def defaultText (body : String) : String := "input A \x7b f: Int =" ++ body ++ " \x7d"

/-- What is left of the text where the default starts. -/
def closedBody (body : String) : List Char := (body ++ " \x7d").toList

/-- The field as it is written. -/
def defaultClause (literal : Literal) : InputClause :=
  { name := "f", type := .named "Int", default? := some literal, applied := [] }

/-- The declaration as it is written. -/
def inputObjectOf (literal : Literal) : Clause :=
  { extends? := false, statement := .inputObject "A" [] [defaultClause literal] }

section Template

variable (h : literal.Stands (closedBody body) " \x7d".toList)

include h

theorem default_closedBody :
    optional (mark '=' *> Literal.read) (" =".toList ++ closedBody body)
      = some (some literal, " \x7d".toList) := by
  have hmark : mark '=' (" =".toList ++ closedBody body) = some ((), closedBody body) := rfl
  have hliteral := (Literal.read_eq_some literal _ _).mpr h
  exact orElse_of_eq_some (map_eq_some.mpr ⟨literal, (bind_of_eq_some hmark).trans hliteral, rfl⟩)

theorem inputClause_closedBody :
    inputClause (" f: Int =".toList ++ closedBody body)
      = some (defaultClause literal, " \x7d".toList) := by
  have hint : IsIdentifier "Int" := by decide
  have hends : EndsType (" =".toList ++ closedBody body) := .cons rfl (by decide)
  have hdescription : description (" f: Int =".toList ++ closedBody body)
      = some ((), " f: Int =".toList ++ closedBody body) := rfl
  have hname : name (" f: Int =".toList ++ closedBody body)
      = some ("f", ": Int =".toList ++ closedBody body) := rfl
  have hcolon : mark ':' (": Int =".toList ++ closedBody body)
      = some ((), " Int =".toList ++ closedBody body) := rfl
  have htype : typeRef (" Int =".toList ++ closedBody body)
      = some (.named "Int", " =".toList ++ closedBody body) :=
    typeRef_text (t := .named "Int") hint rfl hends
  rw [inputClause, bind_of_eq_some hdescription, bind_of_eq_some hname, bind_of_eq_some hcolon,
    bind_of_eq_some htype, bind_of_eq_some (default_closedBody h)]
  rfl

theorem inputFields_closedBody :
    orNone inputFields (" \x7b f: Int =".toList ++ closedBody body)
      = some ([defaultClause literal], []) := by
  have hopening : mark '\x7b' (" \x7b f: Int =".toList ++ closedBody body)
      = some ((), " f: Int =".toList ++ closedBody body) := rfl
  have hfields := many1_of_eq_some (inputClause_closedBody h) rfl
  have hopened : (mark '\x7b' *> many1 inputClause) (" \x7b f: Int =".toList ++ closedBody body)
      = some ([defaultClause literal], " \x7d".toList) := (bind_of_eq_some hopening).trans hfields
  exact orElse_of_eq_some ((bind_of_eq_some hopened).trans rfl)

theorem clause_defaultText :
    clause ("input A \x7b f: Int =".toList ++ closedBody body)
      = some (inputObjectOf literal, []) := by
  have hdescription : description ("input A \x7b f: Int =".toList ++ closedBody body)
      = some ((), "input A \x7b f: Int =".toList ++ closedBody body) := rfl
  have hkeyword : keyword "input" ("input A \x7b f: Int =".toList ++ closedBody body)
      = some ((), " A \x7b f: Int =".toList ++ closedBody body) := rfl
  have hname : name (" A \x7b f: Int =".toList ++ closedBody body)
      = some ("A", " \x7b f: Int =".toList ++ closedBody body) := rfl
  have hdirectives : anyDirectives (" \x7b f: Int =".toList ++ closedBody body)
      = some ([], " \x7b f: Int =".toList ++ closedBody body) := rfl
  -- a word that starts no other kind of declaration
  have hschema : schemaClause ("input A \x7b f: Int =".toList ++ closedBody body) = none := rfl
  have hscalar : scalarClause ("input A \x7b f: Int =".toList ++ closedBody body) = none := rfl
  have hobject : objectClause ("input A \x7b f: Int =".toList ++ closedBody body) = none := rfl
  have hinterface : interfaceClause ("input A \x7b f: Int =".toList ++ closedBody body) = none :=
    rfl
  have hunion : unionClause ("input A \x7b f: Int =".toList ++ closedBody body) = none := rfl
  have henum : enumerationClause ("input A \x7b f: Int =".toList ++ closedBody body) = none := rfl
  rw [clause, orElse_of_eq_none hschema, orElse_of_eq_none hscalar, orElse_of_eq_none hobject,
    orElse_of_eq_none hinterface, orElse_of_eq_none hunion, orElse_of_eq_none henum]
  refine orElse_of_eq_some (orElse_of_eq_some ?_)
  rw [declaration, bind_of_eq_some hdescription, bind_of_eq_some hkeyword, bind_of_eq_some hname]
  have hstatement : (anyDirectives >>= fun applied => orNone inputFields >>= fun fields =>
      pure (Statement.inputObject "A" applied fields)) (" \x7b f: Int =".toList ++ closedBody body)
      = some (.inputObject "A" [] [defaultClause literal], []) := by
    rw [bind_of_eq_some hdirectives, bind_of_eq_some (inputFields_closedBody h)]
    rfl
  exact (bind_of_eq_some hstatement).trans rfl

theorem clauses_defaultText :
    clauses (defaultText body).toList = some ([inputObjectOf literal], []) := by
  have htext : (defaultText body).toList = "input A \x7b f: Int =".toList ++ closedBody body := by
    unfold defaultText closedBody
    rw [String.append_assoc]
    exact String.toList_append
  have hread := many1_of_eq_some (clause_defaultText h) rfl
  rw [htext, clauses]
  exact (bind_of_eq_some hread).trans rfl

end Template

end Sdl

namespace Document

open Sdl (Clause Numeral)

variable {literal : Sdl.Literal} {body : String}

/-- The input object that the text declares. -/
def defaultObject (v : Value) : InputObjectType :=
  { name := "A", fields := [{ name := "f", type := .named "Int", default? := some v }] }

theorem definition_inputObjectOf {v : Value} (h : literal.value = .ok v) :
    (Sdl.inputObjectOf literal).statement.definition false
      = .ok (.inputObject (defaultObject v)) := by
  have hinput : (Sdl.defaultClause literal).inputValue
      = .ok { name := "f", type := .named "Int", default? := some v } := by
    have hdefault : (some literal).mapM Sdl.Literal.value = .ok (some v) :=
      map_eq_ok.mpr ⟨v, h, rfl⟩
    exact bind_eq_ok.mpr ⟨_, hdefault, rfl⟩
  have hinputs : [Sdl.defaultClause literal].mapM Sdl.InputClause.inputValue
      = .ok [{ name := "f", type := .named "Int", default? := some v }] :=
    mapM_eq_ok.mpr (.cons hinput .nil)
  exact bind_eq_ok.mpr ⟨(), rfl, bind_eq_ok.mpr ⟨_, hinputs, rfl⟩⟩

theorem parse_defaultText (h : literal.Stands (Sdl.closedBody body) " \x7d".toList) {v : Value}
    (hvalue : literal.value = .ok v) :
    Document.parse (Sdl.defaultText body) = .ok (.ofList [.inputObject (defaultObject v)]) := by
  have hentry : (Sdl.inputObjectOf literal).entry
      = .ok (.declared (.inputObject (defaultObject v))) :=
    Clause.entry_eq (definition_inputObjectOf hvalue)
  have hentries : Sdl.entries (Sdl.defaultText body)
      = .ok [.declared (.inputObject (defaultObject v))] := by
    rw [Sdl.entries, Sdl.clauses_defaultText h]
    exact mapM_eq_ok.mpr (.cons hentry .nil)
  rw [Document.parse, hentries]
  rfl

theorem parse_defaultText_of_not_finite
    (h : literal.Stands (Sdl.closedBody body) " \x7d".toList) (hinfinite : ¬literal.IsFinite) :
    Document.parse (Sdl.defaultText body) = .error (.fault .number) := by
  have hread := Sdl.clauses_defaultText h
  have hnone : ¬∃ definition, (Sdl.inputObjectOf literal).statement.definition
      (Sdl.inputObjectOf literal).extends? = .ok definition :=
    not_exists_definition (List.mem_singleton_self _) rfl hinfinite
  obtain ⟨fault, hparse, rfl | ⟨clause, hclause, applied, roots, hschema, -⟩⟩ :=
    parse_of_clause_error hread (List.mem_singleton_self _) hnone
  · exact hparse
  · obtain rfl := List.mem_singleton.mp hclause
    cases hschema

/-- An integer that is a default stands in its text. -/
theorem stands_integer (negative : Bool) (m : Nat) :
    (Sdl.Literal.number (.integer negative m)).Stands
      (Sdl.closedBody (" " ++ String.ofList (Numeral.integerText negative m))) " \x7d".toList := by
  have hbody : Sdl.closedBody (" " ++ String.ofList (Numeral.integerText negative m))
      = ' ' :: (Numeral.integerText negative m ++ " \x7d".toList) := by
    have htext : (String.ofList (Numeral.integerText negative m)).toList
        = Numeral.integerText negative m := String.toList_ofList
    rw [Sdl.closedBody, String.toList_append, String.toList_append, htext]
    rfl
  refine ⟨?_, .cons rfl rfl (by decide)⟩
  rw [hbody]
  exact Numeral.skipIgnored_integerText

/-! ## Integers -/

/-- **Integers keep their value.** A literal is read just where it stands in a
text: an integer where its sign and its digits are, with nothing behind them
that goes on with it. As the default of a field it is the value of the field if
all its numerals have one, and then each integer in it, at whatever depth, is
there at its place with what it denotes; else the text is at fault with a
number. So it is with every default of every text that is cut into clauses; if
one has no value the text is at fault with a number, unless it is with a schema
block. And it is only from a bound on that an integer has no value. -/
theorem parse_keeps_integers :
    (∀ (literal : Sdl.Literal) (text rest : List Char),
      Sdl.Literal.read text = some (literal, rest) ↔ literal.Stands text rest) ∧
    (∀ (literal : Sdl.Literal) (body : String),
      literal.Stands (body ++ " \x7d").toList " \x7d".toList →
        (literal.IsFinite → ∃ document v,
          Document.parse ("input A \x7b f: Int =" ++ body ++ " \x7d") = .ok document ∧
          document.definitions.toList = [.inputObject (defaultObject v)] ∧
          literal.KeepsIntegers v) ∧
        (¬literal.IsFinite →
          Document.parse ("input A \x7b f: Int =" ++ body ++ " \x7d") = .error (.fault .number))) ∧
    (∀ (text : String) (clauses : List Clause) (rest : List Char),
      Sdl.clauses text.toList = some (clauses, rest) →
        (∀ document, Document.parse text = .ok document →
          List.Forall₂ KeepsIntegers clauses document.definitions.toList) ∧
        ∀ clause ∈ clauses, ∀ input ∈ clause.statement.inputs, ∀ literal ∈ input.default?,
          ¬literal.IsFinite → ∃ fault, Document.parse text = .error (.fault fault) ∧
            (fault = .number ∨ ∃ clause ∈ clauses, ∃ applied roots,
              clause.statement = .schema applied roots ∧
                clause.statement.definition clause.extends? = .error fault)) ∧
    ∀ (negative : Bool) (m : Nat),
      (Numeral.integer negative m).value? = none ↔ 17976931348623156225 * 10 ^ 289 ≤ m := by
  refine ⟨Sdl.Literal.read_eq_some, fun literal body h => ⟨fun hfinite => ?_, fun hinfinite => ?_⟩,
    fun text clauses rest hread => ⟨fun document hparse => ?_, ?_⟩, fun negative m => ?_⟩
  · obtain ⟨v, hvalue⟩ := Sdl.Literal.exists_value_iff.mpr hfinite
    exact ⟨_, v, parse_defaultText h hvalue, definitions_ofList _,
      Sdl.Literal.keepsIntegers hvalue⟩
  · exact parse_defaultText_of_not_finite h hinfinite
  · exact parse_keeps hread hparse
  · intro clause hclause input hinput literal hliteral hinfinite
    exact parse_of_clause_error hread hclause (not_exists_definition hinput hliteral hinfinite)
  · exact Numeral.value?_integer_eq_none

/-- A list with two integers, and another one in an object. -/
def nested : Sdl.Literal :=
  .list [.number (.integer true 0), .number (.integer false (2 ^ 63 - 1)),
    .object [("b", .number (.integer false (2 ^ 63)))]]

theorem stands_nested :
    nested.Stands (" [-0 9223372036854775807 \x7bb: 9223372036854775808\x7d]" ++ " \x7d").toList
      " \x7d".toList := by
  have hzero : (Sdl.Literal.number (.integer true 0)).Stands
      "-0 9223372036854775807 \x7bb: 9223372036854775808\x7d] \x7d".toList
      " 9223372036854775807 \x7bb: 9223372036854775808\x7d] \x7d".toList :=
    ⟨by decide +kernel, .cons rfl rfl (by decide)⟩
  have hgreatest : (Sdl.Literal.number (.integer false (2 ^ 63 - 1))).Stands
      " 9223372036854775807 \x7bb: 9223372036854775808\x7d] \x7d".toList
      " \x7bb: 9223372036854775808\x7d] \x7d".toList :=
    ⟨by decide +kernel, .cons rfl rfl (by decide)⟩
  have hnext : (Sdl.Literal.number (.integer false (2 ^ 63))).Stands
      " 9223372036854775808\x7d] \x7d".toList "\x7d] \x7d".toList :=
    ⟨by decide +kernel, .cons rfl rfl (by decide)⟩
  have hobject : (Sdl.Literal.object [("b", .number (.integer false (2 ^ 63)))]).Stands
      " \x7bb: 9223372036854775808\x7d] \x7d".toList "] \x7d".toList :=
    ⟨"b: 9223372036854775808\x7d] \x7d".toList, "\x7d] \x7d".toList, by decide +kernel,
      ⟨": 9223372036854775808\x7d] \x7d".toList, _, _, by decide +kernel, by decide +kernel, hnext,
        rfl⟩, by decide +kernel⟩
  exact ⟨"-0 9223372036854775807 \x7bb: 9223372036854775808\x7d] \x7d".toList, "] \x7d".toList,
    by decide +kernel, ⟨_, hzero, _, hgreatest, _, hobject, rfl⟩, by decide +kernel⟩

theorem isFinite_nested : nested.IsFinite := by
  intro numeral hmem
  have hcases : numeral = .integer true 0 ∨ numeral = .integer false (2 ^ 63 - 1) ∨
      numeral = .integer false (2 ^ 63) := by
    simpa [nested, Sdl.Literal.numerals, Sdl.Literal.itemNumerals, Sdl.Literal.fieldNumerals]
      using hmem
  obtain rfl | rfl | rfl := hcases
  all_goals
    rw [Ne, Numeral.value?_integer_eq_none]
    decide +kernel

/-- **Integers at three depths**, of which one is a negative zero and one is too
large for 64 bits. -/
theorem parse_keeps_integers_nested :
    (∃ document v,
      Document.parse ("input A \x7b f: Int =" ++
        " [-0 9223372036854775807 \x7bb: 9223372036854775808\x7d]" ++ " \x7d") = .ok document ∧
      document.definitions.toList = [.inputObject (defaultObject v)] ∧
      v.at? [.item 0] = some (.float Numeral.negativeZero) ∧
      v.at? [.item 1] = some (.int 9223372036854775807) ∧
      ∃ double, v.at? [.item 2, .field "b"] = some (.float double)) ∧
    Document.parse ("input A \x7b f: Int =" ++
      (" " ++ String.ofList (Numeral.integerText true (2 ^ 1024))) ++ " \x7d")
        = .error (.fault .number) := by
  obtain ⟨-, hdefault, -, hbound⟩ := parse_keeps_integers
  constructor
  · obtain ⟨document, v, hparse, hdefinitions, hkeeps⟩ :=
      (hdefault nested _ stands_nested).1 isFinite_nested
    obtain ⟨zero, hzero, hzeroValue⟩ := hkeeps [.item 0] true 0 rfl
    obtain ⟨greatest, hgreatest, hgreatestValue⟩ := hkeeps [.item 1] false (2 ^ 63 - 1) rfl
    obtain ⟨next, hnext, hnextValue⟩ := hkeeps [.item 2, .field "b"] false (2 ^ 63) rfl
    refine ⟨document, v, hparse, hdefinitions, ?_, ?_, ?_⟩
    · cases hzeroValue with
      | int _ _ h => exact absurd ⟨rfl, rfl⟩ h
      | negativeZero => exact hzero
      | float hbeyond => exact absurd hbeyond (by decide)
    · cases hgreatestValue with
      | int => exact hgreatest
      | negativeZero hnegative => cases hnegative
      | float hbeyond => exact absurd hbeyond (by decide)
    · cases hnextValue with
      | int _ hhigh => exact absurd hhigh (by decide)
      | negativeZero hnegative => cases hnegative
      | float => exact ⟨_, hnext⟩
  · have herror (m : Nat) (hm : 17976931348623156225 * 10 ^ 289 ≤ m) :
        Document.parse ("input A \x7b f: Int =" ++
          (" " ++ String.ofList (Numeral.integerText true m)) ++ " \x7d")
            = .error (.fault .number) := by
      refine (hdefault _ _ (stands_integer true m)).2 fun hfinite => ?_
      exact hfinite _ List.mem_cons_self ((hbound true m).mpr hm)
    apply herror
    decide +kernel

/-- An object that sets a field twice. -/
def twice : Sdl.Literal :=
  .object [("a", .number (.integer false 1)), ("a", .number (.integer false 2))]

theorem stands_twice : twice.Stands (Sdl.closedBody " \x7ba: 1, a: 2\x7d") " \x7d".toList := by
  have hfirst : (Sdl.Literal.number (.integer false 1)).Stands " 1, a: 2\x7d \x7d".toList
      ", a: 2\x7d \x7d".toList := ⟨by decide +kernel, .cons rfl rfl (by decide)⟩
  have hsecond : (Sdl.Literal.number (.integer false 2)).Stands " 2\x7d \x7d".toList
      "\x7d \x7d".toList := ⟨by decide +kernel, .cons rfl rfl (by decide)⟩
  exact ⟨"a: 1, a: 2\x7d \x7d".toList, "\x7d \x7d".toList, by decide +kernel,
    ⟨": 1, a: 2\x7d \x7d".toList, _, _, by decide +kernel, by decide +kernel, hfirst,
      ⟨": 2\x7d \x7d".toList, _, _, by decide +kernel, by decide +kernel, hsecond, rfl⟩⟩,
    by decide +kernel⟩

theorem value_twice : twice.value = .ok (.object [("a", .int 2)]) := by
  have hinteger (m : Nat) (hm : Numeral.integerOf false m < 2 ^ 63) :
      (Sdl.Literal.number (.integer false m)).value = .ok (.int m) :=
    Sdl.Literal.value_number.mpr (Numeral.value?_integer.mpr
      (.int (Int.le_trans (by decide) (Int.natCast_nonneg m)) hm (fun h => nomatch h.1)))
  have hsettings :
      Sdl.Literal.settings [("a", .number (.integer false 1)), ("a", .number (.integer false 2))]
        = .ok [("a", .int 1), ("a", .int 2)] :=
    Sdl.Literal.settings_eq_ok.mpr
      (.cons ⟨rfl, hinteger 1 (by decide)⟩ (.cons ⟨rfl, hinteger 2 (by decide)⟩ .nil))
  exact map_eq_ok.mpr ⟨_, hsettings, rfl⟩

/-- **Integers that are not kept** as the integers they are, or not at all: the
negative zero, the integers of a setting that another one follows, and the
greatest finite double. -/
theorem exists_integer_not_kept :
    (Document.parse "input A \x7b f: Int = -0 \x7d"
        = .ok (.ofList [.inputObject (defaultObject (.float Numeral.negativeZero))]) ∧
      Numeral.integerText true 0 = "-0".toList ∧ Numeral.integerOf true 0 = 0) ∧
    Document.parse "input A \x7b f: Int = \x7ba: 1, a: 2\x7d \x7d"
        = .ok (.ofList [.inputObject (defaultObject (.object [("a", .int 2)]))]) ∧
    Document.parse ("input A \x7b f: Int =" ++
      (" " ++ String.ofList (Numeral.integerText false ((2 ^ 53 - 1) * 2 ^ 971))) ++ " \x7d")
        = .error (.fault .number) ∧
    (Binary64.Magnitude.mk (2 ^ 53 - 1) 971).isInfinite = false := by
  refine ⟨⟨?_, by decide +kernel, rfl⟩, ?_, ?_, by decide +kernel⟩
  · have hvalue :
        (Sdl.Literal.number (.integer true 0)).value = .ok (.float Numeral.negativeZero) :=
      Sdl.Literal.value_number.mpr (Numeral.value?_integer.mpr (.negativeZero rfl rfl))
    have htext : Sdl.defaultText (" " ++ String.ofList (Numeral.integerText true 0))
        = "input A \x7b f: Int = -0 \x7d" := by decide +kernel
    exact htext ▸ parse_defaultText (stands_integer true 0) hvalue
  · have htext : Sdl.defaultText " \x7ba: 1, a: 2\x7d"
        = "input A \x7b f: Int = \x7ba: 1, a: 2\x7d \x7d" := by decide +kernel
    exact htext ▸ parse_defaultText stands_twice value_twice

  · have herror (m : Nat) (hm : 17976931348623156225 * 10 ^ 289 ≤ m) :
        Document.parse (Sdl.defaultText (" " ++ String.ofList (Numeral.integerText false m)))
          = .error (.fault .number) := by
      refine parse_defaultText_of_not_finite (stands_integer false m) fun hfinite => ?_
      exact hfinite _ List.mem_cons_self (Numeral.value?_integer_eq_none.mpr hm)
    apply herror
    decide +kernel

end Document

end SchemaScaffold
