import SchemaScaffold.Proofs.TypeExpr
import SchemaScaffold.TypeExpr.Walk

/-!
# One traversal in three forms

The names in an expression are gone over three times: on a walk with a stack,
which gives the imports one by one (`ImportWalk.next?`), by recursion, which
lists them, and by the text, which nests them. What a module imports and what
stands in it without quotation marks have to be the same names, and nothing in
the three makes them so. It is settled here by the order they have in common:
a head first, and then what it is applied to (`TypeExpr.nodes`).

A walk is not about one expression for long. After the first visit the stack
holds expressions that have nothing to do with each other, so what a walk
yields is said of any stack (`ImportWalk.yields_nodes`).

A text is read from the outside to the inside (`NestedText`). It can be read as
something else if a name has a bracket or a mark in it, since nothing else
tells where a name ends (`NestedText.unique`). And a wrapper is never written
in quotation marks, so in the module that provides the wrappers the text does
not say what is imported.
-/

namespace SchemaScaffold

/-! ## What a walk yields -/

namespace ImportWalk

variable {walk rest : ImportWalk} {type : TypeExpr} {pending : List TypeExpr} {i : Import}
  {imports others : List Import}

/-- **The imports a walk yields** until there is no next one. -/
inductive Yields : ImportWalk → List Import → Prop where
  /-- There is none left. -/
  | nil {walk : ImportWalk} (h : walk.next? = none) : Yields walk []
  /-- There is a next one, and then those of the walk behind it. -/
  | cons {walk rest : ImportWalk} {i : Import} {imports : List Import}
    (h : walk.next? = some (i, rest)) (hrest : Yields rest imports) : Yields walk (i :: imports)

/-- A walk yields one thing. -/
theorem Yields.unique (h : walk.Yields imports) (hothers : walk.Yields others) :
    imports = others := by
  induction h generalizing others with
  | nil h =>
    cases hothers with
    | nil => rfl
    | cons h' =>
      rw [h] at h'
      cases h'
  | cons h _ ih =>
    cases hothers with
    | nil h' =>
      rw [h] at h'
      cases h'
    | cons h' hrest' =>
      rw [h] at h'
      cases h'
      rw [ih hrest']

theorem next?_of_import (h : type.headImport? = some i) :
    next? ⟨type :: pending⟩ = some (i, visit type pending) := by
  rw [next?, h]

/-- A name that no module has to provide is passed over. -/
theorem next?_of_none (h : type.headImport? = none) :
    next? ⟨type :: pending⟩ = (visit type pending).next? := by
  rw [next?, h]

/-- **A visit yields the import of the head**, if it has one, in front of what
the walk behind it yields. -/
theorem Yields.visit (h : (ImportWalk.visit type pending).Yields imports) :
    Yields ⟨type :: pending⟩ (type.headImport?.toList ++ imports) := by
  cases hhead : type.headImport? with
  | some i => exact .cons (next?_of_import hhead) h
  | none =>
    have hnext : next? ⟨type :: pending⟩ = (ImportWalk.visit type pending).next? :=
      next?_of_none hhead
    rw [Option.toList_none, List.nil_append]
    cases h with
    | nil hnone => exact .nil (hnext.trans hnone)
    | cons hsome hrest => exact .cons (hnext.trans hsome) hrest

end ImportWalk

namespace TypeExpr

variable {type : TypeExpr}

/-- The nodes are the expression itself, and then those of what it is applied
to. -/
theorem nodes_eq_cons (type : TypeExpr) : type.nodes = type :: type.children.flatMap nodes := by
  cases type with
  | bare name module? => rfl
  | optional inner | sequence inner => exact congrArg _ (List.append_nil _).symm

end TypeExpr

/-- **A walk yields the imports of the nodes**, expression by expression. By
recursion on what is left of the walk. -/
theorem ImportWalk.yields_nodes (pending : List TypeExpr) :
    Yields ⟨pending⟩ ((pending.flatMap TypeExpr.nodes).filterMap TypeExpr.headImport?) := by
  match pending with
  | [] => exact .nil (by rw [next?])
  | type :: pending =>
    have hvisit := yields_nodes (type.children ++ pending)
    have hnodes : (type :: pending).flatMap TypeExpr.nodes
        = [type] ++ (type.children ++ pending).flatMap TypeExpr.nodes := by
      rw [List.flatMap_cons, TypeExpr.nodes_eq_cons, List.flatMap_append]
      rfl
    have hhead : [type].filterMap TypeExpr.headImport? = type.headImport?.toList := by
      cases h : type.headImport? <;> simp [h]
    rw [hnodes, List.filterMap_append, hhead]
    exact hvisit.visit
termination_by size ⟨pending⟩
decreasing_by exact size_visit type pending

/-! ## Reading a text as nested heads -/

/-- **A name as it is written.** -/
structure WrittenName where
  /-- The name. -/
  name : String
  /-- Whether it stands in quotation marks. -/
  quoted : Bool
  deriving DecidableEq, Repr, Inhabited

namespace WrittenName

/-- The name with its marks. -/
def text (written : WrittenName) : String :=
  if written.quoted then TypeExpr.quote written.name else written.name

/-- Whether a character is a bracket or a quotation mark. -/
def isMark (c : Char) : Bool := c == '[' || c == ']' || c == '"'

/-- Whether no bracket and no quotation mark is part of the name. -/
def IsPlain (written : WrittenName) : Prop := ∀ c ∈ written.name.toList, isMark c = false

/-- It can be decided letter by letter. -/
instance (written : WrittenName) : Decidable written.IsPlain :=
  List.decidableBAll _ written.name.toList

variable {written other : WrittenName} {xs ys rest rest' : List Char}

/-- What a plain name is followed by can be told from it, if that is nothing or
starts with a mark. -/
theorem append_inj_of_plain (hxs : ∀ c ∈ xs, isMark c = false) (hys : ∀ c ∈ ys, isMark c = false)
    (hrest : ∀ c ∈ rest.head?, isMark c = true) (hrest' : ∀ c ∈ rest'.head?, isMark c = true)
    (h : xs ++ rest = ys ++ rest') : xs = ys ∧ rest = rest' := by
  have hstops {rest : List Char} (hrest : ∀ c ∈ rest.head?, isMark c = true) :
      rest.takeWhile (!isMark ·) = [] := by
    cases rest with
    | nil => rfl
    | cons c rest => simp [hrest c rfl]
  have htake {xs rest : List Char} (hxs : ∀ c ∈ xs, isMark c = false)
      (hrest : ∀ c ∈ rest.head?, isMark c = true) : (xs ++ rest).takeWhile (!isMark ·) = xs := by
    rw [List.takeWhile_append_of_pos fun c hc => by rw [hxs c hc]; rfl, hstops hrest,
      List.append_nil]
  obtain rfl : xs = ys := by rw [← htake hxs hrest, h, htake hys hrest']
  exact ⟨rfl, List.append_cancel_left h⟩

theorem toList_text (written : WrittenName) :
    written.text.toList
      = if written.quoted then '"' :: (written.name.toList ++ ['"']) else written.name.toList := by
  rw [text]
  split
  · rw [TypeExpr.quote, String.toList_append, String.toList_append]
    rfl
  · rfl

/-- **A plain name can be told from what is behind it**, and so can whether it
stands in quotation marks. -/
theorem text_append_inj (hplain : written.IsPlain) (hother : other.IsPlain)
    (hrest : ∀ c ∈ rest.head?, c = '[') (hrest' : ∀ c ∈ rest'.head?, c = '[')
    (h : written.text.toList ++ rest = other.text.toList ++ rest') :
    written = other ∧ rest = rest' := by
  have hmark {rest : List Char} (hrest : ∀ c ∈ rest.head?, c = '[') :
      ∀ c ∈ rest.head?, isMark c = true := fun c hc => by rw [hrest c hc]; rfl
  -- a name without quotation marks does not start with one, and neither does what is behind it
  have hopen {written : WrittenName} (hplain : written.IsPlain) {rest text : List Char}
      (hrest : ∀ c ∈ rest.head?, c = '[') : written.name.toList ++ rest ≠ '"' :: text := by
    intro h
    cases hname : written.name.toList with
    | nil =>
      rw [hname, List.nil_append] at h
      rw [h] at hrest
      exact absurd (hrest '"' rfl) (by decide)
    | cons c name =>
      rw [hname, List.cons_append] at h
      have hc := hplain c (hname ▸ List.mem_cons_self)
      rw [(List.cons.inj h).1] at hc
      cases hc
  obtain ⟨name, quoted⟩ := written
  obtain ⟨name', quoted'⟩ := other
  rw [toList_text, toList_text] at h
  cases quoted with
  | false =>
    cases quoted' with
    | false =>
      obtain ⟨hname, hrests⟩ := append_inj_of_plain hplain hother (hmark hrest) (hmark hrest') h
      obtain rfl : name = name' := String.toList_inj.mp hname
      exact ⟨rfl, hrests⟩
    | true => exact absurd h (hopen hplain hrest)
  | true =>
    cases quoted' with
    | false => exact absurd h.symm (hopen hother hrest')
    | true =>
      simp only [if_true, List.cons_append, List.append_assoc] at h
      have hquote {rest : List Char} : ∀ c ∈ ('"' :: rest).head?, isMark c = true := by
        intro c hc
        rw [← Option.mem_some.mp hc]
        rfl
      obtain ⟨hname, hrests⟩ :=
        append_inj_of_plain hplain hother hquote hquote (List.cons.inj h).2
      obtain rfl : name = name' := String.toList_inj.mp hname
      exact ⟨rfl, (List.cons.inj hrests).2⟩

end WrittenName

/-- **A text read as a head applied to what is in brackets behind it**, down to
a name that is applied to nothing: the names, in order. -/
inductive NestedText : String → List WrittenName → Prop where
  /-- A name by itself. -/
  | name (written : WrittenName) : NestedText written.text [written]
  /-- A head and its argument. -/
  | applied (written : WrittenName) {argument : String} {inner : List WrittenName}
    (h : NestedText argument inner) :
    NestedText (written.text ++ "[" ++ argument ++ "]") (written :: inner)

/-- **A text is read with plain names in one way only.** -/
theorem NestedText.unique {text text' : String} {names names' : List WrittenName}
    (h : NestedText text names) (h' : NestedText text' names')
    (hplain : ∀ written ∈ names, written.IsPlain) (hplain' : ∀ written ∈ names', written.IsPlain)
    (htext : text = text') : names = names' := by
  have happlied (written : WrittenName) (argument : String) :
      (written.text ++ "[" ++ argument ++ "]").toList
        = written.text.toList ++ '[' :: (argument.toList ++ [']']) := by
    rw [String.toList_append, String.toList_append, String.toList_append, List.append_assoc,
      List.append_assoc]
    rfl
  have hbracket {argument : List Char} : ∀ c ∈ ('[' :: argument).head?, c = '[' :=
    fun c hc => (Option.mem_some.mp hc).symm
  have hnothing : ∀ c ∈ ([] : List Char).head?, c = '[' := fun c hc => nomatch hc
  induction h generalizing text' names' with
  | name written =>
    have hwritten := hplain written List.mem_cons_self
    cases h' with
    | name other =>
      have hlist := congrArg (fun text => text.toList ++ []) htext
      obtain ⟨rfl, -⟩ := WrittenName.text_append_inj hwritten (hplain' other List.mem_cons_self)
        hnothing hnothing hlist
      rfl
    | applied other hargument =>
      have hlist := congrArg String.toList htext
      rw [happlied, ← List.append_nil written.text.toList] at hlist
      obtain ⟨-, hrest⟩ := WrittenName.text_append_inj hwritten (hplain' other List.mem_cons_self)
        hnothing hbracket hlist
      cases hrest
  | applied written hargument ih =>
    have hwritten := hplain written List.mem_cons_self
    have hlist := congrArg String.toList htext
    rw [happlied] at hlist
    cases h' with
    | name other =>
      rw [← List.append_nil other.text.toList] at hlist
      obtain ⟨-, hrest⟩ := WrittenName.text_append_inj hwritten (hplain' other List.mem_cons_self)
        hbracket hnothing hlist
      cases hrest
    | applied other hargument' =>
      rw [happlied] at hlist
      obtain ⟨rfl, hrest⟩ := WrittenName.text_append_inj hwritten
        (hplain' other List.mem_cons_self) hbracket hbracket hlist
      have hargumentEq := List.append_cancel_right (List.cons.inj hrest).2
      rw [ih hargument' (fun w hw => hplain w (List.mem_cons_of_mem _ hw))
        (fun w hw => hplain' w (List.mem_cons_of_mem _ hw)) (String.toList_inj.mp hargumentEq)]

/-! ## The text and the imports -/

namespace TypeExpr

variable {type node : TypeExpr} {module : String}

/-- **The name at the head of an expression**, as the text in a module has it:
what the module provides itself stands in quotation marks. -/
def writtenHead (module : String) (type : TypeExpr) : WrittenName :=
  { name := type.head, quoted := type.module? = some module }

/-- **In quotation marks is what the module would import from itself.** -/
theorem quoted_writtenHead (module : String) (node : TypeExpr) :
    (node.writtenHead module).quoted = true ↔
      ∃ i, node.headImport? = some i ∧ i.module = module := by
  rw [writtenHead, decide_eq_true_iff, headImport?]
  constructor
  · intro h
    exact ⟨⟨node.head, module⟩, by rw [h]; rfl, rfl⟩
  · rintro ⟨i, hi, rfl⟩
    obtain ⟨module, hmodule, rfl⟩ := Option.map_eq_some_iff.mp hi
    exact hmodule

/-- **The nodes stand in the text in order.** A wrapper is never written in
quotation marks, which is why the module may not be the one that provides
it. -/
theorem nestedText_text (type : TypeExpr) (htyping : module ≠ typingModule) :
    NestedText (type.text module) (type.nodes.map (writtenHead module)) := by
  have hwrapper (node : TypeExpr) (h : node.module? = some typingModule) :
      (node.writtenHead module).text = node.head := by
    refine if_neg ?_
    rw [writtenHead, decide_eq_true_iff, h]
    exact fun heq => htyping (Option.some.inj heq).symm
  induction type with
  | bare name module? =>
    have hname : (bare name module?).text module
        = ((bare name module?).writtenHead module).text := by
      by_cases h : module? = some module <;>
        simp [h, text, WrittenName.text, writtenHead, TypeExpr.module?, head]
    rw [hname]
    exact .name _
  | optional inner ih =>
    have happlied := NestedText.applied ((optional inner).writtenHead module) ih
    rw [hwrapper (optional inner) rfl] at happlied
    exact happlied
  | sequence inner ih =>
    have happlied := NestedText.applied ((sequence inner).writtenHead module) ih
    rw [hwrapper (sequence inner) rfl] at happlied
    exact happlied

/-- **What is left of the imports** without those from the module itself is
what the names without quotation marks need. -/
theorem filter_imports (type : TypeExpr) (module : String) :
    (type.imports.filter fun i => i.module != module)
      = (type.nodes.filter fun node =>
          !(node.writtenHead module).quoted).filterMap headImport? := by
  rw [imports_eq_nodes, List.filter_filterMap, List.filterMap_filter]
  refine List.filterMap_congr fun node _ => ?_
  cases hi : node.headImport? with
  | none => simp
  | some i =>
    have hquoted := quoted_writtenHead module node
    rw [hi] at hquoted
    by_cases hmodule : i.module = module
    · rw [hquoted.mpr ⟨i, rfl, hmodule⟩]
      simp [hmodule]
    · have hplain : (node.writtenHead module).quoted = false := by
        rw [← Bool.not_eq_true, hquoted]
        rintro ⟨j, hj, heq⟩
        exact hmodule (Option.some.inj hj ▸ heq)
      rw [hplain]
      simp [hmodule]

/-- **The text of an expression and its imports agree.** A walk over the
expression comes to an end, and what it yields are the imports of the nodes,
from the outside to the inside. The text has the same nodes in the same order,
and can be read in no other way if their names are plain. A node stands in
quotation marks just if its import would be from the module itself. So the
imports that are left without those are what the names without quotation marks
need. -/
theorem text_agrees_with_imports (type : TypeExpr) (htyping : module ≠ typingModule) :
    (∀ imports, (ImportWalk.ofType type).Yields imports ↔
      imports = type.nodes.filterMap headImport?) ∧
    type.imports = type.nodes.filterMap headImport? ∧
    NestedText (type.text module) (type.nodes.map (writtenHead module)) ∧
    (∀ names, NestedText (type.text module) names → (∀ written ∈ names, written.IsPlain) →
      (∀ node ∈ type.nodes, (node.writtenHead module).IsPlain) →
      names = type.nodes.map (writtenHead module)) ∧
    (∀ node ∈ type.nodes,
      ((node.writtenHead module).quoted = true ↔
        ∃ i, node.headImport? = some i ∧ i.module = module) ∧
      ((node.writtenHead module).quoted = false ↔
        node.headImport? = none ∨ ∃ i, node.headImport? = some i ∧ i.module ≠ module)) ∧
    (type.imports.filter fun i => i.module != module)
      = (type.nodes.filter fun node =>
          !(node.writtenHead module).quoted).filterMap headImport? := by
  have hyields : (ImportWalk.ofType type).Yields (type.nodes.filterMap headImport?) := by
    have h := ImportWalk.yields_nodes [type]
    rwa [List.flatMap_singleton] at h
  have htext := nestedText_text type htyping
  refine ⟨fun imports => ⟨fun h => h.unique hyields, fun h => h ▸ hyields⟩, imports_eq_nodes type,
    htext, fun names hnames hplain hnodes => ?_, fun node _ => ⟨quoted_writtenHead module node, ?_⟩,
    filter_imports type module⟩
  · exact hnames.unique htext hplain (List.forall_mem_map.mpr hnodes) rfl
  · rw [← Bool.not_eq_true, quoted_writtenHead]
    cases node.headImport? <;> simp

/-- **A type of the module inside two wrappers** of another. -/
theorem text_agrees_with_imports_person :
    let type := optional (sequence (imported "Person" ".types"))
    ".types" ≠ typingModule ∧ type.text ".types" = "Optional[Sequence[\"Person\"]]" ∧
    (ImportWalk.ofType type).Yields
      [⟨"Optional", "typing"⟩, ⟨"Sequence", "typing"⟩, ⟨"Person", ".types"⟩] ∧
    NestedText "Optional[Sequence[\"Person\"]]"
      [⟨"Optional", false⟩, ⟨"Sequence", false⟩, ⟨"Person", true⟩] ∧
    (∀ names, NestedText "Optional[Sequence[\"Person\"]]" names →
      (∀ written ∈ names, written.IsPlain) →
      names = [⟨"Optional", false⟩, ⟨"Sequence", false⟩, ⟨"Person", true⟩]) ∧
    (type.imports.filter fun i => i.module != ".types")
      = [⟨"Optional", "typing"⟩, ⟨"Sequence", "typing"⟩] := by
  intro type
  have htyping : ".types" ≠ typingModule := by decide
  have htext : type.text ".types" = "Optional[Sequence[\"Person\"]]" := by decide
  obtain ⟨hyields, -, hnested, hunique, -, hfilter⟩ := text_agrees_with_imports type htyping
  refine ⟨htyping, htext, (hyields _).mpr rfl, htext ▸ hnested, fun names hnames hplain => ?_,
    hfilter.trans (by decide)⟩
  exact hunique names (htext ▸ hnames) hplain (by decide)

end TypeExpr

end SchemaScaffold
