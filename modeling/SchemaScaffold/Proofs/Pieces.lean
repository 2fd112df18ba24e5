import SchemaScaffold.Resolvers.Binding
import SchemaScaffold.Types.Declaration

/-!
# Which types a text mentions

The text of a block and the list of types it uses are made side by side,
from the same declaration or binding, and nothing in a text tells which of
its words stand for a type. So the texts are taken apart here: each is a
sequence of **pieces**, and a piece is either words, or the **mention** of
a type. A mention writes the whole expression as the module reads it, or
else only the head of it, and then without quotation marks.

Put together the pieces are the text (`Declaration.text_eq`,
`Binding.text_eq`). And the mentions among them are all there should be: a
declaration mentions what it is made with and its parts
(`Declaration.perm_mentions_pieces`), and a binding what makes it and the
signatures of its stubs (`Binding.mentions_pieces`).
-/

namespace SchemaScaffold

/-- **How a type is mentioned** in a text. -/
inductive Mention where
  /-- By its whole expression. -/
  | whole (type : TypeExpr)
  /-- By the name at its head. -/
  | head (type : TypeExpr)

namespace Mention

/-- The type that is mentioned. -/
def type : Mention → TypeExpr
  | whole type => type
  | head type => type

/-- The text of a mention in a module. -/
def text (module : String) : Mention → String
  | whole type => type.text module
  | head type => type.head

end Mention

/-- **A piece of a text.** -/
inductive Piece where
  /-- Words that mention no type. -/
  | words (text : String)
  /-- The mention of a type. -/
  | mention (it : Mention)

namespace Piece

variable {module separator : String} {pieces : List Piece} {parts : List (List Piece)}

/-- The text of a piece in a module. -/
def text (module : String) : Piece → String
  | words text => text
  | mention it => it.text module

/-- The mention that a piece is, unless it is words. -/
def mention? : Piece → Option Mention
  | words _ => none
  | mention it => some it

/-- **The text that pieces make up.** -/
def textOf (module : String) (pieces : List Piece) : String := .join (pieces.map (text module))

/-- **The mentions among pieces**, in order. -/
def mentions (pieces : List Piece) : List Mention := pieces.filterMap mention?

/-- Pieces with words between each two of them. -/
def joined (separator : String) (parts : List (List Piece)) : List Piece :=
  [words separator].intercalate parts

@[simp] theorem textOf_nil (module : String) : textOf module [] = "" := String.join_nil

@[simp] theorem textOf_cons (module : String) (piece : Piece) (pieces : List Piece) :
    textOf module (piece :: pieces) = piece.text module ++ textOf module pieces :=
  String.join_cons

@[simp] theorem textOf_append (module : String) (xs ys : List Piece) :
    textOf module (xs ++ ys) = textOf module xs ++ textOf module ys := by
  rw [textOf, List.map_append, String.join_append]
  rfl

/-- **The text of joined pieces** is that of the pieces, joined. -/
@[simp] theorem textOf_joined (module separator : String) (parts : List (List Piece)) :
    textOf module (joined separator parts) = separator.intercalate (parts.map (textOf module)) := by
  induction parts with
  | nil => exact String.intercalate_nil.symm
  | cons part parts ih =>
    cases parts with
    | nil => rw [joined, List.intercalate_singleton, List.map_singleton,
        String.intercalate_singleton]
    | cons next parts =>
      rw [joined, List.intercalate_cons_cons, textOf_append, textOf_append, ← joined, ih,
        textOf_cons, textOf_nil, String.append_empty, List.map_cons, List.map_cons, List.map_cons,
        String.intercalate_cons_cons]
      rfl

@[simp] theorem mentions_append (xs ys : List Piece) :
    mentions (xs ++ ys) = mentions xs ++ mentions ys :=
  List.filterMap_append

/-- Joining adds no mention. -/
@[simp] theorem mentions_joined (separator : String) (parts : List (List Piece)) :
    mentions (joined separator parts) = parts.flatMap mentions := by
  induction parts with
  | nil => rfl
  | cons part parts ih =>
    cases parts with
    | nil => rw [joined, List.intercalate_singleton, List.flatMap_singleton]
    | cons next parts =>
      rw [joined, List.intercalate_cons_cons, mentions_append, mentions_append, ← joined, ih,
        List.flatMap_cons (x := part)]
      exact congrArg (· ++ _) (List.append_nil _)

end Piece

/-! ## Declarations -/

/-- The pieces of the line of an attribute. -/
def Attribute.pieces (a : Attribute) : List Piece :=
  [.words ("    " ++ a.name ++ ": "), .mention (.whole a.type),
    .words (match a.type.default? with
      | some value => " = " ++ value
      | none => "")]

namespace Declaration

/-- The pieces of a class, from those of its header and of its lines. -/
def classPieces (header : List Piece) (lines : List (List Piece)) : List Piece :=
  Piece.joined "\n" (header :: if lines.isEmpty then [[.words Block.emptyBody]] else lines)

/-- The pieces of the lines of attributes, in the order they are
written. -/
def attributePieces (attributes : List Attribute) : List (List Piece) :=
  (attributes.mergeSort Attribute.le).map Attribute.pieces

/-- **The pieces of the text of a declaration.** -/
def pieces (declaration : Declaration) : List Piece :=
  match declaration with
  | record name bases attributes =>
    classPieces
      [.words "@", .mention (.head declaration.support),
        .words ("(frozen=True)\nclass " ++ name ++ basesText bases ++ ":")]
      (attributePieces attributes)
  | protocol name attributes =>
    classPieces
      [.words ("class " ++ name ++ "("), .mention (.head declaration.support), .words "):"]
      (attributePieces attributes)
  | enumeration name values =>
    classPieces
      [.words ("class " ++ name ++ "("), .mention (.head declaration.support), .words "):"]
      (values.map fun value => [.words (valueLine value)])
  | union name members =>
    [.words (name ++ " = "), .mention (.head declaration.support), .words "["]
      ++ Piece.joined ", " (members.map fun type => [.mention (.whole type)]) ++ [.words "]"]

/-- **What a declaration mentions**: what it is made with, and its
parts. -/
def mentions (declaration : Declaration) : List Mention :=
  .head declaration.support :: declaration.partTypes.map .whole

theorem textOf_classPieces (module : String) (header : List Piece) (lines : List (List Piece)) :
    Piece.textOf module (classPieces header lines)
      = classText (Piece.textOf module header) (lines.map (Piece.textOf module)) := by
  rw [classPieces, classText, Piece.textOf_joined, List.map_cons, List.isEmpty_map]
  split
  · simp [Piece.text]
  · rfl

theorem textOf_attributePieces (attributes : List Attribute) :
    (attributePieces attributes).map (Piece.textOf Stage.types.module)
      = attributeLines attributes := by
  rw [attributePieces, attributeLines, List.map_map]
  refine List.map_congr_left fun a _ => ?_
  rw [Function.comp_apply, Attribute.pieces, Attribute.line]
  cases a.type.default? <;> simp [Piece.text, Mention.text, String.append_assoc]

/-- **The text of a declaration is what its pieces make up.** -/
theorem text_eq (declaration : Declaration) :
    declaration.text = Piece.textOf Stage.types.module declaration.pieces := by
  -- each literal is cut where the mention stands
  cases declaration with
  | record name bases attributes =>
    have hopening : "@dataclass(frozen=True)\nclass "
        = "@" ++ "dataclass" ++ "(frozen=True)\nclass " :=
      by decide
    rw [text, pieces, textOf_classPieces, textOf_attributePieces, hopening]
    simp only [Piece.textOf_cons, Piece.textOf_nil, Piece.text, Mention.text, support,
      TypeExpr.imported, TypeExpr.head, String.append_assoc, String.append_empty]
  | protocol name attributes =>
    have hclosing : "(Protocol):" = "(" ++ "Protocol" ++ "):" := by decide
    rw [text, pieces, textOf_classPieces, textOf_attributePieces, hclosing]
    simp only [Piece.textOf_cons, Piece.textOf_nil, Piece.text, Mention.text, support,
      TypeExpr.imported, TypeExpr.head, String.append_assoc, String.append_empty]
  | enumeration name values =>
    have hclosing : "(Enum):" = "(" ++ "Enum" ++ "):" := by decide
    rw [text, pieces, textOf_classPieces, hclosing, List.map_map]
    simp only [Piece.textOf_cons, Piece.textOf_nil, Piece.text, Mention.text, support,
      TypeExpr.imported, TypeExpr.head, String.append_assoc, String.append_empty,
      Function.comp_def]
  | union name members =>
    have hopening : " = Union[" = " = " ++ "Union" ++ "[" := by decide
    rw [text, pieces, hopening]
    simp only [Piece.textOf_append, Piece.textOf_cons, Piece.textOf_nil, Piece.textOf_joined,
      Piece.text, Mention.text, support, TypeExpr.imported, TypeExpr.head, List.map_map,
      String.append_assoc, String.append_empty, Function.comp_def]

theorem mentions_classPieces (header : List Piece) (lines : List (List Piece)) :
    Piece.mentions (classPieces header lines)
      = Piece.mentions header ++ lines.flatMap Piece.mentions := by
  rw [classPieces, Piece.mentions_joined, List.flatMap_cons]
  split
  · next hempty => rw [List.isEmpty_iff.mp hempty]; rfl
  · rfl

/-- The attributes are all mentioned, in the order they are written. -/
theorem perm_mentions_attributePieces (attributes : List Attribute) :
    ((attributePieces attributes).flatMap Piece.mentions).Perm
      ((attributes.map Attribute.type).map .whole) := by
  -- a line mentions one type, so that only the order of the lines is left to forget
  have hlines : (attributePieces attributes).flatMap Piece.mentions
      = ((attributes.mergeSort Attribute.le).map Attribute.type).map Mention.whole := by
    rw [attributePieces, List.flatMap_map, List.map_map, List.map_eq_flatMap]
    rfl
  rw [hlines]
  exact ((List.mergeSort_perm attributes Attribute.le).map _).map _

/-- **A declaration mentions what it is made with and its parts**, and
nothing else. -/
theorem perm_mentions_pieces (declaration : Declaration) :
    (Piece.mentions declaration.pieces).Perm declaration.mentions := by
  cases declaration with
  | record name bases attributes =>
    rw [pieces, mentions_classPieces]
    exact (perm_mentions_attributePieces attributes).cons _
  | protocol name attributes =>
    rw [pieces, mentions_classPieces]
    exact (perm_mentions_attributePieces attributes).cons _
  | enumeration name values =>
    have hvalues : (values.map fun value => [Piece.words (valueLine value)]).flatMap Piece.mentions
        = [] := by
      rw [List.flatMap_map]
      exact List.flatMap_eq_nil_iff.mpr fun _ _ => rfl
    rw [pieces, mentions_classPieces, hvalues]
    exact .refl _
  | union name members =>
    rw [pieces, Piece.mentions_append, Piece.mentions_append, Piece.mentions_joined,
      List.flatMap_map, mentions, partTypes, List.map_eq_flatMap]
    exact .of_eq (congrArg _ (List.append_nil _))

end Declaration

/-! ## Bindings -/

namespace Parameter

/-- The pieces of a parameter. A default is written without quotation
marks. -/
def pieces (parameter : Parameter) : List Piece :=
  [.words (parameter.name ++ ": "), .mention (.whole parameter.type)]
    ++ (match parameter.default? with
      | some default =>
        [.words " = ", .mention (.head default.type), .words ("." ++ default.value)]
      | none => [])

/-- What a parameter mentions: its type, and the type of its default. -/
def mentions (parameter : Parameter) : List Mention :=
  .whole parameter.type :: parameter.default?.toList.map fun default => .head default.type

theorem text_eq (parameter : Parameter) :
    parameter.text = Piece.textOf Stage.resolvers.module parameter.pieces := by
  rw [text, pieces]
  cases parameter.default? with
  | none => simp [Piece.text, Mention.text, String.append_assoc]
  | some default => simp [Piece.text, Mention.text, EnumDefault.text, String.append_assoc]

theorem mentions_pieces (parameter : Parameter) :
    Piece.mentions parameter.pieces = parameter.mentions := by
  rw [pieces, mentions]
  cases parameter.default? <;> rfl

end Parameter

namespace Stub

/-- The pieces of the parameter for the value whose field is asked for. -/
def parentPieces (owner : String) : Option TypeExpr → List Piece
  | some parent => [.words (owner ++ "_: "), .mention (.whole parent)]
  | none => [.words "_: None"]

/-- The pieces of the parameter for the request. -/
def infoPieces : List Piece := [.words "info: ", .mention (.head infoType)]

/-- **The pieces of the text of a stub.** -/
def pieces (owner : String) (parent? : Option TypeExpr) (stub : Stub) : List Piece :=
  [.words ("def resolve_" ++ owner ++ "_" ++ stub.name ++ "(")]
    ++ Piece.joined ", "
      (parentPieces owner parent? :: infoPieces :: stub.parameters.map Parameter.pieces)
    ++ [.words ") -> ", .mention (.whole stub.returnType), .words (":\n" ++ Block.emptyBody)]

/-- **What a stub mentions**: the type of the values, if there are any,
what it is told about the request, and its signature. -/
def mentions (parent? : Option TypeExpr) (stub : Stub) : List Mention :=
  parent?.toList.map .whole
    ++ .head infoType :: (stub.parameters.flatMap Parameter.mentions ++ [.whole stub.returnType])

theorem text_eq (owner : String) (parent? : Option TypeExpr) (stub : Stub) :
    stub.text owner parent? = Piece.textOf Stage.resolvers.module (stub.pieces owner parent?) := by
  have hparent : parentText owner parent?
      = Piece.textOf Stage.resolvers.module (parentPieces owner parent?) := by
    cases parent? <;> simp [parentText, parentPieces, Piece.text, Mention.text]
  have hinfo : "info: GraphQLResolveInfo" = Piece.textOf Stage.resolvers.module infoPieces := by
    decide
  have hparameters : stub.parameters.map Parameter.text
      = (stub.parameters.map Parameter.pieces).map (Piece.textOf Stage.resolvers.module) := by
    rw [List.map_map]
    exact List.map_congr_left fun parameter _ => parameter.text_eq
  have hparts : parentText owner parent? :: "info: GraphQLResolveInfo"
        :: stub.parameters.map Parameter.text
      = (parentPieces owner parent? :: infoPieces :: stub.parameters.map Parameter.pieces).map
          (Piece.textOf Stage.resolvers.module) := by
    rw [List.map_cons, List.map_cons, ← hparameters, ← hparent]
    exact congrArg (_ :: · :: _) hinfo
  unfold text pieces
  rw [hparts]
  simp only [Piece.textOf_append, Piece.textOf_cons, Piece.textOf_nil, Piece.textOf_joined,
    Piece.text, Mention.text, String.append_assoc, String.append_empty]

theorem mentions_pieces (owner : String) (parent? : Option TypeExpr) (stub : Stub) :
    Piece.mentions (stub.pieces owner parent?) = stub.mentions parent? := by
  have hparent : Piece.mentions (parentPieces owner parent?) = parent?.toList.map .whole := by
    cases parent? <;> rfl
  have hparameters : (stub.parameters.map Parameter.pieces).flatMap Piece.mentions
      = stub.parameters.flatMap Parameter.mentions := by
    rw [List.flatMap_map]
    simp only [Parameter.mentions_pieces]
  rw [pieces, Piece.mentions_append, Piece.mentions_append, Piece.mentions_joined,
    List.flatMap_cons, List.flatMap_cons, hparent, hparameters, mentions]
  show [] ++ (_ ++ ([Mention.head infoType] ++ _)) ++ [Mention.whole stub.returnType] = _
  simp only [List.nil_append, List.append_assoc, List.cons_append]

end Stub

namespace ObjectBinding

/-- The pieces of the line that binds an object. -/
def openingPieces (binding : ObjectBinding) : List Piece :=
  [.words (binding.name ++ " = "), .mention (.head binding.kind.makerType),
    .words ("(" ++ (if binding.parent?.isSome then TypeExpr.quote binding.schemaName else "")
      ++ ")")]

/-- The pieces of a stub with the line that attaches it. -/
def attachedPieces (binding : ObjectBinding) (stub : Stub) : List Piece :=
  .words ("@" ++ binding.name ++ ".field(" ++ TypeExpr.quote stub.schemaName ++ ")\n")
    :: stub.pieces binding.name binding.parent?

/-- **The pieces of the text of a binding.** -/
def pieces (binding : ObjectBinding) : List Piece :=
  Piece.joined "\n" (binding.openingPieces :: binding.stubs.map binding.attachedPieces)

/-- **What the binding of an object mentions**: what makes it, and what its
stubs do. -/
def mentions (binding : ObjectBinding) : List Mention :=
  .head binding.kind.makerType :: binding.stubs.flatMap (Stub.mentions binding.parent?)

theorem text_eq (binding : ObjectBinding) :
    binding.text = Piece.textOf Stage.resolvers.module binding.pieces := by
  have hopening : binding.opening = Piece.textOf Stage.resolvers.module binding.openingPieces := by
    simp [opening, openingPieces, Piece.text, Mention.text, BindingKind.makerType,
      TypeExpr.imported, TypeExpr.head, String.append_assoc]
  have hattached : binding.stubs.map binding.attached
      = (binding.stubs.map binding.attachedPieces).map (Piece.textOf Stage.resolvers.module) := by
    rw [List.map_map]
    refine List.map_congr_left fun stub _ => ?_
    rw [attached, Function.comp_apply, attachedPieces, Piece.textOf_cons, Stub.text_eq]
    rfl
  rw [text, pieces, Piece.textOf_joined, List.map_cons, hopening, hattached]

theorem mentions_pieces (binding : ObjectBinding) :
    Piece.mentions binding.pieces = binding.mentions := by
  have hattached (stub : Stub) : Piece.mentions (binding.attachedPieces stub)
      = stub.mentions binding.parent? := stub.mentions_pieces binding.name binding.parent?
  rw [pieces, Piece.mentions_joined, List.flatMap_cons, List.flatMap_map, mentions]
  simp only [hattached]
  rfl

end ObjectBinding

/-- **The pieces of the text of the binding of an enumeration.** The
enumeration is written without quotation marks. -/
def EnumBinding.pieces (binding : EnumBinding) : List Piece :=
  [.words (binding.name ++ " = "), .mention (.head BindingKind.enumeration.makerType),
    .words ("(" ++ TypeExpr.quote binding.schemaName ++ ", values="),
    .mention (.head binding.target), .words ")"]

theorem EnumBinding.text_eq (binding : EnumBinding) :
    binding.text = Piece.textOf Stage.resolvers.module binding.pieces := by
  simp [text, pieces, Piece.text, Mention.text, BindingKind.makerType, TypeExpr.imported,
    TypeExpr.head, String.append_assoc]

namespace Binding

/-- **The pieces of the text of a binding.** -/
def pieces : Binding → List Piece
  | object it => it.pieces
  | enumeration it => it.pieces

/-- **What a binding mentions.** An enumeration is mentioned beside what
makes its binding. -/
def mentions : Binding → List Mention
  | object it => it.mentions
  | enumeration it => [.head BindingKind.enumeration.makerType, .head it.target]

/-- **The text of a binding is what its pieces make up.** -/
theorem text_eq (binding : Binding) :
    binding.text = Piece.textOf Stage.resolvers.module binding.pieces := by
  cases binding with
  | object it => exact it.text_eq
  | enumeration it => exact it.text_eq

/-- **A binding mentions what it should**, and nothing else. -/
theorem mentions_pieces (binding : Binding) : Piece.mentions binding.pieces = binding.mentions := by
  cases binding with
  | object it => exact it.mentions_pieces
  | enumeration it => rfl

end Binding

end SchemaScaffold
