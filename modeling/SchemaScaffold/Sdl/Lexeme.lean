import SchemaScaffold.Schema.TypeRef
import SchemaScaffold.Sdl.Reader

/-!
# Lexemes

Between two lexemes of a schema any amount of **ignored text** may stand:
blanks, line ends, commas, byte order marks, and comments from `#` to the
end of the line. Each lexeme takes the ignored text in front of it
(`Sdl.lexeme`), so the grammar above does not mention it. Nothing is
ignored inside a lexeme, and a type reference is one lexeme.

A keyword is a lexeme of its own even where a letter follows: `typeA` is
`type A`. Names are the only lexemes that extend as far as they can.
-/

namespace SchemaScaffold.Sdl

/-- The two characters that end a line. -/
def isLineEnd (c : Char) : Bool := c == '\n' || c == '\r'

/-- The characters that are ignored between lexemes. -/
def isIgnored (c : Char) : Bool :=
  c == ' ' || c == ',' || c == '\t' || c == '\uFEFF' || isLineEnd c

/-- **The text behind the ignored text at the front**; `inComment` says
whether the front is inside a comment. -/
def skipIgnored (inComment : Bool) : List Char → List Char
  | [] => []
  | c :: rest =>
    if inComment then skipIgnored (!isLineEnd c) rest
    else if c = '#' then skipIgnored true rest
    else if isIgnored c then skipIgnored false rest
    else c :: rest

/-- **A lexeme**: what `p` takes, behind any ignored text. -/
def lexeme {α : Type} (p : Reader α) : Reader α := fun text => p (skipIgnored false text)

/-- A punctuation mark. -/
def mark (c : Char) : Reader Unit := lexeme (.char c)

/-- A keyword. -/
def keyword (w : String) : Reader Unit := lexeme (.word w)

/-! ## Names -/

/-- The ASCII letters and the underscore, with which a name starts. -/
def isNameStart (c : Char) : Bool := c.isAlpha || c == '_'

/-- The ASCII letters, the digits and the underscore. -/
def isNameChar (c : Char) : Bool := c.isAlphanum || c == '_'

/-- A name, without ignored text in front. -/
def bareName : Reader String := do
  let c ← Reader.satisfy isNameStart
  let cs ← Reader.takeWhile isNameChar
  return String.ofList (c :: cs)

/-- **A name.** -/
def name : Reader String := lexeme bareName

/-- The start of a text that may not be the start of an enumeration
value. -/
def reservedStart : Reader Unit := Reader.word "true" <|> Reader.word "false" <|> Reader.word "null"

/-- The name of an enumeration value: a name that does not start with one
of the words for other constants, even if it goes on behind. -/
def enumName : Reader String := lexeme (reservedStart.absent *> bareName)

/-! ## Type references

A type is read as it is written, where null is allowed unless a mark says
otherwise, and then made into a reference, in which the exclusion of null is a
level of its own. -/

/-- **A type as it is written**: a name or a list, with or without a mark
behind it. -/
inductive WrittenType where
  /-- The name of a type. -/
  | named (name : String) (nullable : Bool)
  /-- A list of what is written inside the brackets. -/
  | list (inner : WrittenType) (nullable : Bool)
  deriving DecidableEq, Repr, Inhabited

namespace WrittenType

/-- A reference, or the exclusion of null from it. -/
def exclude (nullable : Bool) (base : TypeRef) : TypeRef := if nullable then base else .nonNull base

/-- **The reference for a type.** -/
def reference : WrittenType → TypeRef
  | named name nullable => exclude nullable (.named name)
  | list inner nullable => exclude nullable (.list inner.reference)

end WrittenType

/-- Whether null is allowed: it is not if an exclamation mark follows. -/
def nullability : Reader Bool := (Reader.char '!' *> pure false) <|> pure true

/-- A type, without ignored text in front. -/
def bareType : Reader WrittenType := Reader.recursive fun inner =>
  (bareName >>= fun n => WrittenType.named n <$> nullability)
    <|> (Reader.char '[' *> inner <* Reader.char ']'
      >>= fun t => WrittenType.list t <$> nullability)

/-- **A type reference.** -/
def typeRef : Reader TypeRef := WrittenType.reference <$> lexeme bareType

end SchemaScaffold.Sdl
