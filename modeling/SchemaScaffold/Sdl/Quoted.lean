import SchemaScaffold.Sdl.Lexeme

/-!
# Quoted text

A text is quoted in one of two ways. Between single quotation marks it
stays on one line and characters are escaped by a backslash. Between
triple marks it is a **block**: it runs over lines, nothing in it is an
escape, and the layout of the source is taken out of it.

Taking the layout out (`Sdl.Block.unindent`) means: the lines after the
first are indented in common by some number of blanks, and lose that
many; the blank lines at the top and the bottom go. What is left is
joined by line feeds, whatever ended the lines before.

A triple mark that is never closed is no block. It reads as an empty text
between single marks, with a mark left over.
-/

namespace SchemaScaffold.Sdl

/-! ## Text on one line -/

/-- The characters that stand for themselves on one line. -/
def isPlain (c : Char) : Bool := !(c == '"' || c == '\\' || isLineEnd c)

/-- The characters a backslash and one letter stand for. -/
def escapes : List (Char × Char) :=
  [('"', '"'), ('\\', '\\'), ('/', '/'), ('b', '\x08'), ('f', '\x0c'), ('n', '\n'), ('r', '\r'),
    ('t', '\t')]

/-- A backslash and a letter. -/
def shortEscape : Reader Char := fun text =>
  match text with
  | '\\' :: letter :: rest => (escapes.lookup letter).map fun c => (c, rest)
  | _ => none

/-- The value of a hexadecimal digit in either case. -/
def hexDigit? (c : Char) : Option Nat :=
  if '0' ≤ c ∧ c ≤ '9' then some (c.toNat - '0'.toNat)
  else if 'a' ≤ c ∧ c ≤ 'f' then some (c.toNat - 'a'.toNat + 10)
  else if 'A' ≤ c ∧ c ≤ 'F' then some (c.toNat - 'A'.toNat + 10)
  else none

/-- One hexadecimal digit. -/
def hexDigit : Reader Nat
  | [] => none
  | c :: rest => (hexDigit? c).map fun d => (d, rest)

/-- **A character by its number**, in four hexadecimal digits. The numbers
that are no characters have no escape. -/
def numberEscape : Reader Char := do
  Reader.word "\\u"
  let a ← hexDigit
  let b ← hexDigit
  let c ← hexDigit
  let d ← hexDigit
  let number := ((a * 16 + b) * 16 + c) * 16 + d
  if number.isValidChar then return Char.ofNat number else failure

/-- A text between single quotation marks. -/
def lineText : Reader String := do
  Reader.char '"'
  let cs ← Reader.many (Reader.satisfy isPlain <|> shortEscape <|> numberEscape)
  Reader.char '"'
  return String.ofList cs

/-! ## Blocks -/

/-- The characters up to a triple mark, and what is behind it. A triple
mark behind a backslash does not close the block, and all four characters
belong to it. -/
def blockBody : List Char → Option (List Char × List Char)
  | [] => none
  | '"' :: '"' :: '"' :: rest => some ([], rest)
  | '\\' :: '"' :: '"' :: '"' :: rest =>
    (blockBody rest).map fun (body, final) => ('\\' :: '"' :: '"' :: '"' :: body, final)
  | c :: rest => (blockBody rest).map fun (body, final) => (c :: body, final)

namespace Block

/-- The lines of a text. A carriage return with a line feed behind it is
one line end. -/
def lines : List Char → List (List Char)
  | [] => [[]]
  | '\r' :: '\n' :: rest => [] :: lines rest
  | c :: rest =>
    if isLineEnd c then [] :: lines rest
    else
      match lines rest with
      | [] => [[c]]
      | line :: more => (c :: line) :: more

/-- The characters that indent a line. -/
def isIndent (c : Char) : Bool := c == ' ' || c == '\t'

/-- Whether a line shows nothing. -/
def isBlank (line : List Char) : Bool := line.all isIndent

/-- The least indentation of the lines that show something, and zero
without one. -/
def commonIndent (lines : List (List Char)) : Nat :=
  let shown := lines.filter fun line => !isBlank line
  (shown.map fun line => (line.takeWhile isIndent).length).min?.getD 0

/-- A line without its first `n` characters; a line with fewer stays. -/
def cut (n : Nat) (line : List Char) : List Char := if line.length < n then line else line.drop n

/-- The lines from the first to the last that show something. -/
def trim (lines : List (List Char)) : List (List Char) :=
  ((lines.dropWhile isBlank).reverse.dropWhile isBlank).reverse

/-- **The text of a block without the layout of its source.** -/
def unindent (body : List Char) : List Char :=
  match lines body with
  | [] => []
  | first :: more =>
    List.intercalate ['\n'] (trim (first :: more.map (cut (commonIndent more))))

end Block

/-- A text between triple marks. -/
def blockText : Reader String := do
  Reader.word "\"\"\""
  let body ← (blockBody : Reader (List Char))
  return String.ofList (Block.unindent body)

/-- **A quoted text.** -/
def quoted : Reader String := lexeme (blockText <|> lineText)

end SchemaScaffold.Sdl
