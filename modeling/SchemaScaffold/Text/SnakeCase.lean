import SchemaScaffold.Text.Lowercase

/-!
# Snake case

Schema names run their words together and mark each by a capital letter;
attribute and function names part them by underscores. The name
`parseHTTPRequest` becomes `parse_http_request` in two passes over the
letters, each of which finds its matches from the left and goes on behind
a match.

* The first finds **capitalized words**: a capital letter and at least one
  small letter, behind any character but a line feed. It parts the word
  from that character (`SnakeCase.partWords`).
* The second finds a **capital letter behind a small letter or a digit**,
  and parts the two (`SnakeCase.partCapitals`).

Both know ASCII letters only. The lower-case form that ends the work
knows all letters.
-/

namespace SchemaScaffold

namespace SnakeCase

/-- Parts each capitalized word from the character in front of it. -/
def partWords : List Char → List Char
  | c :: capital :: rest =>
    if c ≠ '\n' ∧ capital.isUpper ∧ rest.head?.any Char.isLower then
      c :: '_' :: capital :: rest.takeWhile Char.isLower ++ partWords (rest.dropWhile Char.isLower)
    else c :: partWords (capital :: rest)
  | short => short
termination_by text => text.length
decreasing_by
  · have := (List.dropWhile_suffix Char.isLower (l := rest)).length_le
    simp only [List.length_cons]
    omega
  · simp

/-- Parts each capital letter from a small letter or digit in front. -/
def partCapitals : List Char → List Char
  | c :: capital :: rest =>
    if (c.isLower ∨ c.isDigit) ∧ capital.isUpper then c :: '_' :: capital :: partCapitals rest
    else c :: partCapitals (capital :: rest)
  | short => short

/-- The two passes and the lower-case form. -/
def convert (text : List Char) : List Char := Text.lowercase (partCapitals (partWords text))

end SnakeCase

/-- **A name in snake case.** -/
def snakeCase (name : String) : String := String.ofList (SnakeCase.convert name.toList)

end SchemaScaffold
