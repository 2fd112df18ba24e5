/-!
# Readers

A **reader** takes a value off the front of a text and hands on what is
left, or does not apply. Readers follow one another by `do` and stand in
for one another by `<|>`, the first that applies being the one that
counts: once a choice is made it is not taken back, whatever comes after.

Two readers call for more care, since both could go on for ever: a
repetition (`Reader.many`) and a reader that contains itself
(`Reader.recursive`). Each works on a **budget**, and the budget is the
text it was given – one character for each item of the repetition, or for
each level of the nesting. That is never too little for the readers of a
grammar, where an item takes at least a character and so does going one
level down. It makes every reader a total function, by recursion on a
list.
-/

namespace SchemaScaffold

/-- **A reader**: from a text to a value and the rest of the text. -/
abbrev Reader (α : Type) : Type := StateT (List Char) Option α

namespace Reader

variable {α : Type}

/-- Takes one character of a class. -/
def satisfy (accepts : Char → Bool) : Reader Char
  | [] => none
  | c :: rest => if accepts c then some (c, rest) else none

/-- Takes the given character. -/
def char (c : Char) : Reader Unit
  | [] => none
  | d :: rest => if d = c then some ((), rest) else none

/-- Takes the given word, whatever follows it. -/
def word (w : String) : Reader Unit := fun text =>
  (w.toList.isPrefixOf? text).map fun rest => ((), rest)

/-- Takes nothing, and applies only where `p` does not. -/
def absent (p : Reader α) : Reader Unit := fun text =>
  match p text with
  | some _ => none
  | none => some ((), text)

/-- The longest run of characters of a class. -/
def takeWhile (accepts : Char → Bool) : Reader (List Char) := fun text =>
  some (text.takeWhile accepts, text.dropWhile accepts)

/-- A run of at least one character of a class. -/
def takeWhile1 (accepts : Char → Bool) : Reader (List Char) := do
  let c ← satisfy accepts
  let cs ← takeWhile accepts
  return c :: cs

/-- The items `p` takes off a text one after another, no more of them
than the budget has characters, and the rest. -/
def takeItems (p : Reader α) (budget text : List Char) : List α × List Char :=
  match budget with
  | [] => ([], text)
  | _ :: budget =>
    match p text with
    | none => ([], text)
    | some (item, rest) =>
      let (items, final) := takeItems p budget rest
      (item :: items, final)

/-- **As many items as there are**, perhaps none. -/
def many (p : Reader α) : Reader (List α) := fun text => some (takeItems p text text)

/-- As many items as there are, at least one. -/
def many1 (p : Reader α) : Reader (List α) := do
  let item ← p
  let items ← many p
  return item :: items

/-- At least one item, the later ones after a separator each. -/
def sepBy1 (p : Reader α) (separator : Reader Unit) : Reader (List α) := do
  let item ← p
  let items ← many (separator *> p)
  return item :: items

/-- What `p` takes, or nothing where it does not apply. -/
def withDefault (default : α) (p : Reader α) : Reader α := p <|> pure default

/-- A reader inside itself, no more levels deep than the budget has
characters. -/
def nest (body : Reader α → Reader α) : List Char → Reader α
  | [] => failure
  | _ :: budget => body (nest body budget)

/-- **A reader that contains itself**, as the one that `body` is given. -/
def recursive (body : Reader α → Reader α) : Reader α := fun text => nest body text text

/-- Applies only if nothing is left. -/
def atEnd : Reader Unit
  | [] => some ((), [])
  | _ :: _ => none

end Reader

end SchemaScaffold
