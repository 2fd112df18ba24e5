import SchemaScaffold.Text.CaseData

/-!
# Lower case

The lower-case form of a text is the form of its characters one by one,
with two exceptions. The dotted capital `İ` becomes two characters. And
sigma has two lower-case forms, of which `ς` is written at the end of a
word: where a letter with a case comes before it and none comes after,
looking past the characters that do not count as neighbours.

On ASCII the form is the one of the letters alone, and neither exception
arises; the tables are not consulted there.
-/

namespace SchemaScaffold.Text

/-- Whether a code point lies in one of the ranges. -/
def inRanges (ranges : List (Nat × Nat)) (c : Char) : Bool :=
  ranges.any fun r => r.fst ≤ c.toNat && c.toNat ≤ r.snd

/-- Whether a character is a letter with a case. -/
def isCased (c : Char) : Bool := inRanges CaseData.casedRanges c

/-- Whether a character is passed over in looking for a letter with a
case. -/
def isPassed (c : Char) : Bool := inRanges CaseData.passedRanges c

/-- The lower-case form of a character in a run of letters, if it is one
of them. -/
def lowerInRun? (c : Char) (run : Nat × Nat × Nat × Int) : Option Char :=
  let (first, last, step, distance) := run
  if first ≤ c.toNat ∧ c.toNat ≤ last ∧ (c.toNat - first) % step = 0 then
    some (Char.ofNat ((c.toNat : Int) + distance).toNat)
  else none

/-- **The lower-case form of a character**, wherever it stands. -/
def lowerChar (c : Char) : List Char :=
  if c.toNat < 128 then [c.toLower]
  else if c = 'İ' then ['i', '\u0307']
  else [(CaseData.lowerRuns.findSome? (lowerInRun? c)).getD c]

/-- Whether the nearest character that counts has a case. -/
def meetsCased (neighbours : List Char) : Bool :=
  match neighbours.dropWhile isPassed with
  | [] => false
  | c :: _ => isCased c

/-- The lower-case form of a sigma between what comes before it, nearest
first, and what comes after. -/
def lowerSigma (before after : List Char) : Char :=
  if meetsCased before && !meetsCased after then 'ς' else 'σ'

/-- The lower-case form of characters behind `before`, which is read
backwards. -/
def lowerFrom (before : List Char) : List Char → List Char
  | [] => []
  | c :: rest =>
    (if c = 'Σ' then [lowerSigma before rest] else lowerChar c) ++ lowerFrom (c :: before) rest

/-- **The lower-case form of a text.** -/
def lowercase (text : List Char) : List Char := lowerFrom [] text

end SchemaScaffold.Text
