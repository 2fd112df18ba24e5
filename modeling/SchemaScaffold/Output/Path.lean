/-!
# Paths

A path is kept as the text it was given as, because that is how it is
shown and handed on. What it says are its **segments**, the pieces
between the slashes. Most of them are steps; an empty one, or a single
point, stays where it is. Only at the front do these two mean something:
an empty segment there starts the path at the root, and a point is kept
as a step of its own.

The segments up to a step are a **front** of the path. Its fronts, the
longest first, are what the parent of a path, the name at its end and the
chain of its parents are read off (`Path.parent?`, `Path.fileName?` and
`Path.withParents`). The text of a parent ends with its last step, so
whatever stood between that and the next one – repeated slashes, points –
is gone, and whatever stood further in front is as it was.

To the system a path is bytes, which need not be those of a text. They are
taken apart in the same way (`BytePath`).
-/

namespace SchemaScaffold

/-- **A path**, as it was given. -/
structure Path where
  /-- The text of the path. -/
  text : String
  deriving DecidableEq, Repr, Inhabited

namespace Path

/-- The pieces of a text between its slashes. -/
def split : List Char → List (List Char)
  | [] => [[]]
  | c :: rest =>
    if c = '/' then [] :: split rest
    else
      match split rest with
      | [] => [[c]]
      | piece :: more => (c :: piece) :: more

/-- **The segments of a path.** -/
def segments (path : Path) : List (List Char) := split path.text.toList

/-- Whether the path starts at the root. -/
def isAbsolute (path : Path) : Bool := path.text.toList.head? == some '/'

/-- Whether a segment stays where it is. -/
def stays (segment : List Char) : Bool := segment == [] || segment == ['.']

/-- Whether a segment is a step; `first` says whether it is the first one,
where a point is a step. -/
def isStep (first : Bool) (segment : List Char) : Bool :=
  segment != [] && (first || segment != ['.'])

/-- The segments up to each step, the longest first. -/
def frontsOf (first : Bool) : List (List Char) → List (List (List Char))
  | [] => []
  | segment :: rest =>
    (frontsOf false rest).map (segment :: ·) ++ if isStep first segment then [[segment]] else []

/-- **The fronts of a path**: the segments up to each of its steps, the
longest first. -/
def fronts (path : Path) : List (List (List Char)) := frontsOf true path.segments

/-- The text of segments. -/
def join (segments : List (List Char)) : String :=
  String.ofList (List.intercalate ['/'] segments)

/-- **The path without its last step**, if it has one. Nothing is left in
front of a single step but the root. -/
def parent? (path : Path) : Option Path :=
  match path.fronts with
  | [] => none
  | [_] => some ⟨if path.isAbsolute then "/" else ""⟩
  | _ :: front :: _ => some ⟨join front⟩

/-- **The name at the end of a path**, if its last step is a name. -/
def fileName? (path : Path) : Option String :=
  match path.fronts.head?.bind List.getLast? with
  | none => none
  | some step => if step == ['.'] || step == ['.', '.'] then none else some (String.ofList step)

/-- **A path and its parents**, itself first, as far as they have a step. -/
def withParents (path : Path) : List Path :=
  match path.fronts with
  | [] => []
  | _ :: shorter => path :: shorter.map fun front => ⟨join front⟩

/-- **The path of something inside** what a path names. -/
def inside (path : Path) (inner : String) : Path :=
  if inner.toList.head? == some '/' then ⟨inner⟩
  else if path.text.toList.isEmpty || path.text.toList.getLast? == some '/' then
    ⟨path.text ++ inner⟩
  else ⟨path.text ++ "/" ++ inner⟩

end Path

end SchemaScaffold
