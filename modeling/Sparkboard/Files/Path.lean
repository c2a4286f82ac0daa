/-!
# Paths

A path is a row of names between slashes, and each name is a step: a single dot stays, two dots lead
to the directory above, any other name leads down.  Empty names stand for nothing.  Paths that take
different steps can lead to one location.
-/

namespace Sparkboard

/-- A step along a path. -/
inductive PathStep where
  | stay
  | up
  | down (name : String)
  deriving DecidableEq, Repr

def PathStep.ofName (name : String) : PathStep :=
  if name = "." then stay else if name = ".." then up else down name

/-- A directory from which locations are counted. -/
inductive Anchor where
  /-- The topmost directory, above which nothing lies. -/
  | top
  /-- The directory so many levels above the one in which the program runs. -/
  | working (above : Nat)
  deriving DecidableEq, Repr

/-- A place in a file tree: the names that lead straight to it. -/
structure Location where
  anchor : Anchor
  names : List String
  deriving DecidableEq, Repr

def Location.enter (here : Location) : PathStep → Location
  | .stay => here
  | .down name => { here with names := here.names ++ [name] }
  | .up =>
    if here.names ≠ [] then { here with names := here.names.dropLast }
    else match here.anchor with
      | .top => here
      | .working above => ⟨.working (above + 1), []⟩

/-- The way that a path describes. -/
structure Route where
  start : Location
  /-- The steps before the last one, which all lead to directories. -/
  passed : List PathStep
  last : PathStep
  /-- Does a slash stand at the end, so that only a directory can be meant? -/
  slashed : Bool
  deriving DecidableEq, Repr

namespace Path

/-- The names between the slashes of a path, as characters. -/
def splitChars : List Char → List (List Char)
  | [] => [[]]
  | c :: rest =>
    match splitChars rest with
    | [] => [[c]]
    | name :: names => if c = '/' then [] :: name :: names else (c :: name) :: names

def steps (path : String) : List PathStep :=
  ((splitChars path.toList).filter (· ≠ [])).map fun name => .ofName (String.ofList name)

/-- Where a path starts: at the top if a slash stands in front. -/
def start (path : String) : Location :=
  ⟨if path.toList.head? = some '/' then .top else .working 0, []⟩

/-- The way that a path describes.  Without a step it stays where it starts. -/
def route (path : String) : Route :=
  let steps := steps path
  ⟨start path, steps.dropLast, steps.getLast?.getD .stay, path.toList.getLast? = some '/'⟩

/-- The place to which a path leads if every name before the last is a directory. -/
def location (path : String) : Location :=
  (steps path).foldl Location.enter (start path)

/-- The directories that a path passes and the path itself; `passed` is what stands in front, last
character first. -/
def ancestorsFrom (passed : List Char) : List Char → List String
  | [] => [String.ofList passed.reverse]
  | c :: rest =>
    let others := ancestorsFrom (c :: passed) rest
    if c = '/' ∧ passed ≠ [] then String.ofList passed.reverse :: others else others

/-- The directories that a path passes, from the top, and the path itself. -/
def ancestors (path : String) : List String :=
  ancestorsFrom [] path.toList

def join (directory name : String) : String :=
  if directory = "" || directory.toList.getLast? = some '/' then directory ++ name
  else directory ++ "/" ++ name

/-- What stands behind the last point of the last name, if something stands before it.  Dots at the
end of a path are no names. -/
def extension? (path : String) : Option String :=
  match ((steps path).filter (· ≠ .stay)).getLast? with
  | some (.down name) =>
    let behind := name.toList.reverse.takeWhile (· ≠ '.')
    let before := name.toList.reverse.drop (behind.length + 1)
    if before.isEmpty then none else some (String.ofList behind.reverse)
  | _ => none

/-- Is this the path of comma-separated text? -/
def isCsv (path : String) : Bool :=
  match extension? path with
  | some e => e.toList.map Char.toLower = ['c', 's', 'v']
  | none => false

end Path

end Sparkboard
