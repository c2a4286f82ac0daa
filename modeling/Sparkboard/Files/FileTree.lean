import Sparkboard.Files.Path
/-!
# File trees

The files that paths lead to, as a value.  A path is walked step by step, and each step is taken
from a directory: `x/..` leads nowhere as long as there is no directory `x`.
-/

namespace Sparkboard

/-- Why a file cannot be opened, read or written. -/
inductive FileFault where
  | notFound
  | notADirectory
  | isADirectory
  | alreadyExists
  /-- The file is not text. -/
  | invalidData
  /-- The path holds a character that no path can hold. -/
  | invalidInput
  /-- The path or one of its names is too long. -/
  | invalidFilename
  deriving DecidableEq, Repr

def FileFault.name : FileFault → String
  | notFound => "NotFound"
  | notADirectory => "NotADirectory"
  | isADirectory => "IsADirectory"
  | alreadyExists => "AlreadyExists"
  | invalidData => "InvalidData"
  | invalidInput => "InvalidInput"
  | invalidFilename => "InvalidFilename"

/-- What stands at a location. -/
inductive FileEntry where
  | file (bytes : List UInt8)
  | directory
  deriving DecidableEq, Repr

/-- What stands at each location; the directories that anchor locations always stand. -/
structure FileTree where
  entries : List (Location × FileEntry)
  deriving DecidableEq, Repr

namespace FileTree

def empty : FileTree := ⟨[]⟩

instance : Inhabited FileTree := ⟨empty⟩

/-- What stands at a location. -/
def at? (t : FileTree) (location : Location) : Option FileEntry :=
  if location.names = [] then some .directory else t.entries.lookup location

def put (t : FileTree) (location : Location) (e : FileEntry) : FileTree :=
  ⟨(location, e) :: t.entries.filter fun x => x.1 ≠ location⟩

/-! ## Walking -/

def pathLimit : Nat := 4095

def nameLimit : Nat := 255

/-- The way that a path describes, if it can be the path of anything. -/
def route (path : String) : Except FileFault Route :=
  if '\x00' ∈ path.toList then .error .invalidInput
  else if path = "" then .error .notFound
  else if pathLimit < path.utf8ByteSize then .error .invalidFilename
  else .ok (Path.route path)

/-- Where a step leads. -/
def enter (here : Location) (step : PathStep) : Except FileFault Location :=
  match step with
  | .down name =>
    if nameLimit < name.utf8ByteSize then .error .invalidFilename else .ok (here.enter step)
  | _ => .ok (here.enter step)

/-- Follows steps that all lead to directories. -/
def walk (t : FileTree) (here : Location) (steps : List PathStep) : Except FileFault Location :=
  match t.at? here with
  | none => .error .notFound
  | some (.file _) => .error .notADirectory
  | some .directory =>
    match steps with
    | [] => .ok here
    | step :: rest => do t.walk (← enter here step) rest

/-- The directory from which a route takes its last step. -/
def parent (t : FileTree) (r : Route) : Except FileFault Location :=
  t.walk r.start r.passed

/-! ## Files -/

/-- What a path leads to. -/
def open? (t : FileTree) (path : String) : Except FileFault FileEntry := do
  let r ← route path
  match t.at? (← enter (← t.parent r) r.last) with
  | none => .error .notFound
  | some (.file bytes) => if r.slashed then .error .notADirectory else return .file bytes
  | some .directory => return .directory

def read (t : FileTree) (path : String) : Except FileFault (List UInt8) := do
  match ← t.open? path with
  | .file bytes => return bytes
  | .directory => .error .isADirectory

/-- Writes a file, in place of one that stands there.  Behind a slash or a dot there is only a
directory to write to. -/
def write (t : FileTree) (path : String) (bytes : List UInt8) : Except FileFault FileTree := do
  let r ← route path
  let here ← t.parent r
  match r.last, r.slashed with
  | .down _, false =>
    let location ← enter here r.last
    if t.at? location = some .directory then .error .isADirectory
    else return t.put location (.file bytes)
  | _, _ => .error .isADirectory

/-! ## Directories -/

def makeDirectory (t : FileTree) (r : Route) : Except FileFault FileTree := do
  let location ← enter (← t.parent r) r.last
  if (t.at? location).isSome then .error .alreadyExists else return t.put location .directory

/-- Makes the directory at the end of a route, or keeps the one that stands there. -/
def keepDirectory (t : FileTree) (r : Route) : Except FileFault FileTree :=
  match t.makeDirectory r with
  | .error .alreadyExists =>
    if (t.walk r.start (r.passed ++ [r.last])).isOk then .ok t else .error .alreadyExists
  | result => result

/-- Makes the directory at the end of a route; where the way is missing, `makeWay` makes it
first. -/
def ensureDirectory (t : FileTree) (r : Route)
    (makeWay : FileTree → Except FileFault FileTree) : Except FileFault FileTree :=
  match t.keepDirectory r with
  | .error .notFound => do (← makeWay t).keepDirectory r
  | result => result

/-- Makes the directories to which steps lead, given last step first. -/
def ensureSteps (start : Location) : List PathStep → FileTree → Except FileFault FileTree
  | [], t => .ok t
  | last :: passed, t =>
    t.ensureDirectory ⟨start, passed.reverse, last, false⟩ (ensureSteps start passed)

/-- Makes a directory and those above it, as far as they are missing.  The way to a directory is its
path less the last name, dots aside; so nothing makes the `x` of `x/.`, which is its last name. -/
def makeDirectories (t : FileTree) (path : String) : Except FileFault FileTree := do
  let r ← route path
  let way := ((Path.steps path).filter (· ≠ .stay)).dropLast
  t.ensureDirectory r (ensureSteps r.start way.reverse)

/-! ## Building a tree -/

/-- Puts an entry under a path and makes the directories above it. -/
def add (t : FileTree) (path : String) (e : FileEntry) : FileTree :=
  let location := Path.location path
  let parents := (List.range location.names.length).map fun n =>
    { location with names := location.names.take n }
  let t := parents.foldl (fun t p => if (t.at? p).isSome then t else t.put p .directory) t
  t.put location e

end FileTree

end Sparkboard
