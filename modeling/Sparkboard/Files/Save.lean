import Sparkboard.Chart.Svg
import Sparkboard.Dashboard.Operation
import Sparkboard.Files.FileTree
import Sparkboard.Text.Glyph
/-!
# Saving files

A chart is saved as its picture, and a dashboard as the geometry of its charts.
-/

namespace Sparkboard

/-- Why a file was not saved. -/
inductive SaveError where
  /-- The picture is too large; no file was touched. -/
  | scale (reason : ScaleTooLarge)
  /-- The file cannot be written. -/
  | file (doing : String) (reason : FileFault)
  deriving DecidableEq, Repr

/-- The text of the error, without the reason why a file cannot be written. -/
def SaveError.message : SaveError → String
  | scale e => e.message
  | file doing _ => doing

namespace FileTree

/-- Writes a text to a file; `doing` says what for. -/
def saveText (t : FileTree) (doing path text : String) : Except SaveError FileTree :=
  match t.write path (Utf8.encode text) with
  | .ok t => .ok t
  | .error reason => .error (.file s!"{doing} {path}" reason)

def saveSvg (t : FileTree) (target : ChartTarget) (path : String) (scale : Nat) :
    Except SaveError FileTree :=
  match target.svg scale with
  | .error e => .error (.scale e)
  | .ok text => t.saveText "writing" path text

/-- Writes the geometry of every chart of a dashboard. -/
def saveSnapshot (t : FileTree) (d : Dashboard) (path : String) : Except SaveError FileTree :=
  t.saveText "creating" path d.snapshot.pretty

end FileTree

end Sparkboard
