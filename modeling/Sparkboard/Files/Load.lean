import Sparkboard.Chart.Data
import Sparkboard.Config
import Sparkboard.Csv.Table
import Sparkboard.Files.FileTree
/-!
# Loading files

Chart data come from JSON or from comma-separated text, as the name of the file says; timestamps
always from comma-separated text; the configuration from JSON.
-/

namespace Sparkboard

/-- Why a file was not loaded.  The first part of an error says what was being done. -/
inductive LoadError where
  /-- The file cannot be opened or read. -/
  | file (doing : String) (reason : FileFault)
  /-- A file of comma-separated text cannot be opened. -/
  | csvFile (doing : String) (reason : FileFault)
  /-- The text is not the JSON that is wanted. -/
  | json (doing : String) (reason : Json.Error)
  /-- A directory was opened where JSON text is wanted. -/
  | jsonDirectory (doing : String)
  /-- A record of comma-separated text cannot be used. -/
  | csv (doing : String) (reason : Csv.Error)
  /-- There is no row in the file. -/
  | noRows (path : String)
  deriving DecidableEq, Repr

/-- The text of the error, without the reason. -/
def LoadError.message : LoadError → String
  | file doing _ | csvFile doing _ | json doing _ | jsonDirectory doing | csv doing _ => doing
  | noRows path => s!"{path} has no rows"

/-- A row of chart data. -/
structure ChartRow where
  label : String
  employee : Float
  ssh : Float
  signs : Float
  deriving DecidableEq, Repr

namespace ChartRow

/-- A row while it is being read. -/
structure Draft where
  label : Option String := none
  employee : Option Float := none
  ssh : Option Float := none
  signs : Option Float := none

def layout : Csv.Layout Draft ChartRow where
  title := "struct CsvRow"
  columns := [
    .text "label" Draft.label (fun v s => { s with label := some v }),
    .number "employee" Decimal.parseFloat Draft.employee (fun v s => { s with employee := some v }),
    .number "ssh" Decimal.parseFloat Draft.ssh (fun v s => { s with ssh := some v }),
    .number "signs" Decimal.parseFloat Draft.signs (fun v s => { s with signs := some v })]
  start := {}
  finish s := do
    return ⟨← Csv.require "label" s.label, ← Csv.require "employee" s.employee,
      ← Csv.require "ssh" s.ssh, ← Csv.require "signs" s.signs⟩

end ChartRow

def ChartData.ofRows (rows : List ChartRow) : ChartData where
  labels := rows.map ChartRow.label
  employee := rows.map ChartRow.employee
  ssh := rows.map ChartRow.ssh
  signs := rows.map ChartRow.signs

def timestampLayout : Csv.Layout (Option Int) Int where
  title := "struct Row"
  columns := [.number "unix_seconds" Csv.integer id (fun v _ => some v)]
  start := none
  finish s := Csv.require "unix_seconds" s

namespace FileTree

/-- The rows of a file of comma-separated text.  A directory has none. -/
def loadCsv {σ α : Type} (t : FileTree) (layout : Csv.Layout σ α) (path : String) :
    Except LoadError (List α) :=
  match t.open? path with
  | .error reason => .error (.csvFile s!"opening {path}" reason)
  | .ok .directory => .ok []
  | .ok (.file bytes) =>
    match layout.read bytes with
    | .ok rows => .ok rows
    | .error reason => .error (.csv s!"reading {path}" reason)

def loadChartData (t : FileTree) (path : String) : Except LoadError ChartData :=
  if Path.isCsv path then do
    let rows ← t.loadCsv ChartRow.layout path
    if rows.isEmpty then throw (.noRows path)
    return .ofRows rows
  else
    match t.open? path with
    | .error reason => .error (.file s!"opening {path}" reason)
    | .ok .directory => .error (.jsonDirectory s!"parsing {path}")
    | .ok (.file bytes) =>
      match (Json.Document.ofGlyphs (Utf8.decode bytes)).read ChartData.reader with
      | .ok data => .ok data
      | .error reason => .error (.json s!"parsing {path}" reason)

def loadTimestamps (t : FileTree) (path : String) : Except LoadError (List Int) :=
  t.loadCsv timestampLayout path

/-- The configuration in a file.  A file that is not text is refused as a whole. -/
def loadConfig (t : FileTree) (path : String) : Except LoadError Config :=
  match t.read path with
  | .error reason => .error (.file s!"reading config {path}" reason)
  | .ok bytes =>
    match Utf8.text? bytes with
    | none => .error (.file s!"reading config {path}" .invalidData)
    | some text =>
      match Json.parse Config.reader text with
      | .ok config => .ok config
      | .error reason => .error (.json s!"parsing config {path}" reason)

end FileTree

end Sparkboard
