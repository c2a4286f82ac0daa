import Sparkboard.Json.Reader
import Sparkboard.Json.Value
/-!
# Chart data

The input of one refresh of the dashboard: labels and the values of the three metrics.
-/

namespace Sparkboard

open Json (Reader)

/-- What charts are drawn from: labels and the values of the three metrics, not yet checked. -/
structure ChartData where
  labels : List String
  employee : List Float
  ssh : List Float
  signs : List Float
  deriving DecidableEq, Repr

namespace ChartData

def toJson (d : ChartData) : Json :=
  .object [
    ("labels", .array (d.labels.map .string)),
    ("employee", .array (d.employee.map .float)),
    ("ssh", .array (d.ssh.map .float)),
    ("signs", .array (d.signs.map .float))]

/-- Chart data while it is being read. -/
structure Draft where
  labels : Option (List String) := none
  employee : Option (List Float) := none
  ssh : Option (List Float) := none
  signs : Option (List Float) := none

def reader : Reader ChartData := Reader.record {
  title := "struct ChartData"
  slots := [
    .of "labels" (.list .string) Draft.labels (fun v s => { s with labels := some v }),
    .of "employee" (.list .float) Draft.employee (fun v s => { s with employee := some v }),
    .of "ssh" (.list .float) Draft.ssh (fun v s => { s with ssh := some v }),
    .of "signs" (.list .float) Draft.signs (fun v s => { s with signs := some v })]
  start := ({} : Draft)
  finish := fun s => do
    return ⟨← Reader.require "labels" s.labels, ← Reader.require "employee" s.employee,
      ← Reader.require "ssh" s.ssh, ← Reader.require "signs" s.signs⟩ }

end ChartData

end Sparkboard
