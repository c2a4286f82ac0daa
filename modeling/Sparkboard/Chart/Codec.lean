import Sparkboard.Chart.Target
import Sparkboard.Json.Reader
import Sparkboard.Json.Value
/-!
# Charts as JSON

Each part of a chart has a written form and a reader for it.  The line and the area are records with
one field `points`, the axis one with the field `children`.
-/

namespace Sparkboard

open Json (Reader)

namespace Point

def toJson (p : Point) : Json :=
  .object [("x", .float p.x), ("y", .float p.y)]

/-- A point while it is being read. -/
structure Draft where
  x : Option Float := none
  y : Option Float := none

def reader : Reader Point := Reader.record {
  title := "struct Point"
  slots := [
    .of "x" .float Draft.x (fun v s => { s with x := some v }),
    .of "y" .float Draft.y (fun v s => { s with y := some v })]
  start := ({} : Draft)
  finish := fun s => do
    return ⟨← Reader.require "x" s.x, ← Reader.require "y" s.y⟩ }

end Point

/-- A row of things under a single field name, as JSON. -/
def wrappedList {α : Type} (field : String) (toJson : α → Json) (items : List α) : Json :=
  .object [(field, .array (items.map toJson))]

/-- Reads a row of things under a single field name. -/
def wrappedReader {α : Type} (title field : String) (r : Reader α) : Reader (List α) :=
  Reader.record {
    title := title
    slots := [.of field (.list r) (fun s : Option (List α) => s) (fun v _ => some v)]
    start := (none : Option (List α))
    finish := fun s => Reader.require field s }

namespace Animation

def toJson (a : Animation) : Json :=
  .object [("name", .string a.name), ("duration_ms", .integer a.durationMs)]

/-- An animation while it is being read. -/
structure Draft where
  name : Option String := none
  durationMs : Option Nat := none

def reader : Reader Animation := Reader.record {
  title := "struct Animation"
  slots := [
    .of "name" .string Draft.name (fun v s => { s with name := some v }),
    .of "duration_ms" .word64 Draft.durationMs (fun v s => { s with durationMs := some v })]
  start := ({} : Draft)
  finish := fun s => do
    return ⟨← Reader.require "name" s.name, ← Reader.require "duration_ms" s.durationMs⟩ }

end Animation

namespace ChartRoot

def toJson (r : ChartRoot) : Json :=
  .object [
    ("animation", (r.animation.map Animation.toJson).getD .null),
    ("generation", .integer r.generation)]

/-- A root while it is being read.  A missing animation is no animation. -/
structure Draft where
  animation : Option (Option Animation) := none
  generation : Option Nat := none

def reader : Reader ChartRoot := Reader.record {
  title := "struct ChartRoot"
  slots := [
    .of "animation" (.optional Animation.reader) Draft.animation
      (fun v s => { s with animation := some v }),
    .of "generation" .word64 Draft.generation (fun v s => { s with generation := some v })]
  start := ({} : Draft)
  finish := fun s => do
    return ⟨s.animation.getD none, ← Reader.require "generation" s.generation⟩ }

end ChartRoot

namespace AxisLabel

def toJson (l : AxisLabel) : Json :=
  .object [("x", .float l.x), ("y", .float l.y), ("text", .string l.text)]

/-- A label while it is being read. -/
structure Draft where
  x : Option Float := none
  y : Option Float := none
  text : Option String := none

def reader : Reader AxisLabel := Reader.record {
  title := "struct LabelNode"
  slots := [
    .of "x" .float Draft.x (fun v s => { s with x := some v }),
    .of "y" .float Draft.y (fun v s => { s with y := some v }),
    .of "text" .string Draft.text (fun v s => { s with text := some v })]
  start := ({} : Draft)
  finish := fun s => do
    return ⟨← Reader.require "x" s.x, ← Reader.require "y" s.y, ← Reader.require "text" s.text⟩ }

end AxisLabel

namespace ChartTarget

def toJson (t : ChartTarget) : Json :=
  .object [
    ("root", t.root.toJson),
    ("line", wrappedList "points" Point.toJson t.line),
    ("fill", wrappedList "points" Point.toJson t.area),
    ("axis", wrappedList "children" AxisLabel.toJson t.axis)]

/-- A target while it is being read. -/
structure Draft where
  root : Option ChartRoot := none
  line : Option (List Point) := none
  area : Option (List Point) := none
  axis : Option (List AxisLabel) := none

def reader : Reader ChartTarget := Reader.record {
  title := "struct ChartTarget"
  slots := [
    .of "root" ChartRoot.reader Draft.root (fun v s => { s with root := some v }),
    .of "line" (wrappedReader "struct LineGeometry" "points" Point.reader) Draft.line
      (fun v s => { s with line := some v }),
    .of "fill" (wrappedReader "struct FillPolygon" "points" Point.reader) Draft.area
      (fun v s => { s with area := some v }),
    .of "axis" (wrappedReader "struct AxisContainer" "children" AxisLabel.reader) Draft.axis
      (fun v s => { s with axis := some v })]
  start := ({} : Draft)
  finish := fun s => do
    return ⟨← Reader.require "root" s.root, ← Reader.require "line" s.line,
      ← Reader.require "fill" s.area, ← Reader.require "axis" s.axis⟩ }

end ChartTarget

namespace Series

def toJson (s : Series) : Json :=
  .array (s.values.toList.map .float)

def reader : Reader Series :=
  Reader.refine (.list .float) fun values =>
    match Series.ofList values with
    | .ok s => .ok s
    | .error e => .error e.message

end Series

namespace LabelSet

def toJson (l : LabelSet) : Json :=
  .array (l.toList.map .string)

/-- A label set is read as an array of strings and then checked. -/
def reader : Reader LabelSet :=
  Reader.refine (.list .string) fun labels =>
    match LabelSet.ofList labels with
    | .ok l => .ok l
    | .error e => .error e.message

end LabelSet

end Sparkboard
