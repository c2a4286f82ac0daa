import Sparkboard.Chart.Target
/-!
# Vector graphics

A chart is rendered as an SVG document: a white background, the area, the line, and a text for each
label.  The viewport is enlarged by a whole factor, so that fractions of a coordinate survive being
rounded to pixels.
-/

namespace Sparkboard

namespace Svg

/-- A pixel, counted from the upper left corner. -/
structure Pixel where
  x : Int
  y : Int
  deriving DecidableEq, Repr

/-- One element of a document. -/
inductive Element where
  /-- The background of a picture of the given size. -/
  | background (width height : Nat)
  /-- A filled area with this outline. -/
  | polygon (outline : List Pixel)
  /-- A line of the given width through these points. -/
  | polyline (stroke : Nat) (points : List Pixel)
  /-- A text of the given size in pixels, its lower left corner at `corner`. -/
  | label (corner : Pixel) (size : Nat) (text : String)
  deriving DecidableEq, Repr

/-- A picture and its elements from back to front. -/
structure Document where
  width : Nat
  height : Nat
  elements : List Element
  deriving DecidableEq, Repr

def escape (c : Char) : List Char :=
  if c = '<' then "&lt;".toList
  else if c = '>' then "&gt;".toList
  else if c = '&' then "&amp;".toList
  else if c = '"' then "&quot;".toList
  else if c = '\'' then "&apos;".toList
  else [c]

def escaped (s : String) : String :=
  String.ofList (s.toList.flatMap escape)

/-- A pixel in a list of points, with the blank behind it. -/
def Pixel.text (p : Pixel) : String :=
  s!"{p.x},{p.y} "

/-- The points of an outline or a line. -/
def pointList (points : List Pixel) : String :=
  String.join (points.map Pixel.text)

def fontSize (size : Nat) : String :=
  Decimal.message (Float.ofNat size / 1.24)

/-- The text of an element, with a line break behind it. -/
def Element.render : Element → String
  | background w h =>
    s!"<rect x=\"0\" y=\"0\" width=\"{w}\" height=\"{h}\" opacity=\"1\" fill=\"#FFFFFF\"" ++
      " stroke=\"none\"/>\n"
  | polygon outline =>
    "<polygon opacity=\"0.25\" fill=\"#5BC894\" points=\"" ++ pointList outline ++ "\"/>\n"
  | polyline stroke points =>
    s!"<polyline fill=\"none\" opacity=\"1\" stroke=\"#5BC894\" stroke-width=\"{stroke}\"" ++
      " points=\"" ++ pointList points ++ "\"/>\n"
  | label corner size text =>
    s!"<text x=\"{corner.x}\" y=\"{corner.y}\" dy=\"-0.5ex\" text-anchor=\"start\"" ++
      " font-family=\"sans-serif\" font-size=\"" ++ fontSize size ++
      "\" opacity=\"1\" fill=\"#787878\">\n" ++ escaped text ++ "\n</text>\n"

def Document.render (d : Document) : String :=
  s!"<svg width=\"{d.width}\" height=\"{d.height}\" viewBox=\"0 0 {d.width} {d.height}\"" ++
    " xmlns=\"http://www.w3.org/2000/svg\">\n" ++ String.join (d.elements.map Element.render) ++
    "</svg>\n"

/-- The whole number nearest to a float, half-way cases away from zero, kept within 32 bits.  What
is not a number counts as zero. -/
def nearestInt (x : Float) : Int :=
  match Binary64.ofFloat x with
  | .nan => 0
  | .infinite negative => if negative then -(Nat.pow 2 31) else Nat.pow 2 31 - 1
  | .finite negative m e =>
    let n : Int := roundScaled .up m e
    if negative then max (-n) (-(Nat.pow 2 31)) else min n (Nat.pow 2 31 - 1)

/-- Moves a pixel outside the picture to its nearest border. -/
def Pixel.clip (width height : Nat) (p : Pixel) : Pixel :=
  ⟨max 0 (min p.x width), max 0 (min p.y height)⟩

end Svg

/-- The picture asked for is too large. -/
structure ScaleTooLarge where
  scale : Nat
  deriving DecidableEq, Repr

namespace ScaleTooLarge

/-- The largest factor by which a chart is enlarged. -/
def limit : Nat := 64

def message (e : ScaleTooLarge) : String :=
  s!"scale {e.scale} exceeds the maximum of {limit}"

end ScaleTooLarge

namespace ChartTarget

/-- The pixel of a point when the viewport is enlarged by `scale`. -/
def pixel (scale : Nat) (x y : Float) : Svg.Pixel :=
  let factor := Float.ofNat scale
  Svg.Pixel.clip (Viewport.width * scale) (Viewport.height * scale)
    ⟨Svg.nearestInt (x * factor), Svg.nearestInt (y * factor)⟩

def pixels (scale : Nat) (points : List Point) : List Svg.Pixel :=
  points.map fun p => pixel scale p.x p.y

/-- The picture of a target, enlarged by `scale`.  An area needs three points and a line two. -/
def picture (t : ChartTarget) (scale : Nat) : Svg.Document where
  width := Viewport.width * scale
  height := Viewport.height * scale
  elements :=
    .background (Viewport.width * scale) (Viewport.height * scale) ::
      ((if 3 ≤ t.area.length then [.polygon (pixels scale t.area)] else []) ++
        (if 2 ≤ t.line.length then [.polyline (2 * scale) (pixels scale t.line)] else []) ++
        t.axis.map fun l => .label (pixel scale l.x l.y) (10 * scale) l.text)

/-- The SVG document of a target.  A scale of zero counts as one. -/
def svg (t : ChartTarget) (scale : Nat) : Except ScaleTooLarge String :=
  if ScaleTooLarge.limit < scale then .error ⟨scale⟩
  else .ok (t.picture (max scale 1)).render

end ChartTarget

end Sparkboard
