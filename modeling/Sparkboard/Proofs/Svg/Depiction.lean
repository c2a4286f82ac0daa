import Mathlib.Data.List.Forall2
import Sparkboard.Proofs.Svg.Pixels
import Sparkboard.Proofs.Svg.Written
/-!
# What a picture shows

A picture that is read back is one element `svg` with the background, the area, the line and the
labels inside it, from back to front (`Depicts`).  How many they are depends on the numbers of
points and labels alone.  So no text of a label can add an element or hide one: it is read as the
text of its own element (`svg_depicts`).
-/

namespace Sparkboard

namespace Markup.Node

def name? : Node → Option String
  | element name _ _ => some name
  | text _ => none

def attribute? (key : String) : Node → Option String
  | element _ attributes _ => attributes.lookup key
  | text _ => none

def elements : Node → List Node
  | element _ _ content => content.filter fun n => n.name?.isSome
  | text _ => []

def chars : Node → String
  | element _ _ content => String.join (content.map fun
    | element .. => ""
    | text s => s)
  | text s => s

end Markup.Node

namespace Svg

open Markup

/-! ## What is to be seen -/

/-- Is the coordinate drawn at this pixel? -/
def Unclipped (scale : Nat) (x : Float) (i : Int) : Prop := RoundsTo (x * Float.ofNat scale) i

/-- Is the coordinate drawn at this pixel, or at the border next to it in a picture of this extent?
-/
def Clipped (scale extent : Nat) (x : Float) (i : Int) : Prop :=
  ∃ j, RoundsTo (x * Float.ofNat scale) j ∧ i = max 0 (min j extent)

section

variable (place : Nat → Nat → Float → Int → Prop) (scale : Nat)

/-- Is the pixel in the place of the point? -/
structure DrawnAt (x y : Float) (pixel : Pixel) : Prop where
  x : place scale (240 * scale) x pixel.x
  y : place scale (130 * scale) y pixel.y

/-- Is this a rectangle as large as the picture? -/
structure IsBackground (n : Node) : Prop where
  name : n.name? = some "rect"
  x : n.attribute? "x" = some "0"
  y : n.attribute? "y" = some "0"
  width : n.attribute? "width" = some (toString (240 * scale))
  height : n.attribute? "height" = some (toString (130 * scale))
  elements : n.elements = []

/-- Is this an element of the given name through these points? -/
structure IsTrace (name : String) (points : List Point) (n : Node) : Prop where
  name : n.name? = some name
  points : ∃ pixels, List.Forall₂ (fun p => DrawnAt place scale p.x p.y) points pixels ∧
    n.attribute? "points" = some (pointList pixels)
  elements : n.elements = []

/-- Is this a text with the characters of the label, on a line of its own? -/
structure IsLabel (l : AxisLabel) (n : Node) : Prop where
  name : n.name? = some "text"
  corner : ∃ pixel, DrawnAt place scale l.x l.y pixel ∧
    n.attribute? "x" = some (toString pixel.x) ∧ n.attribute? "y" = some (toString pixel.y)
  chars : n.chars = "\n" ++ l.text ++ "\n"
  elements : n.elements = []

/-- One such node stands here if the condition holds, and else none. -/
def OneIff (condition : Prop) (spec : Node → Prop) (nodes : List Node) : Prop :=
  (condition ∧ ∃ n, spec n ∧ nodes = [n]) ∨ (¬condition ∧ nodes = [])

/-- Is this the picture of a target? -/
structure Depicts (t : ChartTarget) (root : Node) : Prop where
  name : root.name? = some "svg"
  width : root.attribute? "width" = some (toString (240 * scale))
  height : root.attribute? "height" = some (toString (130 * scale))
  elements : ∃ background area line labels,
    root.elements = background :: (area ++ (line ++ labels)) ∧
    IsBackground scale background ∧
    OneIff (3 ≤ t.area.length) (IsTrace place scale "polygon" t.area) area ∧
    OneIff (2 ≤ t.line.length) (IsTrace place scale "polyline" t.line) line ∧
    List.Forall₂ (IsLabel place scale) t.axis labels
  chars : ∀ c ∈ root.chars.toList, c = '\n'

end

variable {scale : Nat} {condition : Prop} [Decidable condition]

/-! ## Elements -/

theorem isBackground_node :
    IsBackground scale (Element.background (240 * scale) (130 * scale)).node where
  name := rfl
  x := rfl
  y := rfl
  width := rfl
  height := rfl
  elements := rfl

theorem drawnAt_pixel (x y : Float) :
    DrawnAt Clipped scale x y (ChartTarget.pixel scale x y) where
  x := ⟨_, roundsTo_iff.2 rfl, rfl⟩
  y := ⟨_, roundsTo_iff.2 rfl, rfl⟩

theorem drawnAt_pixels (points : List Point) :
    List.Forall₂ (fun p => DrawnAt Clipped scale p.x p.y) points
      (ChartTarget.pixels scale points) :=
  List.forall₂_map_right_iff.2 (List.forall₂_same.2 fun p _ => drawnAt_pixel p.x p.y)

/-- In an endless picture, every pixel is known. -/
theorem eq_map_of_unclipped {points : List Point} {pixels : List Pixel}
    (h : List.Forall₂ (fun p => DrawnAt (fun scale _ => Unclipped scale) scale p.x p.y) points
      pixels) :
    pixels = points.map fun p =>
      ⟨nearestInt (p.x * Float.ofNat scale), nearestInt (p.y * Float.ofNat scale)⟩ := by
  induction h with
  | nil => rfl
  | cons hp _ ih => rw [List.map_cons, ← ih, ← roundsTo_iff.1 hp.x, ← roundsTo_iff.1 hp.y]

theorem isTrace_polygon (points : List Point) :
    IsTrace Clipped scale "polygon" points
      (Element.polygon (ChartTarget.pixels scale points)).node where
  name := rfl
  points := ⟨_, drawnAt_pixels points, rfl⟩
  elements := rfl

theorem isTrace_polyline (stroke : Nat) (points : List Point) :
    IsTrace Clipped scale "polyline" points
      (Element.polyline stroke (ChartTarget.pixels scale points)).node where
  name := rfl
  points := ⟨_, drawnAt_pixels points, rfl⟩
  elements := rfl

theorem isLabel_node (size : Nat) (l : AxisLabel) :
    IsLabel Clipped scale l (Element.label (ChartTarget.pixel scale l.x l.y) size l.text).node where
  name := rfl
  corner := ⟨_, drawnAt_pixel l.x l.y, rfl, rfl⟩
  chars := by simp [Element.node, Node.chars, String.join]
  elements := rfl

theorem oneIff_ite {spec : Node → Prop} {e : Element} (h : spec e.node) :
    OneIff condition spec ((if condition then [e] else []).map Element.node) := by
  by_cases hc : condition
  · rw [if_pos hc]
    exact .inl ⟨hc, e.node, h, rfl⟩
  · rw [if_neg hc]
    exact .inr ⟨hc, rfl⟩

/-! ## Documents -/

theorem elements_node (d : Document) : d.node.elements = d.elements.map Element.node := by
  have hnodes (elements : List Element) :
      (elements.flatMap Element.nodes).filter (fun n => n.name?.isSome) =
        elements.map Element.node := by
    induction elements with
    | nil => rfl
    | cons e elements ih =>
      rw [List.flatMap_cons, List.filter_append, ih]
      rfl
  exact hnodes d.elements

theorem chars_node (d : Document) : ∀ c ∈ d.node.chars.toList, c = '\n' := by
  intro c hc
  unfold Document.node Node.chars at hc
  rw [String.toList_join, List.flatMap_map] at hc
  obtain ⟨n, hn, hc⟩ := List.mem_flatMap.1 hc
  have hkind : n = .text "\n" ∨ ∃ e : Element, n = e.node := by
    rcases List.mem_cons.1 hn with hn | hn
    · exact .inl hn
    · obtain ⟨e, -, hn⟩ := List.mem_flatMap.1 hn
      rcases List.mem_cons.1 hn with hn | hn
      · exact .inr ⟨e, hn⟩
      · exact .inl (List.mem_singleton.1 hn)
  rcases hkind with rfl | ⟨e, rfl⟩
  · exact List.mem_singleton.1 hc
  · exact absurd hc List.not_mem_nil

theorem depicts_picture (t : ChartTarget) (scale : Nat) :
    Depicts Clipped scale t (t.picture scale).node where
  name := rfl
  width := rfl
  height := rfl
  elements := by
    refine ⟨_, _, _, t.axis.map fun l =>
        (Element.label (ChartTarget.pixel scale l.x l.y) (10 * scale) l.text).node,
      ?_, isBackground_node, oneIff_ite (isTrace_polygon t.area),
      oneIff_ite (isTrace_polyline (2 * scale) t.line),
      List.forall₂_map_right_iff.2 (List.forall₂_same.2 fun l _ => isLabel_node _ l)⟩
    rw [elements_node, ChartTarget.picture, List.map_cons, List.map_append, List.map_append,
      List.map_map, List.append_assoc]
    rfl
  chars := chars_node _

/-- A picture is refused exactly if its scale is above 64, and a scale of zero counts as one.  Read
back, the text is the picture of the target and nothing else. -/
theorem svg_depicts (t : ChartTarget) (scale : Nat) :
    ((∃ e, t.svg scale = .error e) ↔ 64 < scale) ∧ t.svg 0 = t.svg 1 ∧
      (scale ≤ 64 → ∃ text root, t.svg scale = .ok text ∧
        Markup.read text = some [root, .text "\n"] ∧ Depicts Clipped (max scale 1) t root) := by
  refine ⟨?_, rfl, fun hscale => ?_⟩
  · unfold ChartTarget.svg
    split
    · next hlarge => exact ⟨fun _ => hlarge, fun _ => ⟨_, rfl⟩⟩
    · next hsmall =>
      refine iff_of_false ?_ hsmall
      rintro ⟨e, he⟩
      cases he
  · exact ⟨_, _, if_neg (Nat.not_lt.2 hscale), Document.read_render _, depicts_picture t _⟩

/-- A target with a point outside the picture and with markup in a label. -/
def unruly : ChartTarget where
  root := .fresh
  line := [⟨1000.0, 2.5⟩, ⟨0.0, 0.0⟩]
  area := []
  axis := [⟨0.0, 120.0, "</text><g a=\"&\">"⟩]

def unrulyText : String :=
  "<svg width=\"240\" height=\"130\" viewBox=\"0 0 240 130\"" ++
    " xmlns=\"http://www.w3.org/2000/svg\">\n" ++
  "<rect x=\"0\" y=\"0\" width=\"240\" height=\"130\" opacity=\"1\" fill=\"#FFFFFF\"" ++
    " stroke=\"none\"/>\n" ++
  "<polyline fill=\"none\" opacity=\"1\" stroke=\"#5BC894\" stroke-width=\"2\"" ++
    " points=\"240,3 0,0 \"/>\n" ++
  "<text x=\"0\" y=\"120\" dy=\"-0.5ex\" text-anchor=\"start\" font-family=\"sans-serif\"" ++
    " font-size=\"8.064516129032258\" opacity=\"1\" fill=\"#787878\">\n" ++
  "&lt;/text&gt;&lt;g a=&quot;&amp;&quot;&gt;\n</text>\n</svg>\n"

/-- The label is read as it was given, and it ends where it should. -/
theorem svg_depicts_unruly :
    ∃ root, Markup.read unrulyText = some [root, .text "\n"] ∧ Depicts Clipped 1 unruly root := by
  obtain ⟨-, -, hpicture⟩ := svg_depicts unruly 1
  obtain ⟨text, root, htext, hread, hdepicts⟩ := hpicture (by decide)
  have hsvg : unruly.svg 1 = .ok unrulyText := by decide +kernel
  obtain rfl : unrulyText = text := Except.ok.inj (hsvg.symm.trans htext)
  exact ⟨root, hread, hdepicts⟩

/-- The point outside is not where it would stand in an endless picture. -/
theorem not_svg_depicts_unclipped :
    (∀ p ∈ unruly.line, p.x.isFinite = true ∧ p.y.isFinite = true) ∧
      ¬∃ text root, unruly.svg 1 = .ok text ∧ Markup.read text = some [root, .text "\n"] ∧
        Depicts (fun scale _ => Unclipped scale) 1 unruly root := by
  refine ⟨by decide +kernel, ?_⟩
  rintro ⟨text, root, htext, hread, hdepicts⟩
  obtain rfl : (unruly.picture 1).render = text := Except.ok.inj htext
  rw [Document.read_render] at hread
  obtain rfl : (unruly.picture 1).node = root := (List.cons.inj (Option.some.inj hread)).1
  obtain ⟨background, area, line, labels, helements, -, harea, hline, -⟩ := hdepicts.elements
  obtain rfl : area = [] := harea.elim (fun h => absurd h.1 (by decide)) And.right
  obtain ⟨-, n, htrace, rfl⟩ := hline.resolve_right fun h => h.1 (by decide)
  have hn : (Element.polyline 2 [⟨240, 3⟩, ⟨0, 0⟩]).node = n := by
    have hpixels : ChartTarget.pixels 1 unruly.line = [⟨240, 3⟩, ⟨0, 0⟩] := by decide +kernel
    rw [elements_node] at helements
    have hsecond := (List.cons.inj (List.cons.inj helements).2).1
    rw [← hpixels]
    exact hsecond
  obtain ⟨pixels, hplaces, hpoints⟩ := htrace.points
  rw [← hn] at hpoints
  have hplaces : pixels = [⟨1000, 3⟩, ⟨0, 0⟩] :=
    (eq_map_of_unclipped hplaces).trans (by decide +kernel)
  rw [hplaces] at hpoints
  exact absurd hpoints (by decide)

end Svg

end Sparkboard
