import Sparkboard.Proofs.Decimal.Written
import Sparkboard.Proofs.Svg.Markup
/-!
# Documents read back

A document is written in pieces: a tag for each end of an element, with a line break or a label
behind it.  So it is read as one element with the elements of the picture inside it, in their order
(`read_render`).  The values of all attributes are words, numbers and lists of pixels, which need no
escape; only labels are arbitrary, and they are escaped.
-/

namespace Sparkboard

namespace Svg

open Markup

variable {c : Char} {s t : String}

/-! ## Values -/

theorem isPlain_append (hs : IsPlain s) (ht : IsPlain t) : IsPlain (s ++ t) := by
  intro c hc
  rw [String.toList_append] at hc
  exact (List.mem_append.1 hc).elim (hs c) (ht c)

theorem isPlain_of_isDigit (h : Decimal.isDigit c = true) : isPlain c = true := by
  have hne (d : Char) (hd : Decimal.isDigit d = false) : c ≠ d := by
    rintro rfl
    exact Bool.false_ne_true (hd.symm.trans h)
  unfold isPlain
  simp [hne '<' rfl, hne '>' rfl, hne '&' rfl, hne '"' rfl]

theorem isPlain_numeral {n : Numeral} (h : n.Valid) (hc : c ∈ n.chars) : isPlain c = true := by
  rcases h.mem_chars hc with hdigit | hsign
  · exact isPlain_of_isDigit hdigit
  · exact List.all_eq_true.1 (by decide : ['-', '+', '.', 'e', 'E'].all isPlain = true) c hsign

theorem isPlain_natural (n : Nat) : IsPlain (toString n) := by
  intro c hc
  rw [Nat.toString_eq_repr, Nat.toList_repr] at hc
  exact isPlain_of_isDigit ((Decimal.isDigits_digits n).all c hc)

theorem isPlain_integer (n : Int) : IsPlain (toString n) := by
  cases n with
  | ofNat n => exact isPlain_natural n
  | negSucc n => exact isPlain_append (s := "-") (by decide) (isPlain_natural (n + 1))

theorem isPlain_pointList (points : List Pixel) : IsPlain (pointList points) := by
  have hpixel (p : Pixel) : IsPlain p.text :=
    isPlain_append (isPlain_append (isPlain_append (isPlain_integer p.x) (t := ",") (by decide))
      (isPlain_integer p.y)) (t := " ") (by decide)
  intro c hc
  unfold pointList at hc
  rw [String.toList_join, List.flatMap_map] at hc
  obtain ⟨p, -, hc⟩ := List.mem_flatMap.1 hc
  exact hpixel p c hc

theorem isPlain_signed {cs : List Char} (h : cs.all isPlain = true) (negative : Bool) :
    IsPlain (String.ofList (Decimal.signed negative cs)) := by
  intro c hc
  rw [String.toList_ofList] at hc
  cases negative with
  | true =>
    rcases List.mem_cons.1 hc with rfl | hc
    · rfl
    · exact List.all_eq_true.1 h c hc
  | false => exact List.all_eq_true.1 h c hc

/-- A float in a message is a word or a zero, or else all of a numeral but perhaps its end. -/
theorem isPlain_message (x : Float) : IsPlain (Decimal.message x) := by
  unfold Decimal.message
  split
  · decide
  · exact isPlain_signed (by decide) _
  · exact isPlain_signed (by decide) _
  · next m e hm _ =>
    have hdigits : (Decimal.shortest .up m e).digits ≠ 0 := Decimal.shortest_digits_ne_zero hm
    refine isPlain_signed (List.all_eq_true.2 fun c hc => ?_) _
    refine isPlain_numeral (Numeral.valid_positional false hdigits) ?_
    rw [Numeral.chars_positional, Decimal.signed, if_neg Bool.false_ne_true]
    split
    · exact List.mem_append_left _ hc
    · exact hc

/-! ## Elements -/

theorem flatMap_escape_break : "\n".toList.flatMap escape = ['\n'] := rfl

theorem write_break (tag : Tag) : Piece.write ⟨tag, "\n"⟩ = '<' :: (tag.write ++ ['>', '\n']) := by
  rw [Piece.write, Piece.body, flatMap_escape_break]

theorem write_lines (tag : Tag) (text : String) :
    Piece.write ⟨tag, "\n" ++ text ++ "\n"⟩ =
      '<' :: (tag.write ++ '>' :: '\n' :: ((escaped text).toList ++ ['\n'])) := by
  rw [Piece.write, Piece.body, String.toList_append, String.toList_append, List.flatMap_append,
    List.flatMap_append, flatMap_escape_break, escaped, String.toList_ofList]
  rfl

namespace Element

variable (e : Element)

def name : Element → String
  | background .. => "rect"
  | polygon _ => "polygon"
  | polyline .. => "polyline"
  | label .. => "text"

def attributes : Element → List (String × String)
  | background w h => [("x", "0"), ("y", "0"), ("width", toString w), ("height", toString h),
      ("opacity", "1"), ("fill", "#FFFFFF"), ("stroke", "none")]
  | polygon outline => [("opacity", "0.25"), ("fill", "#5BC894"), ("points", pointList outline)]
  | polyline stroke points => [("fill", "none"), ("opacity", "1"), ("stroke", "#5BC894"),
      ("stroke-width", toString stroke), ("points", pointList points)]
  | label corner size _ => [("x", toString corner.x), ("y", toString corner.y), ("dy", "-0.5ex"),
      ("text-anchor", "start"), ("font-family", "sans-serif"), ("font-size", fontSize size),
      ("opacity", "1"), ("fill", "#787878")]

def pieces : List Piece :=
  match e with
  | label _ _ text =>
    [⟨.opening e.name e.attributes, "\n" ++ text ++ "\n"⟩, ⟨.closing e.name, "\n"⟩]
  | _ => [⟨.empty e.name e.attributes, "\n"⟩]

def node : Node :=
  .element e.name e.attributes
    (match e with
      | label _ _ text => [.text ("\n" ++ text ++ "\n")]
      | _ => [])

theorem isStart : IsStart e.name e.attributes where
  name := by cases e <;> simp only [name] <;> decide
  keys := by cases e <;> simp only [attributes, List.map_cons, List.map_nil] <;> decide
  nodup := by cases e <;> simp only [attributes, List.map_cons, List.map_nil] <;> decide
  values := by
    cases e <;> simp +decide only [attributes, fontSize, List.map_cons, List.map_nil,
      List.forall_mem_cons, isPlain_natural, isPlain_integer, isPlain_pointList, isPlain_message]

theorem valid_pieces : ∀ p ∈ e.pieces, p.tag.Valid := by
  have hstart := e.isStart
  cases e with
  | label corner size text =>
    exact List.forall_mem_cons.2 ⟨hstart, List.forall_mem_singleton.2 hstart.name⟩
  | background w h => exact List.forall_mem_singleton.2 hstart
  | polygon outline => exact List.forall_mem_singleton.2 hstart
  | polyline stroke points => exact List.forall_mem_singleton.2 hstart

theorem toList_render : e.render.toList = e.pieces.flatMap Piece.write := by
  unfold render pieces
  cases e
  all_goals simp only [String.toList_append, List.flatMap_cons, List.flatMap_nil, write_break,
    write_lines, Tag.write, name, attributes, writeAttributes_cons, writeAttributes_nil,
    List.append_assoc, List.cons_append, List.nil_append]
  -- Both sides now spell the same characters around the values, which need not be known.
  case background w h =>
    generalize (toString w).toList = w
    generalize (toString h).toList = h
    rfl
  case polygon outline =>
    generalize (pointList outline).toList = outline
    rfl
  case polyline stroke points =>
    generalize (toString stroke).toList = stroke
    generalize (pointList points).toList = points
    rfl
  case label corner size text =>
    generalize (toString corner.x).toList = x
    generalize (toString corner.y).toList = y
    generalize (fontSize size).toList = size
    generalize (escaped text).toList = text
    rfl

/-- What is read of an element: the element and the line break behind it. -/
def nodes : List Node := [e.node, .text "\n"]

theorem textNodes_lines (text : String) :
    textNodes ("\n" ++ text ++ "\n") = [.text ("\n" ++ text ++ "\n")] := by
  unfold textNodes
  rw [if_neg]
  simp [← String.toList_inj]

/-- The pieces of an element add its nodes to what is open. -/
theorem assemble_pieces (top : Frame) (outer : List Frame) (rest : List Piece) :
    assemble top outer (e.pieces ++ rest) = assemble (top.add e.nodes) outer rest := by
  have hempty (name : String) (attributes : List (String × String)) :
      assemble top outer ([⟨.empty name attributes, "\n"⟩] ++ rest) =
        assemble (top.add [.element name attributes [], .text "\n"]) outer rest := by
    rw [List.singleton_append, assemble]
    rfl
  cases e with
  | label corner size text =>
    rw [pieces, List.cons_append, List.singleton_append, assemble, assemble, if_pos rfl,
      textNodes_lines]
    rfl
  | background w h => exact hempty _ _
  | polygon outline => exact hempty _ _
  | polyline stroke points => exact hempty _ _

end Element

theorem assemble_flatMap (elements : List Element) (top : Frame) (outer : List Frame)
    (rest : List Piece) :
    assemble top outer (elements.flatMap Element.pieces ++ rest) =
      assemble (top.add (elements.flatMap Element.nodes)) outer rest := by
  induction elements generalizing top with
  | nil => rw [List.flatMap_nil, List.nil_append, List.flatMap_nil, Frame.add_nil]
  | cons e elements ih =>
    rw [List.flatMap_cons, List.append_assoc, e.assemble_pieces, ih, Frame.add_add,
      List.flatMap_cons]

/-! ## Documents -/

namespace Document

variable (d : Document)

def attributes : List (String × String) :=
  [("width", toString d.width), ("height", toString d.height),
    ("viewBox", s!"0 0 {d.width} {d.height}"), ("xmlns", "http://www.w3.org/2000/svg")]

def pieces : List Piece :=
  ⟨.opening "svg" d.attributes, "\n"⟩ ::
    (d.elements.flatMap Element.pieces ++ [⟨.closing "svg", "\n"⟩])

def node : Node :=
  .element "svg" d.attributes (.text "\n" :: d.elements.flatMap Element.nodes)

theorem isStart : IsStart "svg" d.attributes where
  name := by decide
  keys := by simp only [attributes, List.map_cons, List.map_nil]; decide
  nodup := by simp only [attributes, List.map_cons, List.map_nil]; decide
  values := by
    have hviewBox : IsPlain s!"0 0 {d.width} {d.height}" :=
      isPlain_append (isPlain_append (isPlain_append (s := "0 0 ") (by decide)
        (isPlain_natural d.width)) (t := " ") (by decide)) (isPlain_natural d.height)
    simp +decide only [attributes, List.map_cons, List.map_nil, List.forall_mem_cons,
      isPlain_natural, hviewBox]

theorem valid_pieces : ∀ p ∈ d.pieces, p.tag.Valid := by
  refine List.forall_mem_cons.2 ⟨d.isStart, fun p hp => ?_⟩
  rcases List.mem_append.1 hp with hp | hp
  · obtain ⟨e, -, hp⟩ := List.mem_flatMap.1 hp
    exact e.valid_pieces p hp
  · rw [List.mem_singleton.1 hp]
    exact d.isStart.name

theorem toList_render : d.render.toList = d.pieces.flatMap Piece.write := by
  have helements : (String.join (d.elements.map Element.render)).toList =
      (d.elements.flatMap Element.pieces).flatMap Piece.write := by
    rw [String.toList_join, List.flatMap_map, List.flatMap_assoc]
    congr 1
    funext e
    exact e.toList_render
  unfold render pieces
  simp only [String.toList_append, List.flatMap_cons, List.flatMap_append, List.flatMap_nil,
    write_break, Tag.write, attributes, writeAttributes_cons, writeAttributes_nil,
    List.append_assoc, List.cons_append, List.nil_append, helements]
  generalize (toString d.width).toList = w
  generalize (toString d.height).toList = h
  rfl

/-- **A document is read as its elements.** -/
theorem read_render : Markup.read d.render = some [d.node, .text "\n"] := by
  unfold Markup.read
  rw [d.toList_render, pieces?_write d.valid_pieces, Option.bind_some, pieces, assemble,
    assemble_flatMap, assemble, Frame.name_add, if_pos rfl, assemble]
  rfl

end Document

end Svg

end Sparkboard
