import Mathlib.Data.List.Basic
import Sparkboard.Chart.Svg
/-!
# Markup read back

A reader of documents made of elements and text.  It cuts a document at every `<` and `>`, and takes
tags with attributes in double quotes and text in which the five reserved characters stand as
entities.  Comments, declarations and all else are refused, so that whatever is accepted has one
reading.  Pieces of a document that were written one after another are read as these pieces
(`pieces?_write`): no text that is escaped ends where it should not.
-/

namespace Sparkboard

namespace Markup

/-- What stands in a document: an element with its attributes and its content, or text. -/
inductive Node where
  | element (name : String) (attributes : List (String × String)) (content : List Node)
  | text (chars : String)

/-- A tag: the start of an element, its end, or an element without content. -/
inductive Tag where
  | opening (name : String) (attributes : List (String × String))
  | closing (name : String)
  | empty (name : String) (attributes : List (String × String))

/-- A tag with the text behind it, up to the next tag. -/
structure Piece where
  tag : Tag
  text : String

/-! ## Reading -/

/-- Replaces the entities by their characters.  An unknown one is refused. -/
def unescape : List Char → Option (List Char)
  | [] => some []
  | '&' :: 'l' :: 't' :: ';' :: cs => (unescape cs).map ('<' :: ·)
  | '&' :: 'g' :: 't' :: ';' :: cs => (unescape cs).map ('>' :: ·)
  | '&' :: 'a' :: 'm' :: 'p' :: ';' :: cs => (unescape cs).map ('&' :: ·)
  | '&' :: 'q' :: 'u' :: 'o' :: 't' :: ';' :: cs => (unescape cs).map ('"' :: ·)
  | '&' :: 'a' :: 'p' :: 'o' :: 's' :: ';' :: cs => (unescape cs).map ('\'' :: ·)
  | c :: cs => if c = '&' then none else (unescape cs).map (c :: ·)

/-- Can the character stand in a name? -/
def isNameChar (c : Char) : Bool := c.isAlphanum || c = '-'

/-- Is this a name?  It starts with a letter. -/
def isName (cs : List Char) : Bool := cs.head?.any Char.isAlpha && cs.all isNameChar

/-- The name of an attribute, from the blank in front of it to the sign behind it. -/
def key? : List Char → Option (List Char)
  | ' ' :: cs => if cs.getLast? = some '=' ∧ isName cs.dropLast then some cs.dropLast else none
  | _ => none

def attributes? : List (List Char) → Option (List (String × String))
  | [[]] => some []
  | key :: value :: rest => do
    let key ← key? key
    let value ← unescape value
    let others ← attributes? rest
    return (String.ofList key, String.ofList value) :: others
  | _ => none

/-- The name and the attributes of a start tag.  No attribute is given twice. -/
def start? (cs : List Char) : Option (String × List (String × String)) :=
  let name := cs.takeWhile (· ≠ ' ')
  if isName name then do
    let attributes ← attributes? ((cs.dropWhile (· ≠ ' ')).splitOn '"')
    if (attributes.map Prod.fst).Nodup then some (String.ofList name, attributes) else none
  else none

/-- A tag, without its angle brackets. -/
def tag? : List Char → Option Tag
  | '/' :: name => if isName name then some (.closing (String.ofList name)) else none
  | cs =>
    if cs.getLast? = some '/' then (start? cs.dropLast).map fun t => .empty t.1 t.2
    else (start? cs).map fun t => .opening t.1 t.2

/-- A tag and the text behind it, without the bracket in front. -/
def piece? (cs : List Char) : Option Piece :=
  match cs.splitOn '>' with
  | [tag, text] => do return ⟨← tag? tag, String.ofList (← unescape text)⟩
  | _ => none

/-- The pieces of a document, which starts with a tag. -/
def pieces? (cs : List Char) : Option (List Piece) :=
  match cs.splitOn '<' with
  | [] :: rest => rest.mapM piece?
  | _ => none

/-- An element that has no end yet. -/
structure Frame where
  name : String
  attributes : List (String × String)
  content : List Node

namespace Frame

/-- The element, if it ends here. -/
def node (f : Frame) : Node := .element f.name f.attributes f.content

def add (f : Frame) (nodes : List Node) : Frame := { f with content := f.content ++ nodes }

variable (f : Frame) (nodes : List Node)

@[simp]
theorem name_add : (f.add nodes).name = f.name := rfl

@[simp]
theorem add_nil : f.add [] = f := by
  unfold add
  rw [List.append_nil]

@[simp]
theorem add_add (others : List Node) : (f.add nodes).add others = f.add (nodes ++ others) := by
  unfold add
  rw [List.append_assoc]

end Frame

/-- Text in the content of an element; no text is no node. -/
def textNodes (s : String) : List Node := if s = "" then [] else [.text s]

/-- What stands in a document with these pieces, inside `top`, which stands inside the others.  At
its end only the document itself may be open. -/
def assemble : Frame → List Frame → List Piece → Option (List Node)
  | top, [], [] => some top.content
  | _, _ :: _, [] => none
  | top, outer, ⟨.opening name attributes, text⟩ :: rest =>
    assemble ⟨name, attributes, textNodes text⟩ (top :: outer) rest
  | top, outer, ⟨.empty name attributes, text⟩ :: rest =>
    assemble (top.add (.element name attributes [] :: textNodes text)) outer rest
  | top, above :: outer, ⟨.closing name, text⟩ :: rest =>
    if name = top.name then assemble (above.add (top.node :: textNodes text)) outer rest else none
  | _, [], ⟨.closing _, _⟩ :: _ => none

def read (s : String) : Option (List Node) :=
  (pieces? s.toList).bind (assemble ⟨"", [], []⟩ [])

/-! ## Writing -/

/-- Attributes, each behind a blank. -/
def writeAttributes (attributes : List (String × String)) : List Char :=
  attributes.flatMap fun a => ' ' :: (a.1.toList ++ '=' :: '"' :: (a.2.toList ++ ['"']))

def Tag.write : Tag → List Char
  | opening name attributes => name.toList ++ writeAttributes attributes
  | closing name => '/' :: name.toList
  | empty name attributes => name.toList ++ writeAttributes attributes ++ ['/']

/-- A tag and the text behind it, without the bracket in front. -/
def Piece.body (p : Piece) : List Char :=
  p.tag.write ++ '>' :: p.text.toList.flatMap Svg.escape

def Piece.write (p : Piece) : List Char := '<' :: p.body

/-- Can the character stand for itself in the value of an attribute? -/
def isPlain (c : Char) : Bool := c ≠ '<' && c ≠ '>' && c ≠ '&' && c ≠ '"'

/-- Can the text stand for itself? -/
def IsPlain (s : String) : Prop := ∀ c ∈ s.toList, isPlain c = true

instance (s : String) : Decidable (IsPlain s) :=
  decidable_of_iff (s.toList.all isPlain = true) List.all_eq_true

/-- Is this the start of an element, with values that need no escape? -/
structure IsStart (name : String) (attributes : List (String × String)) : Prop where
  name : isName name.toList = true
  keys : ∀ key ∈ attributes.map Prod.fst, isName key.toList = true
  nodup : (attributes.map Prod.fst).Nodup
  values : ∀ value ∈ attributes.map Prod.snd, IsPlain value

def Tag.Valid : Tag → Prop
  | opening name attributes => IsStart name attributes
  | closing name => isName name.toList = true
  | empty name attributes => IsStart name attributes

variable {name : String} {attributes : List (String × String)} {cs rest : List Char} {p : Piece}

/-! ## Text -/

/-- The characters that are written as entities. -/
def reserved : List Char := ['<', '>', '&', '"', '\'']

theorem escape_of_not_reserved {c : Char} (h : c ∉ reserved) : Svg.escape c = [c] := by
  simp only [reserved, List.mem_cons, List.not_mem_nil, or_false, not_or] at h
  unfold Svg.escape
  rw [if_neg h.1, if_neg h.2.1, if_neg h.2.2.1, if_neg h.2.2.2.1, if_neg h.2.2.2.2]

/-- A character that starts no entity stands for itself. -/
theorem unescape_cons {c : Char} (h : c ≠ '&') (cs : List Char) :
    unescape (c :: cs) = (unescape cs).map (c :: ·) := by
  conv_lhs => unfold unescape
  split <;> simp_all

theorem unescape_escape (c : Char) (cs : List Char) :
    unescape (Svg.escape c ++ cs) = (unescape cs).map (c :: ·) := by
  by_cases hc : c ∈ reserved
  · simp only [reserved, List.mem_cons, List.not_mem_nil, or_false] at hc
    rcases hc with rfl | rfl | rfl | rfl | rfl <;> rfl
  · have hamp : c ≠ '&' := by
      rintro rfl
      exact hc (by decide)
    rw [escape_of_not_reserved hc]
    exact unescape_cons hamp cs

/-- An escaped text is read as the text. -/
theorem unescape_flatMap_escape (cs : List Char) : unescape (cs.flatMap Svg.escape) = some cs := by
  induction cs with
  | nil => rfl
  | cons c cs ih => rw [List.flatMap_cons, unescape_escape, ih, Option.map_some]

/-- Nor does a text without reserved characters change. -/
theorem unescape_plain (h : ∀ c ∈ cs, isPlain c = true) : unescape cs = some cs := by
  induction cs with
  | nil => rfl
  | cons c cs ih =>
    obtain ⟨hc, hcs⟩ := List.forall_mem_cons.1 h
    have hamp : c ≠ '&' := by
      rintro rfl
      cases hc
    rw [unescape_cons hamp, ih hcs, Option.map_some]

/-- No bracket stands in an escaped text. -/
theorem not_mem_escape {d : Char} (hd : d = '<' ∨ d = '>') (cs : List Char) :
    d ∉ cs.flatMap Svg.escape := by
  have hentities : ∀ c ∈ reserved, '<' ∉ Svg.escape c ∧ '>' ∉ Svg.escape c := by
    intro c hc
    simp only [reserved, List.mem_cons, List.not_mem_nil, or_false] at hc
    rcases hc with rfl | rfl | rfl | rfl | rfl <;> decide
  intro hmem
  obtain ⟨c, -, hc⟩ := List.mem_flatMap.1 hmem
  by_cases hreserved : c ∈ reserved
  · obtain ⟨hopen, hclose⟩ := hentities c hreserved
    rcases hd with rfl | rfl
    · exact hopen hc
    · exact hclose hc
  · rw [escape_of_not_reserved hreserved, List.mem_singleton] at hc
    rcases hd with rfl | rfl <;> exact hreserved (hc ▸ by decide)

/-! ## Names and attributes -/

/-- A name has none of the characters that end one. -/
theorem not_mem_name {d : Char} (hd : isNameChar d = false) (h : isName cs = true) : d ∉ cs := by
  intro hmem
  unfold isName at h
  rw [Bool.and_eq_true, List.all_eq_true] at h
  exact Bool.false_ne_true (hd.symm.trans (h.2 d hmem))

theorem name_ne_nil (h : isName cs = true) : cs ≠ [] := by
  rintro rfl
  cases h

theorem key?_write (h : isName cs = true) : key? (' ' :: (cs ++ ['='])) = some cs := by
  unfold key?
  simp [h]

theorem writeAttributes_nil : writeAttributes [] = [] := rfl

theorem writeAttributes_cons (a : String × String) (attributes : List (String × String)) :
    writeAttributes (a :: attributes) =
      ' ' :: (a.1.toList ++ '=' :: '"' :: (a.2.toList ++ '"' :: writeAttributes attributes)) := by
  simp [writeAttributes]

theorem attributes?_write (hkeys : ∀ key ∈ attributes.map Prod.fst, isName key.toList = true)
    (hvalues : ∀ value ∈ attributes.map Prod.snd, IsPlain value) :
    attributes? ((writeAttributes attributes).splitOn '"') = some attributes := by
  induction attributes with
  | nil => rfl
  | cons a attributes ih =>
    obtain ⟨hkey, hkeys⟩ := List.forall_mem_cons.1 hkeys
    obtain ⟨hvalue, hvalues⟩ := List.forall_mem_cons.1 hvalues
    have hquote : '"' ∉ ' ' :: (a.1.toList ++ ['=']) := by
      have hname := not_mem_name (d := '"') (by decide) hkey
      simp [hname]
    have hquote' : '"' ∉ a.2.toList := fun hmem => by
      cases hvalue _ hmem
    have hwrite : writeAttributes (a :: attributes) = (' ' :: (a.1.toList ++ ['='])) ++
        '"' :: (a.2.toList ++ '"' :: writeAttributes attributes) := by
      simp [writeAttributes_cons]
    rw [hwrite, List.splitOn_append_cons_self_of_not_mem hquote,
      List.splitOn_append_cons_self_of_not_mem hquote', attributes?, key?_write hkey,
      unescape_plain hvalue, ih hkeys hvalues]
    simp

theorem start?_write (h : IsStart name attributes) :
    start? (name.toList ++ writeAttributes attributes) = some (name, attributes) := by
  have hblank : ∀ c ∈ name.toList, (decide (c ≠ ' ')) = true := fun c hc => by
    rw [decide_eq_true_eq]
    rintro rfl
    exact not_mem_name (by decide) h.name hc
  have htake : (writeAttributes attributes).takeWhile (· ≠ ' ') = [] := by
    cases attributes with
    | nil => rfl
    | cons a attributes => rfl
  have hdrop : (writeAttributes attributes).dropWhile (· ≠ ' ') = writeAttributes attributes := by
    cases attributes with
    | nil => rfl
    | cons a attributes => rfl
  unfold start?
  rw [List.takeWhile_append_of_pos hblank, List.dropWhile_append_of_pos hblank, htake, hdrop,
    List.append_nil, attributes?_write h.keys h.values]
  dsimp only
  rw [if_pos h.name, Option.bind_eq_bind, Option.bind_some, if_pos h.nodup, String.ofList_toList]

/-! ## Tags -/

theorem mem_writeAttributes {d : Char} (hd : d ∈ writeAttributes attributes) :
    d ∈ [' ', '=', '"'] ∨ ∃ a ∈ attributes, d ∈ a.1.toList ∨ d ∈ a.2.toList := by
  obtain ⟨a, ha, hd⟩ := List.mem_flatMap.1 hd
  simp only [List.mem_cons, List.mem_append, List.not_mem_nil, or_false] at hd ⊢
  rcases hd with hd | hd | hd | hd | hd | hd
  · exact .inl (.inl hd)
  · exact .inr ⟨a, ha, .inl hd⟩
  · exact .inl (.inr (.inl hd))
  · exact .inl (.inr (.inr hd))
  · exact .inr ⟨a, ha, .inr hd⟩
  · exact .inl (.inr (.inr hd))

/-- Neither bracket stands in a start tag. -/
theorem IsStart.not_mem {d : Char} (h : IsStart name attributes) (hd : d = '<' ∨ d = '>') :
    d ∉ name.toList ++ writeAttributes attributes := by
  have hchar : isNameChar d = false ∧ isPlain d = false ∧ d ∉ [' ', '=', '"'] := by
    rcases hd with rfl | rfl <;> decide
  obtain ⟨hname, hplain, hmarks⟩ := hchar
  intro hmem
  rcases List.mem_append.1 hmem with hmem | hmem
  · exact not_mem_name hname h.name hmem
  · rcases mem_writeAttributes hmem with hmark | ⟨a, ha, hkey | hvalue⟩
    · exact hmarks hmark
    · exact not_mem_name hname (h.keys a.1 (List.mem_map_of_mem ha)) hkey
    · exact Bool.false_ne_true (hplain.symm.trans (h.values a.2 (List.mem_map_of_mem ha) d hvalue))

theorem IsStart.head_ne (h : IsStart name attributes) :
    (name.toList ++ writeAttributes attributes).head? ≠ some '/' := by
  have hslash : '/' ∉ name.toList := not_mem_name (by decide) h.name
  obtain ⟨c, cs, hname⟩ := List.exists_cons_of_ne_nil (name_ne_nil h.name)
  rw [hname] at hslash ⊢
  intro hhead
  exact hslash (Option.some.inj hhead ▸ List.mem_cons_self)

/-- A start tag ends in its name or in a quote. -/
theorem IsStart.getLast_ne (h : IsStart name attributes) :
    (name.toList ++ writeAttributes attributes).getLast? ≠ some '/' := by
  have hslash : '/' ∉ name.toList := not_mem_name (by decide) h.name
  intro hlast
  rcases List.eq_nil_or_concat attributes with rfl | ⟨others, a, rfl⟩
  · rw [writeAttributes, List.flatMap_nil, List.append_nil] at hlast
    exact hslash (List.mem_of_getLast? hlast)
  · have hquote : name.toList ++ writeAttributes (others.concat a) = (name.toList ++
        (writeAttributes others ++ ' ' :: (a.1.toList ++ '=' :: '"' :: a.2.toList))) ++ ['"'] := by
      simp [writeAttributes]
    rw [hquote, List.getLast?_concat] at hlast
    cases hlast

/-- A tag that does not start with a slash starts an element. -/
theorem tag?_of_head (h : cs.head? ≠ some '/') :
    tag? cs = if cs.getLast? = some '/' then (start? cs.dropLast).map fun t => .empty t.1 t.2
      else (start? cs).map fun t => .opening t.1 t.2 := by
  unfold tag?
  split
  · exact absurd rfl h
  · rfl

theorem tag?_write {t : Tag} (h : t.Valid) : tag? t.write = some t := by
  cases t with
  | opening name attributes =>
    have hstart : IsStart name attributes := h
    rw [Tag.write, tag?_of_head hstart.head_ne, if_neg hstart.getLast_ne, start?_write hstart]
    rfl
  | closing name =>
    have hname : isName name.toList = true := h
    rw [Tag.write, tag?, if_pos hname, String.ofList_toList]
  | empty name attributes =>
    have hstart : IsStart name attributes := h
    have hhead : (name.toList ++ writeAttributes attributes ++ ['/']).head? ≠ some '/' := by
      obtain ⟨c, cs, hname⟩ := List.exists_cons_of_ne_nil (name_ne_nil hstart.name)
      have hne := hstart.head_ne
      rw [hname] at hne ⊢
      exact hne
    rw [Tag.write, tag?_of_head hhead, if_pos (by simp), List.dropLast_concat, start?_write hstart]
    rfl

theorem Tag.Valid.not_mem {d : Char} {t : Tag} (h : t.Valid) (hd : d = '<' ∨ d = '>') :
    d ∉ t.write := by
  have hchar : isNameChar d = false ∧ d ≠ '/' := by
    rcases hd with rfl | rfl <;> decide
  cases t with
  | opening name attributes => exact IsStart.not_mem h hd
  | closing name =>
    have hname := not_mem_name hchar.1 h
    simp [Tag.write, hchar.2, hname]
  | empty name attributes =>
    have hstart := IsStart.not_mem h hd
    rw [Tag.write, List.mem_append, List.mem_singleton, not_or]
    exact ⟨hstart, hchar.2⟩

/-! ## Pieces -/

theorem piece?_body (h : p.tag.Valid) : piece? p.body = some p := by
  unfold piece? Piece.body
  rw [List.splitOn_append_cons_self_of_not_mem (h.not_mem (.inr rfl)),
    List.splitOn_eq_singleton (not_mem_escape (.inr rfl) _)]
  simp [tag?_write h, unescape_flatMap_escape]

/-- Cut at its brackets, a document falls into its pieces. -/
theorem splitOn_write {ps : List Piece} (h : ∀ p ∈ ps, p.tag.Valid) (hcs : '<' ∉ cs) :
    (cs ++ ps.flatMap Piece.write).splitOn '<' = cs :: ps.map Piece.body := by
  induction ps generalizing cs with
  | nil => simpa using List.splitOn_eq_singleton hcs
  | cons p ps ih =>
    obtain ⟨hp, hps⟩ := List.forall_mem_cons.1 h
    have hbody : '<' ∉ p.body := by
      simp [Piece.body, hp.not_mem (.inl rfl), not_mem_escape (.inl rfl)]
    rw [List.flatMap_cons, Piece.write, List.cons_append,
      List.splitOn_append_cons_self_of_not_mem hcs, ih hps hbody]
    rfl

/-- **Pieces that are written one after another are read as these pieces.** -/
theorem pieces?_write {ps : List Piece} (h : ∀ p ∈ ps, p.tag.Valid) :
    pieces? (ps.flatMap Piece.write) = some ps := by
  have hsplit : (ps.flatMap Piece.write).splitOn '<' = [] :: ps.map Piece.body :=
    splitOn_write h List.not_mem_nil
  have hread : (ps.map Piece.body).mapM piece? = some ps := by
    clear hsplit
    induction ps with
    | nil => rfl
    | cons p ps ih =>
      obtain ⟨hp, hps⟩ := List.forall_mem_cons.1 h
      rw [List.map_cons, List.mapM_cons, piece?_body hp, ih hps]
      rfl
  unfold pieces?
  rw [hsplit]
  exact hread

end Markup

end Sparkboard
