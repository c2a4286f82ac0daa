import Sparkboard.Json.Node
/-!
# Texts in front of glyphs

A text is read glyph by glyph.  Blanks in front of a token are dropped, digits are taken up to the
first other glyph.
-/

namespace Sparkboard

def glyphs (cs : List Char) : List Glyph := cs.map .char

@[simp]
theorem glyphs_nil : glyphs [] = [] := rfl

@[simp]
theorem glyphs_cons (c : Char) (cs : List Char) : glyphs (c :: cs) = .char c :: glyphs cs := rfl

@[simp]
theorem glyphs_append (xs ys : List Char) : glyphs (xs ++ ys) = glyphs xs ++ glyphs ys :=
  List.map_append

@[simp]
theorem length_glyphs (cs : List Char) : (glyphs cs).length = cs.length := List.length_map ..

namespace Json

/-- Are these blanks? -/
def Blanks (b : List Char) : Prop := ∀ c ∈ b, Node.isBlank c = true

theorem blanks_nil : Blanks [] := nofun

namespace Node

variable {b ds : List Char} {c : Char} {s : List Glyph}

theorem skipBlanks_append (h : Blanks b) (s : List Glyph) :
    skipBlanks (glyphs b ++ s) = skipBlanks s := by
  induction b with
  | nil => rfl
  | cons c b ih =>
    have hc : isBlank c = true := h c (List.mem_cons_self ..)
    simpa [skipBlanks, hc] using ih fun x hx => h x (List.mem_cons_of_mem c hx)

theorem skipBlanks_cons (h : isBlank c = false) (s : List Glyph) :
    skipBlanks (.char c :: s) = .char c :: s := by
  simp [skipBlanks, h]

/-- Does no digit stand in front? -/
def NoDigit (s : List Glyph) : Prop := ∀ c, s.head? = some (.char c) → Decimal.isDigit c = false

theorem takeDigits_of_noDigit (h : NoDigit s) : takeDigits s = ([], s) := by
  cases s with
  | nil => rfl
  | cons g s =>
    cases g with
    | char c => simp [takeDigits, h c rfl]
    | stray => rfl

theorem takeDigits_append (h : ∀ c ∈ ds, Decimal.isDigit c = true) (hs : NoDigit s) :
    takeDigits (glyphs ds ++ s) = (ds, s) := by
  induction ds with
  | nil => exact takeDigits_of_noDigit hs
  | cons c ds ih =>
    have hc : Decimal.isDigit c = true := h c (List.mem_cons_self ..)
    have hrest := ih fun x hx => h x (List.mem_cons_of_mem c hx)
    simp [takeDigits, hc, hrest]

end Node

end Json

end Sparkboard
