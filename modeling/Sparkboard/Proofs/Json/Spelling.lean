import Sparkboard.Proofs.Json.Numbers
import Sparkboard.Proofs.Json.Strings
/-!
# JSON text

The grammar of JSON as a relation between texts and trees: `Spells text node` if the text, without
blanks in front, is a value with this tree.  Blanks may stand between all tokens, strings may be
escaped in any way, and numbers spelled in any way.  A text that spells a tree is read as this tree,
whatever stands behind it (`takeValue_spells`); only a number must not go on there.
-/

namespace Sparkboard

namespace Json

open Node (Quotes isBlank skipBlanks takeValue takeItems takeMembers)

/-- What stands in front of an item or a member: blanks, with a comma among them unless it is the
first. -/
inductive Lead : Bool → List Char → Prop where
  | first {b} (hb : Blanks b) : Lead true b
  | next {b b'} (hb : Blanks b) (hb' : Blanks b') : Lead false (b ++ ',' :: b')

mutual

/-- Does the text spell a value with this tree? -/
inductive Spells : List Char → Node → Prop where
  | null : Spells ['n', 'u', 'l', 'l'] .null
  | yes : Spells ['t', 'r', 'u', 'e'] (.bool true)
  | no : Spells ['f', 'a', 'l', 's', 'e'] (.bool false)
  | number {n : Numeral} (hn : n.Valid) : Spells n.chars n.node
  | string {text cs} (hq : Quotes text cs) :
    Spells ('"' :: (text ++ ['"'])) (.string (String.ofList cs))
  | array {text items} (hi : SpellsItems true text items) : Spells ('[' :: text) (.array items)
  | object {text members} (hm : SpellsMembers true text members) :
    Spells ('\x7b' :: text) (.object members)

/-- Does the text spell these items and the closing bracket?  All but the first follow a comma. -/
inductive SpellsItems : Bool → List Char → Items → Prop where
  | close {first b} (hb : Blanks b) : SpellsItems first (b ++ [']']) .close
  | item {first lead text node rest items} (hl : Lead first lead) (hv : Spells text node)
    (hr : SpellsItems false rest items) :
    SpellsItems first (lead ++ (text ++ rest)) (.item node items)

/-- Does the text spell these members and the closing brace?  All but the first follow a comma. -/
inductive SpellsMembers : Bool → List Char → Members → Prop where
  | close {first b} (hb : Blanks b) : SpellsMembers first (b ++ ['\x7d']) .close
  | member {first lead key name b b' text node rest members} (hl : Lead first lead)
    (hk : Quotes key name) (hb : Blanks b) (hb' : Blanks b') (hv : Spells text node)
    (hr : SpellsMembers false rest members) :
    SpellsMembers first (lead ++ '"' :: (key ++ '"' :: (b ++ ':' :: (b' ++ (text ++ rest)))))
      (.member (some (String.ofList name)) node members)

end

section

variable {text b : List Char} {node : Node} {items : Items} {members : Members} {s : List Glyph}
  {first : Bool}

/-! ## What stands in front -/

/-- The first glyph behind the value that a list holds is a blank, a comma or the closing bracket or
brace. -/
theorem halts_of_head {c : Char} (h : isBlank c = true ∨ c = ',' ∨ c = ']' ∨ c = '\x7d')
    (s : List Glyph) : Halts (.char c :: s) := by
  intro d hd
  cases hd
  simp only [isBlank, Bool.or_eq_true, decide_eq_true_eq] at h
  rcases h with (((h | h) | h) | h) | h | h | h <;> subst h <;> decide

theorem halts_blanks (hb : Blanks b) {c : Char} (hc : c = ',' ∨ c = ']' ∨ c = '\x7d')
    (s : List Glyph) : Halts (glyphs b ++ .char c :: s) := by
  cases b with
  | nil => exact halts_of_head (.inr hc) s
  | cons x b => exact halts_of_head (.inl (hb x (List.mem_cons_self ..))) _

theorem SpellsItems.halts (h : SpellsItems false text items) (s : List Glyph) :
    Halts (glyphs text ++ s) := by
  cases h with
  | close hb => simpa using halts_blanks hb (.inr (.inl rfl)) s
  | item hl =>
    cases hl with
    | next hb _ => simpa using halts_blanks hb (.inl rfl) _

theorem SpellsMembers.halts (h : SpellsMembers false text members) (s : List Glyph) :
    Halts (glyphs text ++ s) := by
  cases h with
  | close hb => simpa using halts_blanks hb (.inr (.inr rfl)) s
  | member hl =>
    cases hl with
    | next hb _ => simpa using halts_blanks hb (.inl rfl) _

/-- What a value can start with. -/
def Opens (c : Char) : Prop :=
  c ∈ ['n', 't', 'f', '-', '"', '[', '\x7b'] ∨ Decimal.isDigit c = true

theorem Spells.head (h : Spells text node) : ∃ c rest, text = c :: rest ∧ Opens c := by
  cases h with
  | null | yes | no | string | array | object => exact ⟨_, _, rfl, .inl (by decide)⟩
  | @number n hn =>
    obtain ⟨c, rest, hchars, hc⟩ := hn.unsignedChars_eq_cons
    unfold Numeral.chars
    split
    · exact ⟨_, _, rfl, .inl (by decide)⟩
    · exact ⟨c, rest, hchars, .inr hc⟩

theorem Opens.not_blank {c : Char} (h : Opens c) : isBlank c = false := by
  rw [← Bool.not_eq_true]
  intro hblank
  simp only [isBlank, Bool.or_eq_true, decide_eq_true_eq] at hblank
  rcases hblank with ((hc | hc) | hc) | hc <;> subst hc <;> exact absurd h (by simp [Opens]; decide)

theorem Opens.ne {c : Char} (h : Opens c) : c ≠ ',' ∧ c ≠ ']' ∧ c ≠ '\x7d' := by
  refine ⟨?_, ?_, ?_⟩ <;> (rintro rfl; exact absurd h (by simp [Opens]; decide))

end

/-! ## Reading

A value takes as much fuel as twice its text is long: a list of values takes one unit more than its
first value, and there are lists as deep as the text is long. -/

mutual

/-- A text that spells a value is read as the value. -/
theorem takeValue_spells {text : List Char} {node : Node} (h : Spells text node) {fuel : Nat}
    (hf : 2 * text.length ≤ fuel) {b : List Char} (hb : Blanks b) {s : List Glyph} (hs : Halts s) :
    takeValue fuel (glyphs b ++ (glyphs text ++ s)) = (node, s) := by
  obtain ⟨fuel, rfl⟩ : ∃ k, fuel = k + 1 := by
    obtain ⟨c, rest, rfl, -⟩ := h.head
    exact Nat.exists_eq_succ_of_ne_zero (by simp at hf; omega)
  cases h with
  | null | yes | no =>
    rw [takeValue, Node.skipBlanks_append hb]
    simp [skipBlanks, isBlank, Node.takeWord]
  | number hn => exact Node.takeValue_numeral hn hs hb fuel
  | @string text cs hq =>
    have hstring := hq.takeString (show text.length < fuel by simp at hf; omega) s
    rw [takeValue, Node.skipBlanks_append hb]
    simp [skipBlanks, isBlank, hstring, Decimal.isDigit]
  | @array text items hi =>
    have hitems := takeItems_spells hi (show 2 * text.length + 1 ≤ fuel by simp at hf; omega) s
    rw [takeValue, Node.skipBlanks_append hb]
    simp [skipBlanks, isBlank, hitems, Decimal.isDigit]
  | @object text members hm =>
    have hmembers := takeMembers_spells hm (show 2 * text.length + 1 ≤ fuel by simp at hf; omega) s
    rw [takeValue, Node.skipBlanks_append hb]
    simp [skipBlanks, isBlank, hmembers, Decimal.isDigit]

/-- A text that spells the items of an array is read as these. -/
theorem takeItems_spells {first : Bool} {text : List Char} {items : Items}
    (h : SpellsItems first text items) {fuel : Nat} (hf : 2 * text.length + 1 ≤ fuel)
    (s : List Glyph) : takeItems fuel first (glyphs text ++ s) = (items, s) := by
  obtain ⟨fuel, rfl⟩ := Nat.exists_eq_succ_of_ne_zero (show fuel ≠ 0 by omega)
  cases h with
  | @close _ b hb =>
    have hskip := Node.skipBlanks_append hb (.char ']' :: s)
    rw [takeItems]
    simp [hskip, skipBlanks, isBlank]
  | @item first lead text node rest items hl hv hr =>
    obtain ⟨c, tail, rfl, hc⟩ := hv.head
    simp only [List.length_append, List.length_cons] at hf
    have hrest := takeItems_spells hr (show 2 * rest.length + 1 ≤ fuel by omega) s
    have hvalue (b : List Char) (hb : Blanks b) :=
      takeValue_spells hv (show 2 * (c :: tail).length ≤ fuel by simp; omega) hb (hr.halts s)
    rw [takeItems]
    cases hl with
    | first hb =>
      have hvalue := hvalue [] blanks_nil
      rw [glyphs_nil, List.nil_append, glyphs_cons, List.cons_append] at hvalue
      simp [Node.skipBlanks_append hb, Node.skipBlanks_cons hc.not_blank, hvalue, hrest, hc.ne]
    | @next b b' hb hb' =>
      have hvalue := hvalue b' hb'
      rw [glyphs_cons, List.cons_append] at hvalue
      have hcomma : isBlank ',' = false := by decide
      simp [Node.skipBlanks_append hb, Node.skipBlanks_cons hcomma, hvalue, hrest]

/-- A text that spells the members of an object is read as these. -/
theorem takeMembers_spells {first : Bool} {text : List Char} {members : Members}
    (h : SpellsMembers first text members) {fuel : Nat} (hf : 2 * text.length + 1 ≤ fuel)
    (s : List Glyph) : takeMembers fuel first (glyphs text ++ s) = (members, s) := by
  obtain ⟨fuel, rfl⟩ := Nat.exists_eq_succ_of_ne_zero (show fuel ≠ 0 by omega)
  cases h with
  | @close _ b hb =>
    have hskip := Node.skipBlanks_append hb (.char '\x7d' :: s)
    rw [takeMembers]
    simp [hskip, skipBlanks, isBlank]
  | @member first lead key name b b' text node rest members hl hk hb hb' hv hr =>
    simp only [List.length_append, List.length_cons] at hf
    have hrest := takeMembers_spells hr (show 2 * rest.length + 1 ≤ fuel by omega) s
    have hvalue := takeValue_spells hv (show 2 * text.length ≤ fuel by omega) hb' (hr.halts s)
    have hname := hk.takeString (show key.length < fuel by omega)
      (glyphs b ++ .char ':' :: (glyphs b' ++ (glyphs text ++ (glyphs rest ++ s))))
    have hcolon (s : List Glyph) : skipBlanks (glyphs b ++ .char ':' :: s) = .char ':' :: s := by
      rw [Node.skipBlanks_append hb, Node.skipBlanks_cons (by decide)]
    have hquote : isBlank '"' = false := by decide
    rw [takeMembers]
    cases hl with
    | first hlead =>
      simp [Node.skipBlanks_append hlead, Node.skipBlanks_cons hquote, hname, hcolon, hvalue, hrest]
    | @next d d' hd hd' =>
      have hcomma : isBlank ',' = false := by decide
      simp [Node.skipBlanks_append hd, Node.skipBlanks_cons hcomma, Node.skipBlanks_append hd',
        Node.skipBlanks_cons hquote, hname, hcolon, hvalue, hrest]

end

end Json

end Sparkboard
