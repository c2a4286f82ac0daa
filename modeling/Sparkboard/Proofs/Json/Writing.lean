import Sparkboard.Json.Reader
import Sparkboard.Json.Value
import Sparkboard.Proofs.Decimal.Written
import Sparkboard.Proofs.Json.Spelling
/-!
# Writing JSON text

Both texts of a value, the compact and the indented one, spell its tree (`spells_compactChars`,
`spells_prettyChars`).  A text that spells a tree, with blanks around it, is read as a whole, so a
reader makes of it what it makes of the tree (`parse_spells`).
-/

namespace Sparkboard

namespace Json

open Node (Quotes)

/-! ## Trees -/

/-- The node of a float: its numeral, or `null` for one that is not finite. -/
def floatNode (x : Float) : Node :=
  match Binary64.ofFloat x with
  | .finite negative m e => (Numeral.ofFinite negative m e).node
  | _ => .null

mutual

def tree : Json → Node
  | null => .null
  | bool b => .bool b
  | integer n => (Numeral.ofInt n).node
  | float x => floatNode x
  | string s => .string s
  | array items => .array (treeItems items)
  | object members => .object (treeMembers members)

def treeItems : List Json → Items
  | [] => .close
  | v :: vs => .item v.tree (treeItems vs)

def treeMembers : List (String × Json) → Members
  | [] => .close
  | (k, v) :: ms => .member (some k) v.tree (treeMembers ms)

end

theorem node_ofInt {n : Int} (h : -(2 ^ 63 : Int) ≤ n) (h' : n < 2 ^ 64) :
    (Numeral.ofInt n).node = .integer n := by
  cases n with
  | ofNat n =>
    have hfits : ¬Nat.pow 2 64 ≤ n := by
      rw [Nat.pow_eq]
      simp at h'
      omega
    simp [Numeral.ofInt, Numeral.node, Node.ofDigits, hfits]
  | negSucc n =>
    have hfits : ¬Nat.pow 2 64 ≤ n + 1 := by
      rw [Nat.pow_eq]
      omega
    have hsmall : ¬(n + 1 = 0 || Nat.pow 2 63 < n + 1) = true := by
      simp only [Nat.pow_eq, Bool.or_eq_true, decide_eq_true_eq]
      omega
    simp only [Numeral.ofInt, Numeral.node, Node.ofDigits, Decimal.value_digits]
    rw [if_pos trivial, if_neg hfits, if_pos trivial, if_neg hsmall]
    rfl

/-! ## Spelling -/

theorem spells_floatText (x : Float) : Spells (floatText x) (floatNode x) := by
  unfold floatText floatNode
  cases Binary64.ofFloat x with
  | nan | infinite => exact .null
  | finite negative m e =>
    have h := Spells.number (Numeral.valid_ofFinite negative m e)
    rwa [Numeral.chars_ofFinite] at h

theorem spells_integer (n : Int) : Spells (Decimal.integer n) (Numeral.ofInt n).node := by
  have h := Spells.number (Numeral.valid_ofInt n)
  rwa [Numeral.chars_ofInt] at h

theorem spells_quoted (s : String) : Spells (quoted s) (.string s) := by
  have h := Spells.string (Node.quotes_flatMap_escape s.toList)
  rwa [String.ofList_toList] at h

/-- A member whose name is written as strings are. -/
theorem SpellsMembers.quoted {first : Bool} {lead b text rest : List Char} {node : Node}
    {members : Members} (hl : Lead first lead) (key : String) (hb : Blanks b)
    (hv : Spells text node) (hr : SpellsMembers false rest members) :
    SpellsMembers first (lead ++ (Json.quoted key ++ ':' :: (b ++ (text ++ rest))))
      (.member (some key) node members) := by
  have h := SpellsMembers.member hl (Node.quotes_flatMap_escape key.toList) blanks_nil hb hv hr
  rw [String.ofList_toList] at h
  simpa [Json.quoted] using h

mutual

/-- The text of a value on one line spells the tree of the value. -/
theorem spells_compactChars (v : Json) : Spells v.compactChars v.tree := by
  cases v with
  | null => exact .null
  | bool b =>
    cases b with
    | true => exact .yes
    | false => exact .no
  | integer n => exact spells_integer n
  | float x => exact spells_floatText x
  | string s => exact spells_quoted s
  | array items =>
    cases items with
    | nil => exact .array (.close blanks_nil)
    | cons v vs =>
      exact .array (.item (.first blanks_nil) (spells_compactChars v) (spells_compactItems vs))
  | object members =>
    cases members with
    | nil => exact .object (.close blanks_nil)
    | cons m ms =>
      obtain ⟨k, v⟩ := m
      exact .object (.quoted (.first blanks_nil) k blanks_nil (spells_compactChars v)
        (spells_compactMembers ms))

theorem spells_compactItems (vs : List Json) :
    SpellsItems false (compactItems vs) (treeItems vs) := by
  cases vs with
  | nil => exact .close blanks_nil
  | cons v vs =>
    exact .item (.next blanks_nil blanks_nil) (spells_compactChars v) (spells_compactItems vs)

theorem spells_compactMembers (ms : List (String × Json)) :
    SpellsMembers false (compactMembers ms) (treeMembers ms) := by
  cases ms with
  | nil => exact .close blanks_nil
  | cons m ms =>
    obtain ⟨k, v⟩ := m
    exact .quoted (.next blanks_nil blanks_nil) k blanks_nil (spells_compactChars v)
      (spells_compactMembers ms)

end

theorem blanks_newline (depth : Nat) : Blanks (newline depth) := by
  intro c hc
  rcases List.mem_cons.1 hc with rfl | hc
  · rfl
  · rw [(List.mem_replicate.1 hc).2]
    rfl

theorem blanks_space : Blanks [' '] := by
  simp [Blanks, Node.isBlank]

mutual

/-- The text of a value over several lines spells the tree of the value. -/
theorem spells_prettyChars (depth : Nat) (v : Json) : Spells (v.prettyChars depth) v.tree := by
  cases v with
  | null => exact .null
  | bool b =>
    cases b with
    | true => exact .yes
    | false => exact .no
  | integer n => exact spells_integer n
  | float x => exact spells_floatText x
  | string s => exact spells_quoted s
  | array items =>
    cases items with
    | nil => exact .array (.close blanks_nil)
    | cons v vs =>
      have h := Spells.array (.item (.first (blanks_newline (depth + 1)))
        (spells_prettyChars (depth + 1) v) (spells_prettyItems depth vs))
      simpa [prettyChars, tree, treeItems, treeMembers] using h
  | object members =>
    cases members with
    | nil => exact .object (.close blanks_nil)
    | cons m ms =>
      obtain ⟨k, v⟩ := m
      have h := Spells.object (.quoted (.first (blanks_newline (depth + 1))) k
        blanks_space (spells_prettyChars (depth + 1) v) (spells_prettyMembers depth ms))
      simpa [prettyChars, tree, treeItems, treeMembers] using h

theorem spells_prettyItems (depth : Nat) (vs : List Json) :
    SpellsItems false (prettyItems depth vs) (treeItems vs) := by
  cases vs with
  | nil => exact .close (blanks_newline depth)
  | cons v vs =>
    have h := SpellsItems.item (.next blanks_nil (blanks_newline (depth + 1)))
      (spells_prettyChars (depth + 1) v) (spells_prettyItems depth vs)
    simpa [prettyItems, treeItems] using h

theorem spells_prettyMembers (depth : Nat) (ms : List (String × Json)) :
    SpellsMembers false (prettyMembers depth ms) (treeMembers ms) := by
  cases ms with
  | nil => exact .close (blanks_newline depth)
  | cons m ms =>
    obtain ⟨k, v⟩ := m
    have h := SpellsMembers.quoted (.next blanks_nil (blanks_newline (depth + 1))) k
      blanks_space (spells_prettyChars (depth + 1) v) (spells_prettyMembers depth ms)
    simpa [prettyMembers, treeMembers] using h

end

/-! ## Documents -/

/-- Does the whole text spell a value with this tree?  Blanks may stand on both sides. -/
def SpellsDocument (cs : List Char) (node : Node) : Prop :=
  ∃ b text b', cs = b ++ (text ++ b') ∧ Blanks b ∧ Blanks b' ∧ Spells text node

variable {cs : List Char} {node : Node} {α : Type}

theorem Spells.document (h : Spells cs node) : SpellsDocument cs node :=
  ⟨[], cs, [], by simp, blanks_nil, blanks_nil, h⟩

theorem halts_of_blanks {b : List Char} (hb : Blanks b) : Halts (glyphs b) := by
  cases b with
  | nil => exact nofun
  | cons c b => exact halts_of_head (.inl (hb c (List.mem_cons_self ..))) (glyphs b)

/-- A text that spells a value is read to its end as the value. -/
theorem SpellsDocument.ofGlyphs (h : SpellsDocument cs node) :
    Document.ofGlyphs (glyphs cs) = ⟨node, true⟩ := by
  obtain ⟨b, text, b', rfl, hb, hb', hv⟩ := h
  have hend : Node.skipBlanks (glyphs b') = [] := by
    simpa [Node.skipBlanks] using Node.skipBlanks_append hb' []
  have hvalue := takeValue_spells hv
    (show 2 * text.length ≤ 2 * (glyphs (b ++ (text ++ b'))).length + 2 by simp; omega) hb
    (halts_of_blanks hb')
  unfold Document.ofGlyphs
  rw [glyphs_append, glyphs_append] at hvalue ⊢
  rw [hvalue]
  simp [hend]

/-- Of a text a reader makes what it makes of the tree that the text spells. -/
theorem parse_spells {r : Reader α} {s : String} (h : SpellsDocument s.toList node) :
    parse r s = r .text node := by
  have hdocument : Document.ofString s = ⟨node, true⟩ := h.ofGlyphs
  unfold parse Document.read
  rw [hdocument]
  cases r .text node <;> rfl

theorem parse_compact (r : Reader α) (v : Json) : parse r v.compact = r .text v.tree := by
  apply parse_spells
  rw [compact, String.toList_ofList]
  exact (spells_compactChars v).document

theorem parse_pretty (r : Reader α) (v : Json) : parse r v.pretty = r .text v.tree := by
  apply parse_spells
  rw [pretty, String.toList_ofList]
  exact (spells_prettyChars 0 v).document

end Json

end Sparkboard
