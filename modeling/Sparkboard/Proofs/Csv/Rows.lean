import Sparkboard.Files.Load
import Sparkboard.Proofs.Csv.Spelling
import Sparkboard.Proofs.Decimal.Parsed
import Sparkboard.Proofs.Text.Trim
/-!
# Rows of chart data

A table of chart data names its columns in any order, with any others among them.  A row of it is
read as the row whose fields stand under the names.  The proof goes along the names: once some of
them were seen, the fields of just these are filled (`byName_draft`).
-/

namespace Sparkboard

namespace Text

/-- Is the text `cs` with blanks around it? -/
def Padded (cs text : List Char) : Prop :=
  ∃ b b', text = b ++ (cs ++ b') ∧ (∀ c ∈ b, isBlank c = true) ∧ ∀ c ∈ b', isBlank c = true

/-- Does the text neither start nor end with a blank? -/
def Trimmed (cs : List Char) : Prop := trimBoth isBlank cs = cs

instance (cs : List Char) : Decidable (Trimmed cs) := inferInstanceAs (Decidable (_ = _))

theorem padded_self (cs : List Char) : Padded cs cs := ⟨[], [], by simp, nofun, nofun⟩

theorem Padded.trim {cs text : List Char} (h : Padded cs text) (ht : Trimmed cs) :
    trimBoth isBlank text = cs := by
  obtain ⟨b, b', rfl, hb, hb'⟩ := h
  rw [trimBoth_pad hb hb', ht]

theorem trimmed_literal {n : Literal} (hn : n.Valid) : Trimmed n.chars := by
  refine trimBoth_eq_self fun c hc => ?_
  have hdigit (c : Char) (h : Decimal.isDigit c = true) : isBlank c = false := by
    simp only [Decimal.isDigit, Bool.and_eq_true, decide_eq_true_eq, Char.le_def,
      UInt32.le_iff_toNat_le] at h
    have hnat : 48 ≤ c.toNat ∧ c.toNat ≤ 57 := h
    simp [isBlank]
    omega
  rcases hn.mem_chars hc with h | h
  · exact hdigit c h
  · simp only [List.mem_cons, List.not_mem_nil, or_false] at h
    rcases h with rfl | rfl | rfl | rfl | rfl <;> decide

end Text

open Text (Padded Trimmed)

/-! ## Texts of fields -/

namespace Csv

open Utf8 (encodeChars)

variable {header : List (List Char)} {names : List String}

@[simp]
theorem chars?_glyphs (cs : List Char) : Glyph.chars? (glyphs cs) = some cs := by
  induction cs with
  | nil => rfl
  | cons c cs ih => simp [Glyph.chars?, ih]

theorem trimChars_trimAscii (cs : List Char) :
    trimChars (Text.trimBoth Text.isAsciiBlank cs) = trimChars cs :=
  Text.trimBoth_trimBoth (fun _ => Text.isBlank_of_isAsciiBlank) cs

theorem texts_encodeRecord (index : Nat) (fields : List (List Char)) :
    Csv.texts index (encodeRecord fields) = .ok (fields.map trimChars) := by
  induction fields generalizing index with
  | nil => rfl
  | cons f fields ih =>
    have htrim : trimBytes (encodeChars f) = encodeChars (Text.trimBoth Text.isAsciiBlank f) :=
      Text.trimBoth_encodeChars f
    have hrest : Csv.texts (index + 1) (fields.map encodeChars) = .ok (fields.map trimChars) :=
      ih (index + 1)
    simp [encodeRecord, Csv.texts, htrim, hrest, trimChars_trimAscii, bind, Except.bind, pure,
      Except.pure]

/-- The names of the columns are the fields of the header, trimmed. -/
theorem names?_encodeRecord (h : List.Forall₂ (fun n text => Padded n.toList text) names header)
    (hnames : ∀ n ∈ names, Trimmed n.toList) : names? (encodeRecord header) = some names := by
  induction h with
  | nil => rfl
  | @cons name text names header hpad _ ih =>
    obtain ⟨hname, hnames⟩ := List.forall_mem_cons.1 hnames
    have htrim : trimChars text = name.toList := hpad.trim hname
    have hrest := ih hnames
    simp only [names?, encodeRecord] at hrest
    simp [names?, encodeRecord, htrim, hrest]

end Csv

/-! ## Rows -/

/-- A row of chart data whose numbers are given as decimals, in any spelling that is parsed. -/
structure DecimalRow where
  label : String
  employee : Literal
  ssh : Literal
  signs : Literal

namespace DecimalRow

def row (r : DecimalRow) : ChartRow :=
  ⟨r.label, r.employee.float, r.ssh.float, r.signs.float⟩

/-- The texts of the row, under the names of their columns. -/
def fields (r : DecimalRow) : List (String × List Char) :=
  [("label", r.label.toList), ("employee", r.employee.chars), ("ssh", r.ssh.chars),
    ("signs", r.signs.chars)]

def columns : List String := ["label", "employee", "ssh", "signs"]

/-- Has the label no blank at its ends, and are the numbers decimals? -/
structure Valid (r : DecimalRow) : Prop where
  label : Trimmed r.label.toList
  numbers : ∀ n ∈ [r.employee, r.ssh, r.signs], n.Valid

/-- Is the text what the row has under the name?  Blanks may stand around it; under other names than
those of the four columns there can be any text. -/
def Under (r : DecimalRow) (name : String) (text : List Char) : Prop :=
  ∀ cs ∈ r.fields.lookup name, Padded cs text

def draft (r : DecimalRow) (seen : List String) : ChartRow.Draft where
  label := if "label" ∈ seen then some r.label else none
  employee := if "employee" ∈ seen then some r.employee.float else none
  ssh := if "ssh" ∈ seen then some r.ssh.float else none
  signs := if "signs" ∈ seen then some r.signs.float else none

variable {r : DecimalRow} {name : String} {seen : List String} {text : List Char}

/-- Under the name of a column the row is filled further. -/
theorem fill_column (hr : r.Valid) (hname : name ∈ columns) (hnew : name ∉ seen)
    (ht : r.Under name text) : ∃ column,
      ChartRow.layout.columns.find? (fun c => c.name == name) = some column ∧
      column.filled (r.draft seen) = false ∧
      column.fill (Csv.trimChars text) (r.draft seen) = .ok (r.draft (seen ++ [name])) := by
  have hnumber (n : Literal) (hn : n ∈ [r.employee, r.ssh, r.signs]) (hpad : Padded n.chars text) :
      Decimal.parseFloat (Csv.trimChars text) = .ok n.float := by
    have hvalid := hr.numbers n hn
    have htrim : Csv.trimChars text = n.chars := hpad.trim (Text.trimmed_literal hvalid)
    rw [htrim, Decimal.parseFloat_literal hvalid]
  simp only [columns, List.mem_cons, List.not_mem_nil, or_false] at hname
  rcases hname with rfl | rfl | rfl | rfl
  · have htrim : Csv.trimChars text = r.label.toList := (ht r.label.toList rfl).trim hr.label
    refine ⟨_, rfl, ?_, ?_⟩
    · simp [draft, hnew, Csv.Column.text]
    · simp [draft, hnew, Csv.Column.text, htrim]
  · have hread := hnumber r.employee (by simp) (ht r.employee.chars rfl)
    refine ⟨_, rfl, ?_, ?_⟩
    · simp [draft, hnew, Csv.Column.number]
    · simp [draft, hnew, Csv.Column.number, hread, Except.map]
  · have hread := hnumber r.ssh (by simp) (ht r.ssh.chars rfl)
    refine ⟨_, rfl, ?_, ?_⟩
    · simp [draft, hnew, Csv.Column.number]
    · simp [draft, hnew, Csv.Column.number, hread, Except.map]
  · have hread := hnumber r.signs (by simp) (ht r.signs.chars rfl)
    refine ⟨_, rfl, ?_, ?_⟩
    · simp [draft, hnew, Csv.Column.number]
    · simp [draft, hnew, Csv.Column.number, hread, Except.map]

theorem pass_column (hname : name ∉ columns) :
    ChartRow.layout.columns.find? (fun c => c.name == name) = none ∧
      ∀ (seen : List String) (r : DecimalRow), r.draft (seen ++ [name]) = r.draft seen := by
  simp only [columns, List.mem_cons, List.not_mem_nil, or_false, not_or] at hname
  obtain ⟨hlabel, hemployee, hssh, hsigns⟩ := hname
  constructor
  · simp [ChartRow.layout, Csv.Column.text, Csv.Column.number, Ne.symm hlabel, Ne.symm hemployee,
      Ne.symm hssh, Ne.symm hsigns]
  · intro seen r
    simp [draft, Ne.symm hlabel, Ne.symm hemployee, Ne.symm hssh, Ne.symm hsigns]

/-- Along the names, the fields of just those seen are filled. -/
theorem byName_draft {names : List String} {texts : List (List Char)} (hr : r.Valid)
    (h : List.Forall₂ r.Under names texts) (honce : ∀ c ∈ columns, (seen ++ names).count c ≤ 1)
    (index : Nat) :
    ChartRow.layout.byName index names (texts.map Csv.trimChars) (r.draft seen) =
      .ok (r.draft (seen ++ names)) := by
  induction h generalizing seen index with
  | nil => simp [Csv.Layout.byName]
  | @cons name text names texts ht _ ih =>
    have hshift : seen ++ name :: names = (seen ++ [name]) ++ names := by simp
    have hrest := @ih (seen ++ [name]) (by rwa [← hshift]) (index + 1)
    rw [hshift, List.map_cons, Csv.Layout.byName]
    by_cases hname : name ∈ columns
    · have hnew : name ∉ seen := by
        intro hmem
        have hcount := honce name hname
        have hpos := List.count_pos_iff.2 hmem
        rw [List.count_append, List.count_cons_self] at hcount
        omega
      obtain ⟨column, hfind, hfree, hfill⟩ := fill_column hr hname hnew ht
      simp [hfind, hfree, Csv.Layout.put, hfill, hrest, bind, Except.bind]
    · obtain ⟨hfind, hsame⟩ := pass_column hname
      rw [hsame seen r] at hrest
      simp [hfind, hrest]

end DecimalRow

end Sparkboard
