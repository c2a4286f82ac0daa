import Mathlib.Data.List.Forall2
import Mathlib.Data.List.Perm.Subperm
import Sparkboard.Proofs.Chart.Arrays
import Sparkboard.Proofs.Csv.Rows
import Sparkboard.Proofs.Json.Floats
/-!
# Loading chart data

Comma-separated text is loaded as its rows, each number as the float nearest to it.  A JSON document
with the columns of the rows is loaded as the same data if its numbers are read as these floats
(`loadChartData_faithful`), which is not so of all numbers.  What is loaded from comma-separated
text has a row at least, and as many labels as values of each metric.
-/

namespace Sparkboard

open Json (Node Members SpellsDocument)
open Text (Padded Trimmed)

namespace DecimalRow

variable {names : List String} {rows : List DecimalRow} {header : List (List Char)}
  {records : List (List (List Char))} {text : List Char}

/-! ## Comma-separated text -/

/-- Does the text spell the rows?  The header names each of the four columns once and may name
others; blanks may stand around names and fields.  A byte order mark in front is no part of a name
that is not quoted. -/
structure SpellsTable (names : List String) (rows : List DecimalRow) (text : List Char) : Prop where
  columns : ∀ c ∈ columns, names.count c = 1
  trimmed : ∀ n ∈ names, Trimmed n.toList
  spells : ∃ header records, List.Forall₂ (fun n field => Padded n.toList field) names header ∧
    List.Forall₂ (fun r fields => List.Forall₂ r.Under names fields) rows records ∧
    Csv.Spells (header :: records) text
  unmarked : text.head? ≠ some Csv.mark

/-- A record is read as the row whose fields it holds. -/
theorem readRow_record {r : DecimalRow} {fields : List (List Char)} (hr : r.Valid)
    (hcolumns : ∀ c ∈ columns, names.count c = 1) (h : List.Forall₂ r.Under names fields) :
    ChartRow.layout.readRow names.length (some names) (Csv.encodeRecord fields) = .ok r.row := by
  have hlength : (Csv.encodeRecord fields).length = names.length := by
    rw [Csv.encodeRecord, List.length_map, h.length_eq]
  have honce : ∀ c ∈ columns, ([] ++ names).count c ≤ 1 := fun c hc => (hcolumns c hc).le
  have hnames := byName_draft hr h honce 0
  have hall : r.draft names =
      ⟨some r.label, some r.employee.float, some r.ssh.float, some r.signs.float⟩ := by
    have hmem (c : String) (hc : c ∈ columns) : c ∈ names :=
      List.count_pos_iff.1 (by rw [hcolumns c hc]; exact Nat.one_pos)
    have hlabel := hmem "label" (by decide)
    have hemployee := hmem "employee" (by decide)
    have hssh := hmem "ssh" (by decide)
    have hsigns := hmem "signs" (by decide)
    simp [draft, hlabel, hemployee, hssh, hsigns]
  rw [List.nil_append, hall] at hnames
  have hstart : ChartRow.layout.start = r.draft [] := by simp [draft, ChartRow.layout]
  unfold Csv.Layout.readRow
  rw [if_neg (by simp [hlength]), Csv.texts_encodeRecord]
  simp only [bind, Except.bind, hstart, hnames]
  rfl

theorem readRows_records (hcolumns : ∀ c ∈ columns, names.count c = 1)
    (hvalid : ∀ r ∈ rows, r.Valid)
    (h : List.Forall₂ (fun r fields => List.Forall₂ r.Under names fields) rows records)
    (index : Nat) :
    ChartRow.layout.readRows names.length (some names) index (records.map Csv.encodeRecord) =
      .ok (rows.map DecimalRow.row) := by
  induction h generalizing index with
  | nil => rfl
  | @cons r fields rows records hr _ ih =>
    obtain ⟨hrow, hrows⟩ := List.forall_mem_cons.1 hvalid
    have hread := readRow_record hrow hcolumns hr
    have hrest := ih hrows (index + 1)
    simp [Csv.Layout.readRows, hread, hrest, bind, Except.bind, pure, Except.pure]

theorem length_record
    (h : List.Forall₂ (fun r fields => List.Forall₂ r.Under names fields) rows records) :
    ∀ fields ∈ records, fields.length = names.length := by
  induction h with
  | nil => exact nofun
  | cons hr _ ih => exact List.forall_mem_cons.2 ⟨hr.length_eq.symm, ih⟩

theorem columns_le_length (hcolumns : ∀ c ∈ columns, names.count c = 1) : 4 ≤ names.length := by
  have hsub : columns ⊆ names := fun c hc =>
    List.count_pos_iff.1 (by rw [hcolumns c hc]; exact Nat.one_pos)
  have hnodup : columns.Nodup := by decide
  exact (List.Nodup.subperm hnodup hsub).length_le

theorem SpellsTable.read (h : SpellsTable names rows text) (hvalid : ∀ r ∈ rows, r.Valid) :
    ChartRow.layout.read (Utf8.encodeChars text) = .ok (rows.map DecimalRow.row) := by
  obtain ⟨header, records, hheader, hrecords, hspells⟩ := h.spells
  have hwide : ∀ r ∈ header :: records, 2 ≤ r.length := by
    have hnames := columns_le_length h.columns
    intro fields hfields
    rcases List.mem_cons.1 hfields with rfl | hfields
    · have hlength := hheader.length_eq
      omega
    · have hlength := length_record hrecords fields hfields
      omega
  have hsplit := Csv.records_spells hspells hwide h.unmarked
  unfold Csv.Layout.read
  rw [hsplit, List.map_cons]
  dsimp only
  have hlength : (Csv.encodeRecord header).length = names.length := by
    rw [Csv.encodeRecord, List.length_map, hheader.length_eq]
  rw [hlength, Csv.names?_encodeRecord hheader h.trimmed,
    readRows_records h.columns hvalid hrecords]

end DecimalRow

/-! ## JSON -/

namespace ChartData

variable {labels : List String} {employee ssh signs : List Numeral} {data : ChartData}

/-- The tree of a JSON document with these labels and the numerals of each metric. -/
def document (labels : List String) (employee ssh signs : List Numeral) : Node :=
  .object (.member (some "labels") (.array (.ofNodes (labels.map .string)))
    (.member (some "employee") (.array (.ofNodes (employee.map Numeral.node)))
      (.member (some "ssh") (.array (.ofNodes (ssh.map Numeral.node)))
        (.member (some "signs") (.array (.ofNodes (signs.map Numeral.node))) .close))))

/-- Are these the labels, and is each numeral read as the float at its place? -/
structure IsRead (data : ChartData) (labels : List String) (employee ssh signs : List Numeral) :
    Prop where
  labels : data.labels = labels
  employee : employee.map Numeral.float? = data.employee.map some
  ssh : ssh.map Numeral.float? = data.ssh.map some
  signs : signs.map Numeral.float? = data.signs.map some

theorem reader_document (source : Json.Source) :
    reader source (document labels employee ssh signs) = .ok data ↔
      data.IsRead labels employee ssh signs := by
  have hlabels : Json.Reader.list .string source (.array (.ofNodes (labels.map .string))) =
      .ok labels := Json.items_strings labels
  have hnumbers (ns : List Numeral) (xs : List Float) :
      Json.Reader.list .float source (.array (.ofNodes (ns.map Numeral.node))) = .ok xs ↔
        ns.map Numeral.float? = xs.map some := Json.items_numerals
  unfold reader document
  rw [Json.record_eq_ok]
  constructor
  · rintro ⟨s, hmembers, hfinish⟩
    obtain ⟨ls, hls, hmembers⟩ := (Json.members_eq_ok rfl rfl).1 hmembers
    obtain ⟨xs, hxs, hmembers⟩ := (Json.members_eq_ok rfl rfl).1 hmembers
    obtain ⟨ys, hys, hmembers⟩ := (Json.members_eq_ok rfl rfl).1 hmembers
    obtain ⟨zs, hzs, hmembers⟩ := (Json.members_eq_ok rfl rfl).1 hmembers
    cases hmembers
    cases hfinish
    rw [hlabels] at hls
    cases hls
    exact ⟨rfl, (hnumbers _ _).1 hxs, (hnumbers _ _).1 hys, (hnumbers _ _).1 hzs⟩
  · rintro ⟨rfl, hemployee, hssh, hsigns⟩
    refine ⟨⟨some data.labels, some data.employee, some data.ssh, some data.signs⟩, ?_, rfl⟩
    rw [Json.members_member rfl rfl hlabels,
      Json.members_member rfl rfl ((hnumbers _ _).2 hemployee),
      Json.members_member rfl rfl ((hnumbers _ _).2 hssh),
      Json.members_member rfl rfl ((hnumbers _ _).2 hsigns)]
    rfl

end ChartData

namespace DecimalRow

def data (rows : List DecimalRow) : ChartData where
  labels := rows.map label
  employee := rows.map fun r => r.employee.float
  ssh := rows.map fun r => r.ssh.float
  signs := rows.map fun r => r.signs.float

theorem isRead_data {rows : List DecimalRow} {employee ssh signs : List Numeral} :
    (data rows).IsRead (rows.map label) employee ssh signs ↔
      employee.map Numeral.float? = rows.map (fun r => some r.employee.float) ∧
      ssh.map Numeral.float? = rows.map (fun r => some r.ssh.float) ∧
      signs.map Numeral.float? = rows.map (fun r => some r.signs.float) := by
  have hcolumn (f : DecimalRow → Literal) :
      (rows.map fun r => (f r).float).map some = rows.map fun r => some (f r).float :=
    List.map_map
  constructor
  · rintro ⟨-, hemployee, hssh, hsigns⟩
    exact ⟨hemployee.trans (hcolumn _), hssh.trans (hcolumn _), hsigns.trans (hcolumn _)⟩
  · rintro ⟨hemployee, hssh, hsigns⟩
    exact ⟨rfl, hemployee.trans (hcolumn _).symm, hssh.trans (hcolumn _).symm,
      hsigns.trans (hcolumn _).symm⟩

theorem ofRows_map_row (rows : List DecimalRow) : ChartData.ofRows (rows.map row) = data rows := by
  simp [ChartData.ofRows, data, row, Function.comp_def]

end DecimalRow

/-! ## Files -/

namespace FileTree

open DecimalRow (SpellsTable)

variable {t : FileTree} {path text : String} {names : List String} {rows : List DecimalRow}
  {loaded : ChartData}

theorem loadChartData_table (hpath : Path.isCsv path = true)
    (hopen : t.open? path = .ok (.file (Utf8.encode text))) (hvalid : ∀ r ∈ rows, r.Valid)
    (hne : rows ≠ []) (h : SpellsTable names rows text.toList) :
    t.loadChartData path = .ok (DecimalRow.data rows) := by
  have hcsv : t.loadCsv ChartRow.layout path = .ok (rows.map DecimalRow.row) := by
    have hread : ChartRow.layout.read (Utf8.encode text) = .ok (rows.map DecimalRow.row) :=
      h.read hvalid
    simp [loadCsv, hopen, hread]
  have hrows : (rows.map DecimalRow.row).isEmpty = false := by simpa using hne
  unfold loadChartData
  rw [if_pos hpath, hcsv]
  simp only [bind, Except.bind, hrows, ← DecimalRow.ofRows_map_row]
  rfl

theorem loadChartData_document {labels : List String} {employee ssh signs : List Numeral}
    (hpath : Path.isCsv path = false) (hopen : t.open? path = .ok (.file (Utf8.encode text)))
    (h : SpellsDocument text.toList (ChartData.document labels employee ssh signs)) :
    t.loadChartData path = .ok loaded ↔ loaded.IsRead labels employee ssh signs := by
  have hdocument : Json.Document.ofGlyphs (Utf8.decode (Utf8.encode text)) =
      ⟨ChartData.document labels employee ssh signs, true⟩ := by
    rw [Utf8.encode_eq, Utf8.decode_encodeChars]
    exact h.ofGlyphs
  rw [← ChartData.reader_document .text]
  unfold loadChartData
  rw [if_neg (by simp [hpath]), hopen]
  dsimp only
  rw [hdocument]
  unfold Json.Document.read
  cases ChartData.reader .text (ChartData.document labels employee ssh signs) <;> simp

/-- What is loaded from comma-separated text are the columns of rows. -/
theorem exists_rows_of_loadChartData (hpath : Path.isCsv path = true)
    (h : t.loadChartData path = .ok loaded) :
    ∃ rows : List ChartRow, rows ≠ [] ∧ loaded = .ofRows rows := by
  unfold loadChartData at h
  rw [if_pos hpath] at h
  cases hcsv : t.loadCsv ChartRow.layout path with
  | error e => simp [hcsv, bind, Except.bind] at h
  | ok rows =>
    by_cases hrows : rows.isEmpty = true
    · simp [hcsv, bind, Except.bind, hrows, throw, throwThe, MonadExceptOf.throw] at h
    · simp [hcsv, bind, Except.bind, hrows, pure, Except.pure] at h
      exact ⟨rows, by simpa using hrows, h.symm⟩

theorem float?_of_matches {ns : List Numeral} {ls : List Literal}
    (h : List.Forall₂ Numeral.Matches ns ls) :
    ns.map Numeral.float? = ls.map fun l => some l.float := by
  induction h with
  | nil => rfl
  | cons hmatches _ ih => rw [List.map_cons, List.map_cons, hmatches.float?_eq, ih]

/-- Comma-separated text is loaded as its rows.  A JSON document with the same labels is loaded as
the floats that its numerals are read as; so it is loaded as the same data exactly if these are the
floats of the rows, as is the case for short numerals of the same numbers.  Whatever is loaded from
comma-separated text has as many values of each metric as labels, and at least one. -/
theorem loadChartData_faithful (hpath : Path.isCsv path = true)
    (hopen : t.open? path = .ok (.file (Utf8.encode text))) (hvalid : ∀ r ∈ rows, r.Valid)
    (hne : rows ≠ []) (h : SpellsTable names rows text.toList) :
    t.loadChartData path = .ok
        { labels := rows.map DecimalRow.label
          employee := rows.map fun r => r.employee.float
          ssh := rows.map fun r => r.ssh.float
          signs := rows.map fun r => r.signs.float } ∧
      (∀ (t' : FileTree) (path' text' : String) (employee ssh signs : List Numeral),
        Path.isCsv path' = false → t'.open? path' = .ok (.file (Utf8.encode text')) →
        SpellsDocument text'.toList
          (ChartData.document (rows.map DecimalRow.label) employee ssh signs) →
        (∀ loaded : ChartData, t'.loadChartData path' = .ok loaded ↔
          loaded.IsRead (rows.map DecimalRow.label) employee ssh signs) ∧
        (t'.loadChartData path' = t.loadChartData path ↔
          employee.map Numeral.float? = rows.map (fun r => some r.employee.float) ∧
          ssh.map Numeral.float? = rows.map (fun r => some r.ssh.float) ∧
          signs.map Numeral.float? = rows.map (fun r => some r.signs.float)) ∧
        (List.Forall₂ Numeral.Matches employee (rows.map DecimalRow.employee) →
          List.Forall₂ Numeral.Matches ssh (rows.map DecimalRow.ssh) →
          List.Forall₂ Numeral.Matches signs (rows.map DecimalRow.signs) →
          t'.loadChartData path' = t.loadChartData path)) ∧
      ∀ (t' : FileTree) (path' : String) (loaded : ChartData), Path.isCsv path' = true →
        t'.loadChartData path' = .ok loaded →
        0 < loaded.labels.length ∧ loaded.employee.length = loaded.labels.length ∧
          loaded.ssh.length = loaded.labels.length ∧
          loaded.signs.length = loaded.labels.length := by
  have htable : t.loadChartData path = .ok (DecimalRow.data rows) :=
    loadChartData_table hpath hopen hvalid hne h
  refine ⟨htable, fun t' path' text' employee ssh signs hpath' hopen' h' => ?_,
    fun t' path' loaded hpath' h' => ?_⟩
  · have hdocument (loaded : ChartData) : t'.loadChartData path' = .ok loaded ↔
        loaded.IsRead (rows.map DecimalRow.label) employee ssh signs :=
      loadChartData_document hpath' hopen' h'
    have hsame := hdocument (DecimalRow.data rows)
    rw [← htable, DecimalRow.isRead_data] at hsame
    refine ⟨hdocument, hsame, fun hemployee hssh hsigns => hsame.2 ⟨?_, ?_, ?_⟩⟩
    · simpa [Function.comp_def] using float?_of_matches hemployee
    · simpa [Function.comp_def] using float?_of_matches hssh
    · simpa [Function.comp_def] using float?_of_matches hsigns
  · obtain ⟨rows', hne', rfl⟩ := exists_rows_of_loadChartData hpath' h'
    simpa [ChartData.ofRows, List.length_pos_iff] using hne'

/-- Two rows, one with a label that has to be quoted and one with an empty label.  None of the
numbers but two may stand so in a JSON document. -/
def twoRows : List DecimalRow := [
  ⟨"30m, \"late\"", ⟨none, ['5'], some [], none⟩, ⟨some false, ['1'], none, none⟩,
    ⟨none, ['0', '2'], none, none⟩⟩,
  ⟨"", ⟨none, ['4'], none, some ⟨'e', none, ['1']⟩⟩, ⟨none, [], some ['0'], none⟩,
    ⟨none, ['3'], none, none⟩⟩]

/-- The two rows with the columns in another order, one of them of no concern, and line ends of both
kinds. -/
def shuffledText : String :=
  "signs,note,label,ssh,employee\r\n02,x,\"30m, \"\"late\"\"\",+1,5.\n3,, ,.0,4e1\r\n"

def columnsText : String :=
  (Json.object [
    ("labels", .array [.string "30m, \"late\"", .string ""]),
    ("employee", .array [.integer 5, .integer 40]),
    ("ssh", .array [.integer 1, .integer 0]),
    ("signs", .array [.integer 2, .integer 3])]).compact

theorem valid_twoRows : ∀ r ∈ twoRows, r.Valid := by
  have hvalid (l : Literal) (hne : l.digits ≠ []) (hall : l.digits.all Decimal.isDigit)
      (hpower : l.power = none) : l.Valid :=
    ⟨⟨hne, List.all_eq_true.1 hall⟩, fun p hp => by rw [hpower] at hp; cases hp⟩
  have hpower : (Literal.mk none ['4'] none (some ⟨'e', none, ['1']⟩)).Valid := by
    refine ⟨⟨by decide, List.forall_mem_singleton.2 rfl⟩, fun p hp => ?_⟩
    cases hp
    exact ⟨.inl rfl, by decide, List.forall_mem_singleton.2 rfl⟩
  simp only [twoRows, List.forall_mem_cons]
  refine ⟨⟨by decide, ?_⟩, ⟨by decide, ?_⟩, List.forall_mem_nil _⟩
  · simp only [List.forall_mem_cons]
    exact ⟨hvalid _ (by decide) (by decide) rfl, hvalid _ (by decide) (by decide) rfl,
      hvalid _ (by decide) (by decide) rfl, List.forall_mem_nil _⟩
  · simp only [List.forall_mem_cons]
    exact ⟨hpower, hvalid _ (by decide) (by decide) rfl, hvalid _ (by decide) (by decide) rfl,
      List.forall_mem_nil _⟩

theorem spellsTable_twoRows :
    SpellsTable ["signs", "note", "label", "ssh", "employee"] twoRows shuffledText.toList where
  columns := by decide
  trimmed := by decide
  spells := by
    have hplain (cs : List Char)
        (h : cs.all (fun c => c ≠ ',' && c ≠ '"' && c ≠ '\n' && c ≠ '\r')) :
        Csv.SpellsField cs cs := .plain fun c hc => by
      have hall := List.all_eq_true.1 h c hc
      simp at hall
      exact ⟨hall.1.1.1, hall.1.1.2, hall.1.2, hall.2⟩
    have hsame (r : DecimalRow) (name : String) (cs : List Char)
        (h : ∀ field ∈ r.fields.lookup name, field = cs) : r.Under name cs := fun field hfield => by
      rw [h field hfield]
      exact Text.padded_self cs
    refine ⟨["signs", "note", "label", "ssh", "employee"].map String.toList,
      [[['0', '2'], ['x'], "30m, \"late\"".toList, ['+', '1'], ['5', '.']],
        [['3'], [], [' '], ['.', '0'], ['4', 'e', '1']]], ?_, ?_, ?_⟩
    · exact List.forall₂_map_right_iff.2 (List.forall₂_same.2 fun n _ => Text.padded_self n.toList)
    · simp only [twoRows, List.forall₂_cons, List.forall₂_nil_left_iff, and_true]
      refine ⟨⟨hsame _ _ _ ?_, hsame _ _ _ ?_, hsame _ _ _ ?_, hsame _ _ _ ?_, hsame _ _ _ ?_⟩,
        hsame _ _ _ ?_, hsame _ _ _ ?_, fun cs hcs => ?_, hsame _ _ _ ?_, hsame _ _ _ ?_⟩
      case refine_8 =>
        cases hcs
        exact ⟨[' '], [], rfl, List.forall_mem_singleton.2 rfl, List.forall_mem_nil _⟩
      all_goals decide
    · exact .record (.next (hplain _ rfl) (.next (hplain _ rfl) (.next (hplain _ rfl)
        (.next (hplain _ rfl) (.last (hplain _ rfl)))))) (.inr rfl)
        (.record (.next (hplain _ rfl) (.next (hplain _ rfl) (.next .quoted
          (.next (hplain _ rfl) (.last (hplain _ rfl)))))) (.inl rfl)
        (.record (.next (hplain _ rfl) (.next (hplain _ rfl) (.next (hplain _ rfl)
          (.next (hplain _ rfl) (.last (hplain _ rfl)))))) (.inr rfl) .nil))
  unmarked := by decide

theorem spellsDocument_twoRows : SpellsDocument columnsText.toList
    (ChartData.document (twoRows.map DecimalRow.label) [.ofInt 5, .ofInt 40] [.ofInt 1, .ofInt 0]
      [.ofInt 2, .ofInt 3]) := by
  rw [columnsText, Json.compact, String.toList_ofList]
  exact (Json.spells_compactChars _).document

theorem matches_ofInt {n : Nat} (d : Nat) (g : Int) {l : Literal} (hlt : n < 2 ^ 53)
    (hsign : l.negative = false) (hd : Decimal.value l.digits = d) (hg : l.exponent = g)
    (h : (n : ℚ) = d * 10 ^ g) : (Numeral.ofInt n).Matches l := by
  refine ⟨⟨?_, ?_, nofun⟩, hsign.symm, ?_⟩
  · simpa [Numeral.ofInt, Numeral.digits] using hlt
  · simp [Numeral.ofInt, Numeral.exponent]
  · rw [Literal.decimal, hd, hg, ← h]
    simp [Numeral.ofInt, Numeral.decimal, Numeral.digits, Numeral.exponent]

/-- The two rows are loaded, and so is the document with their columns. -/
theorem loadChartData_shuffled :
    (FileTree.empty.add "in.CSV" (.file (Utf8.encode shuffledText))).loadChartData "in.CSV" =
      .ok ⟨["30m, \"late\"", ""], [5.0, 40.0], [1.0, 0.0], [2.0, 3.0]⟩ ∧
    (FileTree.empty.add "in.json" (.file (Utf8.encode columnsText))).loadChartData "in.json" =
      .ok ⟨["30m, \"late\"", ""], [5.0, 40.0], [1.0, 0.0], [2.0, 3.0]⟩ := by
  have hpath : Path.isCsv "in.CSV" = true := by decide
  have hopen : (FileTree.empty.add "in.CSV" (.file (Utf8.encode shuffledText))).open? "in.CSV" =
      .ok (.file (Utf8.encode shuffledText)) := by decide +kernel
  have hpath' : Path.isCsv "in.json" = false := by decide
  have hopen' : (FileTree.empty.add "in.json" (.file (Utf8.encode columnsText))).open? "in.json" =
      .ok (.file (Utf8.encode columnsText)) := by decide +kernel
  have hemployee : List.Forall₂ Numeral.Matches [.ofInt 5, .ofInt 40]
      (twoRows.map DecimalRow.employee) :=
    .cons (matches_ofInt 5 0 (by decide) rfl rfl rfl (by norm_num))
      (.cons (matches_ofInt 4 1 (by decide) rfl rfl rfl (by norm_num)) .nil)
  have hssh : List.Forall₂ Numeral.Matches [.ofInt 1, .ofInt 0] (twoRows.map DecimalRow.ssh) :=
    .cons (matches_ofInt 1 0 (by decide) rfl rfl rfl (by norm_num))
      (.cons (matches_ofInt 0 (-1) (by decide) rfl rfl rfl (by norm_num)) .nil)
  have hsigns : List.Forall₂ Numeral.Matches [.ofInt 2, .ofInt 3] (twoRows.map DecimalRow.signs) :=
    .cons (matches_ofInt 2 0 (by decide) rfl rfl rfl (by norm_num))
      (.cons (matches_ofInt 3 0 (by decide) rfl rfl rfl (by norm_num)) .nil)
  obtain ⟨hcsv, hjson, -⟩ :=
    loadChartData_faithful hpath hopen valid_twoRows (by decide) spellsTable_twoRows
  obtain ⟨-, -, hsame⟩ := hjson _ _ _ _ _ _ hpath' hopen' spellsDocument_twoRows
  have hloaded : (FileTree.empty.add "in.CSV" (.file (Utf8.encode shuffledText))).loadChartData
      "in.CSV" = .ok ⟨["30m, \"late\"", ""], [5.0, 40.0], [1.0, 0.0], [2.0, 3.0]⟩ := by
    rw [hcsv]
    decide +kernel
  exact ⟨hloaded, (hsame hemployee hssh hsigns).trans hloaded⟩

/-- A row with a number of seventeen digits. -/
def longText : String := "label,employee,ssh,signs\nx,51.248178375505404,0,0\n"

/-- The columns of the row. -/
def longDocument : String :=
  "\x7b\"labels\":[\"x\"],\"employee\":[51.248178375505404],\"ssh\":[0],\"signs\":[0]\x7d"

/-- The number is read as the float nearest to it in the row, and as another one in the document:
its digits are rounded, and so is what they are divided into. -/
theorem loadChartData_rounded_twice :
    (FileTree.empty.add "data.csv" (.file (Utf8.encode longText))).loadChartData "data.csv" =
      .ok ⟨["x"], [51.248178375505404], [0.0], [0.0]⟩ ∧
    (FileTree.empty.add "data.json" (.file (Utf8.encode longDocument))).loadChartData "data.json" =
      .ok ⟨["x"], [51.24817837550541], [0.0], [0.0]⟩ ∧
    (FileTree.empty.add "data.json" (.file (Utf8.encode longDocument))).loadChartData "data.json" ≠
      (FileTree.empty.add "data.csv" (.file (Utf8.encode longText))).loadChartData "data.csv" := by
  decide +kernel

end FileTree

end Sparkboard
