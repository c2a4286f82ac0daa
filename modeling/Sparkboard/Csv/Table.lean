import Sparkboard.Csv.Record
import Sparkboard.Decimal.Parse
import Sparkboard.Text.Blank
import Sparkboard.Text.Glyph
/-!
# Tables of comma-separated text

The first record names the columns, and every other record is a row as long as it.  Fields are
trimmed, columns are found by name, and columns of other names are passed over.  A file whose names
are not text has its columns taken by position.
-/

namespace Sparkboard.Csv

open Decimal (NumberError)

/-- What is wrong with a row. -/
inductive RowError where
  /-- The row is not as long as the first record. -/
  | unequalLengths (fields expected : Nat)
  /-- A field is not text from the given byte on. -/
  | notText (field byte : Nat)
  /-- A field is no number. -/
  | number (field : Nat) (reason : NumberError)
  | missingColumn (name : String)
  | duplicateColumn (name : String)
  /-- The row has too few fields to be taken by position. -/
  | shortRow (fields : Nat) (expected : String)
  deriving DecidableEq, Repr

def RowError.message : RowError → String
  | unequalLengths fields expected => s!"{fields} fields, expected {expected}"
  | notText field byte => s!"invalid utf-8: invalid UTF-8 in field {field} near byte index {byte}"
  | number field reason => s!"field {field}: {reason.message}"
  | missingColumn name => s!"missing field `{name}`"
  | duplicateColumn name => s!"duplicate field `{name}`"
  | shortRow fields expected => s!"invalid length {fields}, expected {expected}"

/-- A row that cannot be used: which record it is, counting the names as record 0, and why. -/
structure Error where
  record : Nat
  reason : RowError
  deriving DecidableEq, Repr

/-- A column that is wanted, and how its fields fill a row that is being read. -/
structure Column (σ : Type) where
  name : String
  /-- Has the column been met already? -/
  filled : σ → Bool
  fill : List Char → σ → Except NumberError σ

/-- The rows that are wanted: `σ` is a row while some columns are still missing. -/
structure Layout (σ α : Type) where
  /-- How messages name a row. -/
  title : String
  /-- The columns in the order of their positions. -/
  columns : List (Column σ)
  start : σ
  /-- The finished row, or the first column that is missing. -/
  finish : σ → Except RowError α

def trimBytes (f : Field) : Field :=
  Text.trimBoth Text.isBlankByte f

def trimChars (cs : List Char) : List Char :=
  Text.trimBoth Text.isBlank cs

/-- The names of the columns, unless one is not text. -/
def names? (header : Record) : Option (List String) :=
  header.mapM fun f =>
    (Glyph.chars? (Utf8.decode f)).map fun cs => String.ofList (trimChars cs)

/-- The texts of a row, which starts with field `index`. -/
def texts : Nat → Record → Except RowError (List (List Char))
  | _, [] => .ok []
  | index, f :: rest =>
    let glyphs := Utf8.decode (trimBytes f)
    match Glyph.chars? glyphs with
    | some cs => do
      let others ← texts (index + 1) rest
      return trimChars cs :: others
    | none => .error (.notText index ((Glyph.strayAt? glyphs).getD 0))

namespace Layout

variable {σ α : Type}

def put (column : Column σ) (index : Nat) (field : List Char) (row : σ) : Except RowError σ :=
  match column.fill field row with
  | .ok row => .ok row
  | .error e => .error (.number index e)

def byName (layout : Layout σ α) : Nat → List String → List (List Char) → σ → Except RowError σ
  | index, name :: names, field :: fields, row =>
    match layout.columns.find? fun c => c.name == name with
    | none => byName layout (index + 1) names fields row
    | some column =>
      if column.filled row then .error (.duplicateColumn name)
      else do
        let row ← put column index field row
        byName layout (index + 1) names fields row
  | _, _, _, row => .ok row

def byPosition (layout : Layout σ α) :
    Nat → List (Column σ) → List (List Char) → σ → Except RowError σ
  | _, [], _, row => .ok row
  | index, _ :: _, [], _ =>
    let count := layout.columns.length
    let noun := if count = 1 then "element" else "elements"
    .error (.shortRow index s!"{layout.title} with {count} {noun}")
  | index, column :: columns, field :: fields, row => do
    let row ← put column index field row
    byPosition layout (index + 1) columns fields row

def readRow (layout : Layout σ α) (width : Nat) (names : Option (List String)) (r : Record) :
    Except RowError α := do
  if r.length ≠ width then throw (.unequalLengths r.length width)
  let fields ← texts 0 r
  let row ←
    match names with
    | some names => byName layout 0 names fields layout.start
    | none => byPosition layout 0 layout.columns fields layout.start
  layout.finish row

/-- Reads the records from number `record` on, up to the first that cannot be used. -/
def readRows (layout : Layout σ α) (width : Nat) (names : Option (List String)) :
    Nat → List Record → Except Error (List α)
  | _, [] => .ok []
  | record, r :: rest =>
    match layout.readRow width names r with
    | .error reason => .error ⟨record, reason⟩
    | .ok row => do
      let rows ← readRows layout width names (record + 1) rest
      return row :: rows

def read (layout : Layout σ α) (bytes : List UInt8) : Except Error (List α) :=
  match records bytes with
  | [] => .ok []
  | header :: rows => layout.readRows header.length (names? header) 1 rows

end Layout

def require {α : Type} (name : String) : Option α → Except RowError α
  | some a => .ok a
  | none => .error (.missingColumn name)

def Column.text {σ : Type} (name : String) (get : σ → Option String) (set : String → σ → σ) :
    Column σ where
  name := name
  filled row := (get row).isSome
  fill field row := .ok (set (String.ofList field) row)

/-- A field as a whole number, in base sixteen behind `0x`. -/
def integer (s : List Char) : Except NumberError Int :=
  match s with
  | '0' :: 'x' :: digits => Decimal.parseInteger 16 digits
  | digits => Decimal.parseInteger 10 digits

def Column.number {σ β : Type} (name : String) (read : List Char → Except NumberError β)
    (get : σ → Option β) (set : β → σ → σ) : Column σ where
  name := name
  filled row := (get row).isSome
  fill field row := (read field).map fun b => set b row

end Sparkboard.Csv
