/-!
# Records of comma-separated text

Bytes are split into records and records into fields.  A comma ends a field; a carriage return or a
line feed ends a record, and where no record has begun it is passed over.  A field that starts with
a quote goes on to the next single quote, whatever stands between; two quotes in it stand for one.
-/

namespace Sparkboard.Csv

/-- The bytes of one field. -/
abbrev Field := List UInt8

/-- The fields of one record. -/
abbrev Record := List Field

def comma : UInt8 := 0x2C

def quote : UInt8 := 0x22

/-- Does the byte end a record? -/
def isBreak (b : UInt8) : Bool :=
  b == 0x0A || b == 0x0D

/-- Where the splitting stands. -/
inductive State where
  /-- No record has begun. -/
  | between
  /-- A field is about to begin. -/
  | atField
  /-- In a field outside quotes. -/
  | plain
  /-- In a quoted field. -/
  | quoted
  /-- Behind a quote in a quoted field: the end of the quotes, or the first of two. -/
  | afterQuote
  deriving DecidableEq, Repr

/-- What a byte does. -/
inductive Action where
  /-- It is dropped. -/
  | drop (next : State)
  /-- It belongs to the field. -/
  | keep (next : State)
  | endField
  | endRecord
  deriving DecidableEq, Repr

/-- What a byte does outside quotes: a comma and a line end are taken for what they are. -/
def outside (b : UInt8) (other : Action) : Action :=
  if b == comma then .endField else if isBreak b then .endRecord else other

def action (state : State) (b : UInt8) : Action :=
  match state with
  | .between =>
    if isBreak b then .drop .between
    else if b == quote then .drop .quoted
    else outside b (.keep .plain)
  | .atField => if b == quote then .drop .quoted else outside b (.keep .plain)
  | .plain => outside b (.keep .plain)
  | .quoted => if b == quote then .drop .afterQuote else .keep .quoted
  | .afterQuote => if b == quote then .keep .quoted else outside b (.keep .plain)

/-- Splits bytes into records; `field` and `fields` hold what the current record has so far, last
first.  The end of the bytes ends a record that has begun. -/
def split (state : State) (field : Field) (fields : List Field) : List UInt8 → List Record
  | [] => if state = .between then [] else [(field.reverse :: fields).reverse]
  | b :: rest =>
    match action state b with
    | .drop next => split next field fields rest
    | .keep next => split next (b :: field) fields rest
    | .endField => split .atField [] (field.reverse :: fields) rest
    | .endRecord => (field.reverse :: fields).reverse :: split .between [] [] rest

/-- Drops the byte order mark with which a text may begin. -/
def dropMark : List UInt8 → List UInt8
  | 0xEF :: 0xBB :: 0xBF :: rest => rest
  | bytes => bytes

def records (bytes : List UInt8) : List Record :=
  split .between [] [] (dropMark bytes)

end Sparkboard.Csv
