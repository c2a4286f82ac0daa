import Sparkboard.Json.Node
/-!
# Readers of JSON values

A reader takes a value out of a tree.  It visits the tree in the order of the text and stops at the
first thing it objects to.

A record is given as an object, or as an array of its fields in their declared order.  A variant is
given by its name, or as an object whose one member has that name and the value `null`.
-/

namespace Sparkboard.Json

/-- Where a tree comes from.  Surplus items and misplaced values break the grammar of a text that is
read for one type; in a value that was read already they are errors like others. -/
inductive Source where
  | text
  | value
  deriving DecidableEq, Repr

/-- Takes a value out of a tree. -/
abbrev Reader (α : Type) := Source → Node → Except Error α

mutual

def Node.skipFault? : Node → Option Fault
  | .cut c => some c.skipped
  | .array items => items.skipFault?
  | .object members => members.skipFault?
  | _ => none

/-- The fault that a reader meets who passes over the items of an array. -/
def Items.skipFault? : Items → Option Fault
  | .close => none
  | .cut c => some c.skipped
  | .item value rest => value.skipFault?.or rest.skipFault?

/-- The fault that a reader meets who passes over the members of an object. -/
def Members.skipFault? : Members → Option Fault
  | .close => none
  | .cut c => some c.skipped
  | .member _ value rest => value.skipFault?.or rest.skipFault?

end

def Node.objection (expected : String) : Node → Error
  | .null => .invalidType .null expected
  | .bool b => .invalidType (.bool b) expected
  | .integer n => .invalidType (.integer n) expected
  | .float x => .invalidType (.float x) expected
  | .string s => .invalidType (.string s) expected
  | .array _ => .invalidType .sequence expected
  | .object _ => .invalidType .map expected
  | .outOfRange => .fault .malformed
  | .unreadable => .fault .malformed
  | .cut c => .fault c.read

namespace Reader

/-- A float; a whole number will do. -/
def float : Reader Float := fun _ node =>
  match node with
  | .float x => .ok x
  | .integer n => .ok (Float.ofInt n)
  | node => .error (node.objection "f64")

/-- A whole number below `limit`, from the type named `title`. -/
def natural (limit : Nat) (title : String) : Reader Nat := fun _ node =>
  match node with
  | .integer n =>
    if 0 ≤ n ∧ n < limit then .ok n.toNat else .error (.invalidValue (.integer n) title)
  | node => .error (node.objection title)

def word32 : Reader Nat := natural (Nat.pow 2 32) "u32"

def word64 : Reader Nat := natural (Nat.pow 2 64) "u64"

def bool : Reader Bool := fun _ node =>
  match node with
  | .bool b => .ok b
  | node => .error (node.objection "a boolean")

def string : Reader String := fun _ node =>
  match node with
  | .string s => .ok s
  | node => .error (node.objection "a string")

/-- The value `null`, where nothing else is expected. -/
def unit : Reader Unit := fun _ node =>
  match node with
  | .null => .ok ()
  | node => .error (node.objection "unit")

/-- What `r` reads, or nothing for `null`. -/
def optional {α : Type} (r : Reader α) : Reader (Option α) := fun source node =>
  match node with
  | .null => .ok none
  | node => (r source node).map some

/-- The items of an array, each as `r` reads it. -/
def items {α : Type} (r : Reader α) (source : Source) : Items → Except Error (List α)
  | .close => .ok []
  | .cut c => .error (.fault c.read)
  | .item value rest => do
    let a ← r source value
    let as ← items r source rest
    return a :: as

def list {α : Type} (r : Reader α) : Reader (List α) := fun source node =>
  match node with
  | .array is => items r source is
  | node => .error (node.objection "a sequence")

/-- Passes what `r` reads through a check. -/
def refine {α β : Type} (r : Reader α) (check : α → Except String β) : Reader β :=
  fun source node => do
    match check (← r source node) with
    | .ok b => return b
    | .error reason => throw (.refused reason)

/-! ## Variants -/

def choose {α : Type} (choices : List (String × α)) (name : String) : Except Error α :=
  match choices.lookup name with
  | some a => .ok a
  | none => .error (.unknownVariant name (choices.map Prod.fst))

def variant {α : Type} (choices : List (String × α)) : Reader α := fun source node =>
  match source, node with
  | _, .string s => choose choices s
  | .text, .object (.member (some name) payload rest) => do
    let a ← choose choices name
    unit source payload
    match rest with
    | .close => return a
    | .cut c => throw (.fault c.named)
    | _ => throw (.fault .malformed)
  | .text, .object (.cut c) => .error (.fault c.read)
  | .text, .cut c => .error (.fault c.named)
  | .text, _ => .error (.fault .malformed)
  | .value, .object (.member (some name) payload .close) => do
    let a ← choose choices name
    unit source payload
    return a
  | .value, .object _ => .error (.invalidValue .map "map with a single key")
  | .value, node => .error (node.objection "string or map")

/-! ## Records -/

/-- A field of a record, and how it fills a record that is being read. -/
structure Slot (σ : Type) where
  name : String
  /-- Has the field been read already? -/
  filled : σ → Bool
  fill : Source → Node → σ → Except Error σ

/-- How a record is read: `σ` is the record while some fields are still missing. -/
structure Shape (σ α : Type) where
  /-- How messages name the record. -/
  title : String
  /-- The fields in their declared order. -/
  slots : List (Slot σ)
  /-- The record before any field is read. -/
  start : σ
  /-- The finished record, or the first field that is missing. -/
  finish : σ → Except Error α
  /-- Fields may be missing at the end of an array. -/
  mayBeShort : Bool := false
  /-- Members of other names are errors. -/
  refusesOthers : Bool := false

/-- A field that is read by `r` and kept where `get` and `set` say. -/
def Slot.of {σ α : Type} (name : String) (r : Reader α) (get : σ → Option α)
    (set : α → σ → σ) : Slot σ where
  name := name
  filled s := (get s).isSome
  fill source node s := (r source node).map fun a => set a s

def require {α : Type} (name : String) : Option α → Except Error α
  | some a => .ok a
  | none => .error (.missingField name)

/-- Reads the members of an object.  A second member of a field's name is an error before its value
is looked at. -/
def members {σ α : Type} (shape : Shape σ α) (source : Source) : Members → σ → Except Error σ
  | .close, s => .ok s
  | .cut c, _ => .error (.fault c.read)
  | .member none _ _, _ => .error (.fault .malformed)
  | .member (some name) value rest, s =>
    match shape.slots.find? fun slot => slot.name == name with
    | some slot =>
      if slot.filled s then .error (.duplicateField name)
      else do
        let s ← slot.fill source value s
        members shape source rest s
    | none =>
      if shape.refusesOthers then .error (.unknownField name (shape.slots.map Slot.name))
      else match value.skipFault? with
        | some f => .error (.fault f)
        | none => members shape source rest s

/-- How messages count the fields of a record. -/
def elements (title : String) (count : Nat) : String :=
  if count = 1 then s!"{title} with 1 element" else s!"{title} with {count} elements"

def count : Items → Nat
  | .item _ rest => count rest + 1
  | _ => 0

/-- Reads the items of an array into the fields not yet filled. -/
def row {σ α : Type} (shape : Shape σ α) (source : Source) (all : Items) :
    List (Slot σ) → Items → σ → Except Error σ
  | [], .close, s => .ok s
  | [], .cut c, _ => .error (.fault c.read)
  | [], .item _ _, _ =>
    match source with
    | .text => .error (.fault .malformed)
    | .value => .error (.invalidLength (count all) "fewer elements in array")
  | missing, .close, s =>
    if shape.mayBeShort then .ok s
    else .error (.invalidLength (shape.slots.length - missing.length)
      (elements shape.title shape.slots.length))
  | _, .cut c, _ => .error (.fault c.read)
  | slot :: slots, .item value rest, s => do
    let s ← slot.fill source value s
    row shape source all slots rest s

/-- A record, from an object or an array. -/
def record {σ α : Type} (shape : Shape σ α) : Reader α := fun source node =>
  match node with
  | .object ms => do shape.finish (← members shape source ms shape.start)
  | .array is => do shape.finish (← row shape source is shape.slots is shape.start)
  | node => .error (node.objection shape.title)

end Reader

/-- Reads a whole text.  What stands behind the value is looked at last. -/
def Document.read {α : Type} (r : Reader α) (document : Document) : Except Error α := do
  let a ← r .text document.root
  if document.ended then return a else throw (.fault .malformed)

def parse {α : Type} (r : Reader α) (s : String) : Except Error α :=
  (Document.ofString s).read r

end Sparkboard.Json
