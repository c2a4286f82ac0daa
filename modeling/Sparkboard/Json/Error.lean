import Sparkboard.Decimal.Layout
import Sparkboard.Text.Quoted
/-!
# Why JSON text is refused

A text can be no JSON at all, or end too early, or be JSON that does not describe the value asked
for.  Only refusals of the last kind carry a message.
-/

namespace Sparkboard.Json

/-- What stops the reading of a text. -/
inductive Fault where
  /-- The text breaks the grammar. -/
  | malformed
  /-- The text ends before the value does. -/
  | truncated
  deriving DecidableEq, Repr

/-- What a reader found where it expected something else. -/
inductive Found where
  | null
  | bool (value : Bool)
  | integer (value : Int)
  | float (value : Float)
  | string (value : String)
  | sequence
  | map
  deriving DecidableEq, Repr

def Found.floatText (x : Float) : String :=
  match Binary64.ofFloat x with
  | .finite negative m e => String.ofList (Decimal.json negative m e)
  | _ => Decimal.message x

def Found.describe : Found → String
  | null => "null"
  | bool true => "boolean `true`"
  | bool false => "boolean `false`"
  | integer n => s!"integer `{n}`"
  | float x => "floating point `" ++ floatText x ++ "`"
  | string s => "string " ++ Text.quoted s
  | sequence => "sequence"
  | map => "map"

/-- Why a text or a value does not describe what was asked for. -/
inductive Error where
  /-- The text stopped making sense. -/
  | fault (reason : Fault)
  /-- A value of one type stands where another is expected. -/
  | invalidType (found : Found) (expected : String)
  /-- A value of the right type is outside its range. -/
  | invalidValue (found : Found) (expected : String)
  /-- An array given for a record has the wrong number of items. -/
  | invalidLength (length : Nat) (expected : String)
  /-- A name is none of a closed list of variants. -/
  | unknownVariant (name : String) (choices : List String)
  /-- A record that refuses other names has one. -/
  | unknownField (name : String) (choices : List String)
  /-- A field is given twice. -/
  | duplicateField (name : String)
  /-- A field without default is not given. -/
  | missingField (name : String)
  /-- The value was read, and then refused for the reason given. -/
  | refused (reason : String)
  deriving DecidableEq, Repr

namespace Error

/-- A closed list of names as a message shows it. -/
def oneOf (choices : List String) : String :=
  "one of " ++ ", ".intercalate (choices.map fun c => "`" ++ c ++ "`")

/-- The text of a refusal.  Texts that break the grammar are refused without one. -/
def message : Error → String
  | fault _ => ""
  | invalidType found expected => s!"invalid type: {found.describe}, expected {expected}"
  | invalidValue found expected => s!"invalid value: {found.describe}, expected {expected}"
  | invalidLength length expected => s!"invalid length {length}, expected {expected}"
  | unknownVariant name choices => s!"unknown variant `{name}`, expected {oneOf choices}"
  | unknownField name choices => s!"unknown field `{name}`, expected {oneOf choices}"
  | duplicateField name => s!"duplicate field `{name}`"
  | missingField name => s!"missing field `{name}`"
  | refused reason => reason

end Error

end Sparkboard.Json
