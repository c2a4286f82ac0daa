import Sparkboard.Decimal.Layout
/-!
# JSON values and their text

A value that the library writes, and its two spellings: compact, on one line, and indented.  A float
without a decimal (NaN, an infinity) is written `null`.
-/

namespace Sparkboard

/-- A JSON value.  Whole numbers and floats are kept apart, since they are written differently. -/
inductive Json where
  | null
  | bool (value : Bool)
  | integer (value : Int)
  | float (value : Float)
  | string (value : String)
  | array (items : List Json)
  | object (members : List (String × Json))

namespace Json

/-- One of the sixteen lower-case hexadecimal digits. -/
def hexDigit (n : Nat) : Char :=
  Nat.digitChar n

/-- A character as it stands between quotes.  Quote, backslash and the control characters below
the space are escaped, by a letter where there is one. -/
def escape (c : Char) : List Char :=
  if c = '"' then ['\\', '"']
  else if c = '\\' then ['\\', '\\']
  else if c = '\x08' then ['\\', 'b']
  else if c = '\x0c' then ['\\', 'f']
  else if c = '\n' then ['\\', 'n']
  else if c = '\r' then ['\\', 'r']
  else if c = '\t' then ['\\', 't']
  else if c.toNat < 0x20 then
    ['\\', 'u', '0', '0', hexDigit (c.toNat / 16), hexDigit (c.toNat % 16)]
  else [c]

def quoted (s : String) : List Char :=
  '"' :: (s.toList.flatMap escape ++ ['"'])

/-- A float, or `null` for one that is not a number or infinite. -/
def floatText (x : Float) : List Char :=
  match Binary64.ofFloat x with
  | .finite negative m e => Decimal.json negative m e
  | _ => "null".toList

/-- A line break followed by the indentation of `depth` levels. -/
def newline (depth : Nat) : List Char :=
  '\n' :: List.replicate (2 * depth) ' '

mutual

/-- The text of a value on one line, without any blank. -/
def compactChars : Json → List Char
  | null => "null".toList
  | bool true => "true".toList
  | bool false => "false".toList
  | integer n => Decimal.integer n
  | float x => floatText x
  | string s => quoted s
  | array [] => ['[', ']']
  | array (v :: vs) => '[' :: (compactChars v ++ compactItems vs)
  | object [] => ['\x7b', '\x7d']
  | object ((k, v) :: ms) => '\x7b' :: (quoted k ++ ':' :: (compactChars v ++ compactMembers ms))

/-- The items of an array after the first, and the closing bracket. -/
def compactItems : List Json → List Char
  | [] => [']']
  | v :: vs => ',' :: (compactChars v ++ compactItems vs)

/-- The members of an object after the first, and the closing brace. -/
def compactMembers : List (String × Json) → List Char
  | [] => ['\x7d']
  | (k, v) :: ms => ',' :: (quoted k ++ ':' :: (compactChars v ++ compactMembers ms))

end

mutual

/-- The text of a value over several lines, two blanks for each level below `depth`.  An empty array
or object stays on one line. -/
def prettyChars (depth : Nat) : Json → List Char
  | array (v :: vs) =>
    '[' :: (newline (depth + 1) ++ prettyChars (depth + 1) v ++ prettyItems depth vs)
  | object ((k, v) :: ms) =>
    '\x7b' :: (newline (depth + 1) ++ quoted k ++ ':' :: ' ' :: prettyChars (depth + 1) v ++
      prettyMembers depth ms)
  | null => "null".toList
  | bool true => "true".toList
  | bool false => "false".toList
  | integer n => Decimal.integer n
  | float x => floatText x
  | string s => quoted s
  | array [] => ['[', ']']
  | object [] => ['\x7b', '\x7d']

/-- The items of an indented array after the first, and the closing bracket on its own line. -/
def prettyItems (depth : Nat) : List Json → List Char
  | [] => newline depth ++ [']']
  | v :: vs => ',' :: (newline (depth + 1) ++ prettyChars (depth + 1) v ++ prettyItems depth vs)

/-- The members of an indented object after the first, and the closing brace on its own line. -/
def prettyMembers (depth : Nat) : List (String × Json) → List Char
  | [] => newline depth ++ ['\x7d']
  | (k, v) :: ms =>
    ',' :: (newline (depth + 1) ++ quoted k ++ ':' :: ' ' :: prettyChars (depth + 1) v ++
      prettyMembers depth ms)

end

def compact (v : Json) : String :=
  String.ofList v.compactChars

def pretty (v : Json) : String :=
  String.ofList (v.prettyChars 0)

end Json

end Sparkboard
