import Sparkboard.Json.Error
import Sparkboard.Json.Number
import Sparkboard.Text.Glyph
/-!
# JSON text as a tree

A text is read into a tree as far as it makes sense: a tree ends in a *cut* where the text does not.
A reader of values walks the tree in the order of the text, so what it objects to before the cut is
reported before the cut is.

Some things are wrong only for a reader that wants them: a number too large for a float, a string
with half a surrogate pair or with stray bytes.  They have nodes of their own, which may be passed
over.
-/

namespace Sparkboard.Json

/-- Where a text stops making sense, as three kinds of readers report it. -/
structure Cut where
  /-- Reported by a reader that wanted the value. -/
  read : Fault
  /-- Reported by a reader that was passing over the value. -/
  skipped : Fault
  /-- Reported by a reader of a variant, who looks at one character only where a name or the end of
  the variant has to stand. -/
  named : Fault
  deriving DecidableEq, Repr

/-- A cut that all readers report alike. -/
def Cut.plain (f : Fault) : Cut := ⟨f, f, f⟩

/-- A cut behind a character at which a reader of a variant stops: the first of a number or a word,
or a comma. -/
def Cut.behind (f : Fault) : Cut := ⟨f, f, .malformed⟩

mutual

/-- A value as it stands in a text. -/
inductive Node where
  | null
  | bool (value : Bool)
  /-- A whole number that fits 64 bits, with a sign or without. -/
  | integer (value : Int)
  | float (value : Float)
  /-- A number too large for a float. -/
  | outOfRange
  | string (value : String)
  /-- A string that ends in a quote and yet spells no characters. -/
  | unreadable
  | array (items : Items)
  | object (members : Members)
  | cut (c : Cut)

/-- The items of an array. -/
inductive Items where
  | close
  | cut (c : Cut)
  | item (value : Node) (rest : Items)

/-- The members of an object.  A name that spells no characters is `none`. -/
inductive Members where
  | close
  | cut (c : Cut)
  | member (key : Option String) (value : Node) (rest : Members)

end

namespace Node

def isBlank (c : Char) : Bool :=
  c = ' ' || c = '\t' || c = '\n' || c = '\r'

def skipBlanks : List Glyph → List Glyph
  | .char c :: rest => if isBlank c then skipBlanks rest else .char c :: rest
  | s => s

/-! ## Numbers -/

def takeDigits : List Glyph → List Char × List Glyph
  | .char c :: rest =>
    if Decimal.isDigit c then ((c :: (takeDigits rest).1), (takeDigits rest).2)
    else ([], .char c :: rest)
  | s => ([], s)

/-- The cut of a number that lacks a digit: at the end of the text, a reader that wants the number
sees it truncated. -/
def lacksDigit (rest : List Glyph) : Cut :=
  match rest with
  | [] => ⟨.truncated, .malformed, .malformed⟩
  | _ => .plain .malformed

/-- The node of a float; `none` stands for one that is too large. -/
def ofFloat? : Option Float → Node
  | some x => float x
  | none => outOfRange

/-- The node of a number without fraction or exponent.  What does not fit 64 bits is a float, and so
is a negative zero. -/
def ofDigits (negative : Bool) (digits : List Char) : Node :=
  let n := Decimal.value digits
  if Nat.pow 2 64 ≤ n then ofFloat? ((Significand.of digits []).float? negative)
  else if negative then
    if n = 0 || Nat.pow 2 63 < n then float (-n.toUInt64.toFloat) else integer (-(n : Int))
  else integer n

/-- The part of a number after its digits: the exponent, if there is one.  `places?` are the digits
after the point, if there is a point. -/
def ofExponent (negative : Bool) (whole : List Char) (places? : Option (List Char))
    (s : List Glyph) : Node × List Glyph :=
  let significand := Significand.of whole (places?.getD [])
  let plain : Node :=
    match places? with
    | none => ofDigits negative whole
    | some _ => ofFloat? (significand.float? negative)
  match s with
  | .char c :: rest =>
    if c = 'e' || c = 'E' then
      let (minus, rest) : Bool × List Glyph :=
        match rest with
        | .char '+' :: rest => (false, rest)
        | .char '-' :: rest => (true, rest)
        | _ => (false, rest)
      match takeDigits rest with
      | ([], rest) => (cut (lacksDigit rest), rest)
      | (power, rest) =>
        (ofFloat? (significand.raised? negative minus (Decimal.value power)), rest)
    else (plain, s)
  | _ => (plain, s)

/-- A number, after its sign. -/
def ofUnsigned (negative : Bool) (s : List Glyph) : Node × List Glyph :=
  match takeDigits s with
  | ([], rest) => (cut (lacksDigit rest), rest)
  | ('0' :: _ :: _, rest) => (cut (.plain .malformed), rest)
  | (whole, .char '.' :: rest) =>
    match takeDigits rest with
    | ([], rest) => (cut (lacksDigit rest), rest)
    | (places, rest) => ofExponent negative whole (some places) rest
  | (whole, rest) => ofExponent negative whole none rest

/-! ## Strings -/

def hexValue? (c : Char) : Option Nat :=
  if '0' ≤ c ∧ c ≤ '9' then some (c.toNat - '0'.toNat)
  else if 'a' ≤ c ∧ c ≤ 'f' then some (c.toNat - 'a'.toNat + 10)
  else if 'A' ≤ c ∧ c ≤ 'F' then some (c.toNat - 'A'.toNat + 10)
  else none

/-- The four hexadecimal digits of an escape.  Fewer than four bytes before the end of the text
truncate it. -/
def takeUnit (s : List Glyph) : Except Fault (Nat × List Glyph) :=
  let size := (s.take 4).foldr (fun g size => g.size + size) 0
  let fault : Fault := if size < 4 then .truncated else .malformed
  match s with
  | .char a :: .char b :: .char c :: .char d :: rest =>
    match hexValue? a, hexValue? b, hexValue? c, hexValue? d with
    | some a, some b, some c, some d => .ok (((a * 16 + b) * 16 + c) * 16 + d, rest)
    | _, _, _, _ => .error fault
  | _ => .error fault

/-- The character that a letter after a backslash stands for. -/
def shortEscape? (c : Char) : Option Char :=
  if c = '"' || c = '\\' || c = '/' then some c
  else if c = 'b' then some '\x08'
  else if c = 'f' then some '\x0c'
  else if c = 'n' then some '\n'
  else if c = 'r' then some '\r'
  else if c = 't' then some '\t'
  else none

/-- The rest of an escape `\u`: one character, or two units that form a surrogate pair.  `none`
stands for half a pair, which spells no character. -/
def takeEscaped (s : List Glyph) : Except Fault (Option Char × List Glyph) := do
  let (high, rest) ← takeUnit s
  if high < 0xD800 || 0xDFFF < high then return (some (Char.ofNat high), rest)
  if 0xDC00 ≤ high then return (none, rest)
  match rest with
  | [] => .error .truncated
  | .char '\\' :: [] => .error .truncated
  | .char '\\' :: .char 'u' :: rest =>
    let (low, rest) ← takeUnit rest
    if low < 0xDC00 || 0xDFFF < low then return (none, rest)
    return (some (Char.ofNat (0x10000 + (high - 0xD800) * 1024 + (low - 0xDC00))), rest)
  | _ => return (none, rest)

/-- How the body of a string ends for a reader that passes over it: after the closing quote, or at
a fault. -/
def passString : Nat → List Glyph → Except Fault (List Glyph)
  | 0, _ => .error .truncated
  | _, [] => .error .truncated
  | fuel + 1, .stray _ :: rest => passString fuel rest
  | fuel + 1, .char c :: rest =>
    if c = '"' then .ok rest
    else if c = '\\' then
      match rest with
      | [] => .error .truncated
      | .char 'u' :: rest =>
        match takeUnit rest with
        | .ok (_, rest) => passString fuel rest
        | .error f => .error f
      | .char e :: rest =>
        if (shortEscape? e).isSome then passString fuel rest else .error .malformed
      | .stray _ :: _ => .error .malformed
    else if c.toNat < 0x20 then .error .malformed
    else passString fuel rest

/-- What the body of a string spells, up to the closing quote.  Half a surrogate pair is a fault on
the spot; a stray byte (`clean` is then false) is one at the closing quote. -/
def spellString (clean : Bool) : Nat → List Glyph → Except Fault (List Char)
  | 0, _ => .error .truncated
  | _, [] => .error .truncated
  | fuel + 1, .stray _ :: rest => spellString false fuel rest
  | fuel + 1, .char c :: rest =>
    if c = '"' then (if clean then .ok [] else .error .malformed)
    else if c = '\\' then
      match rest with
      | [] => .error .truncated
      | .char 'u' :: rest =>
        match takeEscaped rest with
        | .ok (some c, rest) => (spellString clean fuel rest).map (c :: ·)
        | .ok (none, _) => .error .malformed
        | .error f => .error f
      | .char e :: rest =>
        match shortEscape? e with
        | some c => (spellString clean fuel rest).map (c :: ·)
        | none => .error .malformed
      | .stray _ :: _ => .error .malformed
    else if c.toNat < 0x20 then .error .malformed
    else (spellString clean fuel rest).map (c :: ·)

/-- A string after its opening quote: what it spells if it spells anything, and the text behind it.
Each step takes a glyph, so more fuel than glyphs suffices. -/
def takeString (fuel : Nat) (s : List Glyph) : Except Cut (Option String × List Glyph) :=
  match spellString true fuel s, passString fuel s with
  | .ok cs, .ok rest => .ok (some (String.ofList cs), rest)
  | .error _, .ok rest => .ok (none, rest)
  | .error read, .error skipped => .error ⟨read, skipped, read⟩
  | .ok _, .error skipped => .error (.plain skipped)

/-! ## Values -/

/-- The rest of one of the words `null`, `true`, `false`. -/
def takeWord (value : Node) : List Char → List Glyph → Node × List Glyph
  | [], rest => (value, rest)
  | _ :: _, [] => (cut (.behind .truncated), [])
  | w :: ws, g :: rest =>
    if g = .char w then takeWord value ws rest else (cut (.plain .malformed), rest)

mutual

/-- The value in front of a text, and the text behind it.  Nothing is read behind a cut. -/
def takeValue : Nat → List Glyph → Node × List Glyph
  | 0, s => (cut (.plain .malformed), s)
  | fuel + 1, s =>
    match skipBlanks s with
    | [] => (cut (.plain .truncated), [])
    | .stray _ :: rest => (cut (.plain .malformed), rest)
    | .char c :: rest =>
      if c = 'n' then takeWord null ['u', 'l', 'l'] rest
      else if c = 't' then takeWord (bool true) ['r', 'u', 'e'] rest
      else if c = 'f' then takeWord (bool false) ['a', 'l', 's', 'e'] rest
      else if c = '-' then ofUnsigned true rest
      else if Decimal.isDigit c then ofUnsigned false (.char c :: rest)
      else if c = '"' then
        match takeString fuel rest with
        | .ok (some text, rest) => (string text, rest)
        | .ok (none, rest) => (unreadable, rest)
        | .error c => (cut c, [])
      else if c = '[' then
        let (items, rest) := takeItems fuel true rest
        (array items, rest)
      else if c = '\x7b' then
        let (members, rest) := takeMembers fuel true rest
        (object members, rest)
      else (cut (.plain .malformed), rest)

/-- The items of an array up to its closing bracket.  All but the first follow a comma. -/
def takeItems : Nat → Bool → List Glyph → Items × List Glyph
  | 0, _, s => (.cut (.plain .malformed), s)
  | fuel + 1, first, s =>
    let next (s : List Glyph) : Items × List Glyph :=
      let (value, rest) := takeValue fuel s
      let (items, rest) := takeItems fuel false rest
      (.item value items, rest)
    match skipBlanks s with
    | [] => (.cut (.plain .truncated), [])
    | .char ']' :: rest => (.close, rest)
    | .char ',' :: rest => if first then (.cut (.plain .malformed), rest) else next rest
    | rest => if first then next rest else (.cut (.plain .malformed), rest)

/-- The members of an object up to its closing brace.  All but the first follow a comma. -/
def takeMembers : Nat → Bool → List Glyph → Members × List Glyph
  | 0, _, s => (.cut (.plain .malformed), s)
  | fuel + 1, first, s =>
    let next (s : List Glyph) : Members × List Glyph :=
      match skipBlanks s with
      | [] => (.cut (.behind .truncated), [])
      | .char '"' :: rest =>
        match takeString fuel rest with
        | .error c => (.cut (if first then c else { c with named := .malformed }), [])
        | .ok (key, rest) =>
          match skipBlanks rest with
          | [] => (.member key (cut (.plain .truncated)) .close, [])
          | .char ':' :: rest =>
            let (value, rest) := takeValue fuel rest
            let (members, rest) := takeMembers fuel false rest
            (.member key value members, rest)
          | rest => (.member key (cut (.plain .malformed)) .close, rest)
      | rest => (.cut (.plain .malformed), rest)
    match skipBlanks s with
    | [] => (.cut (.plain .truncated), [])
    | .char '\x7d' :: rest => (.close, rest)
    | .char ',' :: rest => if first then (.cut (.plain .malformed), rest) else next rest
    | rest => if first then next rest else (.cut (.plain .malformed), rest)

end

end Node

/-- A whole text: its value, and whether nothing but blanks stands behind it. -/
structure Document where
  root : Node
  ended : Bool

/-- Reads a text.  Each value takes at least one glyph, and each step into a list one more, so twice
the length bounds the depth of the reading. -/
def Document.ofGlyphs (s : List Glyph) : Document :=
  let (root, rest) := Node.takeValue (2 * s.length + 2) s
  ⟨root, (Node.skipBlanks rest).isEmpty⟩

def Document.ofString (s : String) : Document :=
  Document.ofGlyphs (Glyph.ofString s)

end Sparkboard.Json
