import Sparkboard.Decimal.Digits
/-!
# Reading numbers

Texts are read as floats or as whole numbers of 64 bits with a sign.  Floats may be written without
digits on one side of the point, and the words for infinities and for what is no number are known in
any mixture of cases.
-/

namespace Sparkboard.Decimal

/-- Why a text is no number. -/
inductive NumberError where
  | emptyFloat
  | invalidFloat
  | emptyInteger
  | invalidDigit
  | tooLarge
  | tooSmall
  deriving DecidableEq, Repr

def NumberError.message : NumberError → String
  | emptyFloat => "cannot parse float from empty string"
  | invalidFloat => "invalid float literal"
  | emptyInteger => "cannot parse integer from empty string"
  | invalidDigit => "invalid digit found in string"
  | tooLarge => "number too large to fit in target type"
  | tooSmall => "number too small to fit in target type"

/-- Takes a sign, if there is one; `true` stands for a minus. -/
def takeSign : List Char → Bool × List Char
  | '-' :: rest => (true, rest)
  | '+' :: rest => (false, rest)
  | s => (false, s)

/-- The exponent of a float, with all that stands behind the mantissa. -/
def exponent? : List Char → Option Int
  | [] => some 0
  | e :: rest =>
    if e = 'e' || e = 'E' then
      let (negative, digits) := takeSign rest
      if digits.isEmpty || !digits.all isDigit then none
      else some (if negative then -(value digits : Int) else value digits)
    else none

/-- A float without its sign: digits, a point somewhere, an exponent. -/
def unsignedFloat? (negative : Bool) (s : List Char) : Option Float := do
  let whole := s.takeWhile isDigit
  let rest := s.dropWhile isDigit
  let (places, rest) : List Char × List Char :=
    match rest with
    | '.' :: rest => (rest.takeWhile isDigit, rest.dropWhile isDigit)
    | _ => ([], rest)
  guard (!(whole ++ places).isEmpty)
  let power ← exponent? rest
  return toFloat negative (value (whole ++ places)) (power - places.length)

def parseFloat (s : List Char) : Except NumberError Float :=
  if s.isEmpty then .error .emptyFloat
  else
    let (negative, rest) := takeSign s
    let word := String.ofList (rest.map Char.toLower)
    let infinity : Float := if negative then -1.0 / 0.0 else 1.0 / 0.0
    if word = "inf" || word = "infinity" then .ok infinity
    else if word = "nan" then .ok (0.0 / 0.0)
    else match unsignedFloat? negative rest with
      | some x => .ok x
      | none => .error .invalidFloat

/-- What a digit of base sixteen or less is worth in a base. -/
def digitIn? (base : Nat) (c : Char) : Option Nat :=
  let worth :=
    if isDigit c then some (digitValue c)
    else if 'a' ≤ c ∧ c ≤ 'f' then some (c.toNat - 'a'.toNat + 10)
    else if 'A' ≤ c ∧ c ≤ 'F' then some (c.toNat - 'A'.toNat + 10)
    else none
  worth.filter (· < base)

/-- Appends digits to a number that must not exceed `limit`.  The first character that is wrong or
too much is reported. -/
def appendDigits (base limit : Nat) (excess : NumberError) :
    Nat → List Char → Except NumberError Nat
  | n, [] => .ok n
  | n, c :: rest =>
    match digitIn? base c with
    | none => .error .invalidDigit
    | some d =>
      if limit < n * base + d then .error excess
      else appendDigits base limit excess (n * base + d) rest

/-- A text as a whole number of 64 bits, in a base. -/
def parseInteger (base : Nat) (s : List Char) : Except NumberError Int :=
  match s with
  | [] => .error .emptyInteger
  | ['-'] => .error .invalidDigit
  | ['+'] => .error .invalidDigit
  | '-' :: digits => (appendDigits base (Nat.pow 2 63) .tooSmall 0 digits).map fun n => -(n : Int)
  | '+' :: digits => (appendDigits base (Nat.pow 2 63 - 1) .tooLarge 0 digits).map Int.ofNat
  | digits => (appendDigits base (Nat.pow 2 63 - 1) .tooLarge 0 digits).map Int.ofNat

end Sparkboard.Decimal
