import Sparkboard.Decimal.Shortest
/-!
# Texts of floats

A float is written in one of three ways: in a message (always positional, no point after a whole
number), in JSON (a point or an exponent, so that the reader sees a float), and as a coordinate (two
places, with what they do not need trimmed from the end).
-/

namespace Sparkboard.Decimal

/-- The digits of `d` without exponent. -/
def positional (d : Scaled) : List Char :=
  let ds := digits d.digits
  match d.exponent with
  | .ofNat e => ds ++ List.replicate e '0'
  | .negSucc e =>
    let places := e + 1
    if places < ds.length then
      ds.take (ds.length - places) ++ '.' :: ds.drop (ds.length - places)
    else '0' :: '.' :: (List.replicate (places - ds.length) '0' ++ ds)

/-- The digits of `d` with a point after the first and an exponent that shows its sign. -/
def scientific (d : Scaled) : List Char :=
  let ds := digits d.digits
  let power := d.exponent + ds.length - 1
  let sign := if power < 0 then '-' else '+'
  let fraction := if ds.length ≤ 1 then [] else '.' :: ds.drop 1
  ds.take 1 ++ fraction ++ 'e' :: sign :: digits power.natAbs

/-- Puts a minus in front of a negative number. -/
def signed (negative : Bool) (text : List Char) : List Char :=
  if negative then '-' :: text else text

/-- A float in a message: the fewest digits that read back, never an exponent, and a value half-way
between two candidates goes up. -/
def message (x : Float) : String :=
  match Binary64.ofFloat x with
  | .nan => "NaN"
  | .infinite negative => String.ofList (signed negative "inf".toList)
  | .finite negative 0 _ => String.ofList (signed negative ['0'])
  | .finite negative m e => String.ofList (signed negative (positional (shortest .up m e)))

/-- A finite float in JSON: the fewest digits that read back, positional from `1e-5` up to below
`1e16` and then always with a point, with an exponent elsewhere; a value half-way between two
candidates goes to the even one. -/
def json (negative : Bool) (mantissa : Nat) (exponent : Int) : List Char :=
  if mantissa = 0 then signed negative ['0', '.', '0']
  else
    let d := shortest .toEven mantissa exponent
    let power := d.exponent + (digits d.digits).length - 1
    if -5 ≤ power ∧ power < 16 then
      let text := positional d
      signed negative (if 0 ≤ d.exponent then text ++ ['.', '0'] else text)
    else signed negative (scientific d)

def twoPlaces (n : Nat) : List Char :=
  let tenth := Char.ofNat ('0'.toNat + n / 10 % 10)
  let last := Char.ofNat ('0'.toNat + n % 10)
  digits (n / 100) ++ ['.', tenth, last]

/-- A float with two places: the exact value rounded to hundredths, a half going to the even
neighbour. -/
def fixed (x : Float) : List Char :=
  match Binary64.ofFloat x with
  | .nan => "NaN".toList
  | .infinite negative => signed negative "inf".toList
  | .finite negative m e => signed negative (twoPlaces (roundScaled .toEven (100 * m) e))

/-- The text without the characters `c` at its end. -/
def trimEnd (c : Char) : List Char → List Char
  | [] => []
  | a :: s => if trimEnd c s = [] ∧ a = c then [] else a :: trimEnd c s

/-- A coordinate: two places without the zeros at their end, and then without a point at the end. -/
def coordinate (x : Float) : String :=
  String.ofList (trimEnd '.' (trimEnd '0' (fixed x)))

end Sparkboard.Decimal
