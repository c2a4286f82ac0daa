/-!
# Glyphs

What a run of bytes says when it is read as UTF-8 text: characters, and stray bytes that belong to
no character.  A reader of files works on glyphs, so a stray byte is a thing it can meet and report
instead of a reason to refuse the whole file.
-/

namespace Sparkboard

/-- One unit of a text that was read from bytes. -/
inductive Glyph where
  /-- A character. -/
  | char (c : Char)
  /-- A byte that is not part of any well-formed character. -/
  | stray (byte : UInt8)
  deriving DecidableEq, Repr

namespace Glyph

def size : Glyph → Nat
  | char c => c.utf8Size
  | stray _ => 1

def chars? : List Glyph → Option (List Char)
  | [] => some []
  | char c :: rest => (chars? rest).map (c :: ·)
  | stray _ :: _ => none

/-- Where the first stray byte stands, counted in bytes. -/
def strayAt? : List Glyph → Option Nat
  | [] => none
  | char c :: rest => (strayAt? rest).map (c.utf8Size + ·)
  | stray _ :: _ => some 0

def ofString (s : String) : List Glyph :=
  s.toList.map char

end Glyph

namespace Utf8

/-- A byte that can only continue a character. -/
def isTail (b : UInt8) : Bool :=
  0x80 ≤ b && b ≤ 0xBF

/-- The six bits a continuing byte adds. -/
def tailBits (b : UInt8) : Nat :=
  b.toNat - 0x80

/-- May `b` follow the first byte `a` of a character of three bytes?  The ranges leave out forms
that a shorter character has and the surrogates. -/
def isSecondOfThree (a b : UInt8) : Bool :=
  if a = 0xE0 then 0xA0 ≤ b && b ≤ 0xBF
  else if a = 0xED then 0x80 ≤ b && b ≤ 0x9F
  else 0xE1 ≤ a && a ≤ 0xEF && isTail b

/-- May `b` follow the first byte `a` of a character of four bytes?  The ranges leave out forms
that a shorter character has and numbers above the last code point. -/
def isSecondOfFour (a b : UInt8) : Bool :=
  if a = 0xF0 then 0x90 ≤ b && b ≤ 0xBF
  else if a = 0xF4 then 0x80 ≤ b && b ≤ 0x8F
  else 0xF1 ≤ a && a ≤ 0xF3 && isTail b

/-- The character that starts with byte `a`, and how many of the bytes after `a` belong to it. -/
def scalar (a : UInt8) : List UInt8 → Option (Char × Nat)
  | [] => if a < 0x80 then some (Char.ofNat a.toNat, 0) else none
  | b :: rest =>
    if a < 0x80 then some (Char.ofNat a.toNat, 0)
    else if 0xC2 ≤ a && a ≤ 0xDF && isTail b then
      some (Char.ofNat ((a.toNat - 0xC0) * 64 + tailBits b), 1)
    else match rest with
      | [] => none
      | c :: rest =>
        if isSecondOfThree a b && isTail c then
          some (Char.ofNat (((a.toNat - 0xE0) * 64 + tailBits b) * 64 + tailBits c), 2)
        else match rest with
          | [] => none
          | d :: _ =>
            if isSecondOfFour a b && isTail c && isTail d then
              some (Char.ofNat ((((a.toNat - 0xF0) * 64 + tailBits b) * 64 + tailBits c) * 64
                + tailBits d), 3)
            else none

/-- Reads bytes, passing over the first `skip` of them: they belong to a character already read. -/
def decodeFrom : Nat → List UInt8 → List Glyph
  | _, [] => []
  | skip + 1, _ :: rest => decodeFrom skip rest
  | 0, a :: rest =>
    match scalar a rest with
    | some (c, more) => .char c :: decodeFrom more rest
    | none => .stray a :: decodeFrom 0 rest

def decode (bytes : List UInt8) : List Glyph :=
  decodeFrom 0 bytes

def encode (s : String) : List UInt8 :=
  s.toList.flatMap String.utf8EncodeChar

/-- The text that bytes spell, if they are UTF-8 throughout. -/
def text? (bytes : List UInt8) : Option String :=
  (Glyph.chars? (decode bytes)).map String.ofList

end Utf8

end Sparkboard
