import GasMachine.Text.Utf8

/-!
# Hexadecimal text

Bytes are written as two lower-case digits each; reading takes digits of either case. Text is read
byte by byte of its UTF-8 form, so a character outside ASCII is refused at its first byte, which
is then reported as the character with that code.
-/

set_option autoImplicit false

namespace GasMachine.Hex

inductive Error where
  /-- The text has an odd number of UTF-8 bytes. -/
  | oddLength
  | invalidCharacter (found : Char) (position : Nat)
deriving DecidableEq

/-- The lower-case digit of a number below 16. -/
def digit (n : Nat) : Char :=
  if n < 10 then Char.ofNat (n + 48) else Char.ofNat (n + 87)

/-- The value of a digit of either case. -/
def value? (byte : UInt8) : Option Nat :=
  let code := byte.toNat
  if 48 ≤ code ∧ code ≤ 57 then some (code - 48)
  else if 97 ≤ code ∧ code ≤ 102 then some (code - 87)
  else if 65 ≤ code ∧ code ≤ 70 then some (code - 55)
  else none

def digits (byte : UInt8) : List Char :=
  [digit (byte.toNat / 16), digit (byte.toNat % 16)]

def encode (bytes : Bytes) : String :=
  String.ofList (bytes.flatMap digits)

def readDigit (byte : UInt8) (position : Nat) : Except Error Nat :=
  match value? byte with
  | some value => .ok value
  | none => .error (.invalidCharacter (Char.ofNat byte.toNat) position)

/-- Read digit pairs; `position` is the place of the first byte in the whole text. -/
def readPairs (position : Nat) : Bytes → Except Error Bytes
  | high :: low :: rest => do
    let h ← readDigit high position
    let l ← readDigit low (position + 1)
    return UInt8.ofNat (16 * h + l) :: (← readPairs (position + 2) rest)
  | _ => .ok []

/-- Read the UTF-8 bytes of a text; the length is checked before any digit. -/
def decodeBytes (text : Bytes) : Except Error Bytes :=
  if text.length % 2 = 1 then .error .oddLength else readPairs 0 text

def decode (text : String) : Except Error Bytes :=
  decodeBytes (Utf8.encode text)

/-- Drop one leading `0x`, if there is one. -/
def dropMarker (text : String) : String :=
  match text.toList with
  | '0' :: 'x' :: rest => String.ofList rest
  | _ => text

/-- A number in at least `width` lower-case digits. -/
def padded (width n : Nat) : String :=
  let digits := Nat.toDigits 16 n
  String.ofList (List.replicate (width - digits.length) '0' ++ digits)

end GasMachine.Hex
