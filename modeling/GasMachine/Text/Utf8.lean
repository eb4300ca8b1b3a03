import GasMachine.Bytes

/-!
# Reading UTF-8

Bytes shown as text need not be well formed. Each maximal ill-formed part (the longest run of
bytes that begins some character but does not complete it, or one byte that begins none) becomes
one replacement character. The reader goes byte by byte and keeps the character it is inside of.
-/

set_option autoImplicit false

namespace GasMachine.Utf8

structure Partial where
  bits : Nat
  missing : Nat
  /-- Least byte that may follow. -/
  low : Nat
  /-- Greatest byte that may follow. -/
  high : Nat

inductive Lead where
  | single (c : Char)
  | multi (start : Partial)
  | invalid

/-- Classify a first byte. The bounds on the second byte keep out overlong forms, surrogates and
code points past the last one. -/
def lead (byte : Nat) : Lead :=
  if byte < 0x80 then .single (Char.ofNat byte)
  else if byte < 0xc2 then .invalid
  else if byte < 0xe0 then .multi ⟨byte - 0xc0, 1, 0x80, 0xbf⟩
  else if byte = 0xe0 then .multi ⟨0, 2, 0xa0, 0xbf⟩
  else if byte = 0xed then .multi ⟨0xd, 2, 0x80, 0x9f⟩
  else if byte < 0xf0 then .multi ⟨byte - 0xe0, 2, 0x80, 0xbf⟩
  else if byte = 0xf0 then .multi ⟨0, 3, 0x90, 0xbf⟩
  else if byte < 0xf4 then .multi ⟨byte - 0xf0, 3, 0x80, 0xbf⟩
  else if byte = 0xf4 then .multi ⟨4, 3, 0x80, 0x8f⟩
  else .invalid

/-- The character that stands for an ill-formed part. -/
def replacement : Char := '\uFFFD'

/-- Reader state: the characters read, last first, and the one under construction. -/
structure Reader where
  done : List Char
  inside : Option Partial

def Reader.start (done : List Char) (byte : Nat) : Reader :=
  match lead byte with
  | .single c => ⟨c :: done, none⟩
  | .multi start => ⟨done, some start⟩
  | .invalid => ⟨replacement :: done, none⟩

/-- Take the next byte. A byte that cannot follow ends the ill-formed part and is read afresh. -/
def Reader.next (reader : Reader) (byte : UInt8) : Reader :=
  match reader.inside with
  | none => .start reader.done byte.toNat
  | some part =>
    if part.low ≤ byte.toNat ∧ byte.toNat ≤ part.high then
      let bits := part.bits * 64 + (byte.toNat - 0x80)
      if part.missing ≤ 1 then ⟨Char.ofNat bits :: reader.done, none⟩
      else ⟨reader.done, some ⟨bits, part.missing - 1, 0x80, 0xbf⟩⟩
    else .start (replacement :: reader.done) byte.toNat

/-- The text of a byte string, with ill-formed parts replaced. -/
def decodeLossy (bytes : Bytes) : String :=
  let final := bytes.foldl Reader.next ⟨[], none⟩
  let chars := if final.inside.isSome then replacement :: final.done else final.done
  String.ofList chars.reverse

def decode? (bytes : Bytes) : Option String :=
  String.fromUTF8? ⟨bytes.toArray⟩

def encode (text : String) : Bytes :=
  text.toList.flatMap String.utf8EncodeChar

end GasMachine.Utf8
