import GasMachine.Bytes

/-!
# Integers as byte strings

Every integer has a shortest little-endian two's complement form, and zero is the empty string.
Reading accepts any byte string, so sign extension (trailing `00` of a number that is not
negative, trailing `ff` of one that is) does not change what a string stands for.
-/

set_option autoImplicit false

namespace GasMachine.TwosComplement

/-- Binary digits of a natural number; none for zero. -/
def bitLength (n : Nat) : Nat :=
  if n = 0 then 0 else n.log2 + 1

/-- The number of bytes of the shortest form: room for the magnitude and one sign bit. A negative
number `-m - 1` needs as much room as `m`. -/
def width (value : Int) : Nat :=
  if value = 0 then 0
  else bitLength (if value < 0 then -value - 1 else value).toNat / 8 + 1

/-- The two's complement form in exactly `size` bytes; what does not fit is cut off. -/
def encodeIn (size : Nat) (value : Int) : Bytes :=
  Bytes.ofNat size (value % (256 ^ size : Nat)).toNat

def encode (value : Int) : Bytes :=
  encodeIn (width value) value

/-- The integer that a byte string stands for: the top bit of the last byte is the sign. -/
def decode (bytes : Bytes) : Int :=
  Int.bmod (Bytes.toNat bytes) (256 ^ bytes.length)

@[simp] theorem length_encodeIn (size : Nat) (value : Int) :
    (encodeIn size value).length = size := by
  simp [encodeIn]

@[simp] theorem length_encode (value : Int) : (encode value).length = width value := by
  simp [encode]

/-! ## 64-bit words

A few numbers of the machine are words: a count read from an item has to fit the unsigned range,
and some positions are reported as the signed number with the same bits. -/

def wordMax : Nat := 2 ^ 64 - 1

def signedMax : Nat := 2 ^ 63 - 1

def signedMin : Int := -(2 ^ 63)

def fitsSigned (value : Int) : Bool :=
  signedMin ≤ value && value ≤ signedMax

/-- The signed number with the bits of an unsigned 64-bit word. -/
def signed (word : Nat) : Int :=
  Int.bmod word (2 ^ 64)

end GasMachine.TwosComplement
