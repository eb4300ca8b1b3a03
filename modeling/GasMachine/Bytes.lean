/-!
# Byte strings

Scripts, keys, values and hashes are byte strings, kept as lists so that slicing, splitting and
concatenation are the operations of `List` with their lemmas. This file holds the two readings of
a byte string as a number that the rest of the library builds on: the little-endian natural
number, and the words of a fixed width that operands and length fields are written in.
-/

set_option autoImplicit false

-- Powers are those of the core library, also beside a library that brings its own instance.
attribute [instance (1100), default_instance 20000] instPowNat

namespace GasMachine

/-- A byte string, first byte first. -/
abbrev Bytes := List UInt8

namespace Bytes

/-! ## Little-endian numbers -/

/-- The number whose base-256 digits, least significant first, are the given bytes. -/
def toNat (bytes : Bytes) : Nat :=
  bytes.foldr (fun byte rest => byte.toNat + 256 * rest) 0

/-- The lowest `width` base-256 digits of a number, least significant first. -/
def ofNat : Nat → Nat → Bytes
  | 0, _ => []
  | width + 1, n => UInt8.ofNat n :: ofNat width (n / 256)

@[simp] theorem toNat_nil : toNat [] = 0 := rfl

@[simp] theorem toNat_cons (byte : UInt8) (rest : Bytes) :
    toNat (byte :: rest) = byte.toNat + 256 * toNat rest := rfl

@[simp] theorem length_ofNat (width n : Nat) : (ofNat width n).length = width := by
  induction width generalizing n with
  | zero => rfl
  | succ width ih => simp [ofNat, ih]

/-- Writing then reading keeps what fits the width. -/
theorem toNat_ofNat (width n : Nat) : toNat (ofNat width n) = n % 256 ^ width := by
  induction width generalizing n with
  | zero => simp [ofNat, Nat.mod_one]
  | succ width ih =>
    have low : (UInt8.ofNat n).toNat = n % 256 := by simp
    rw [ofNat, toNat_cons, ih, low, Nat.pow_succ, Nat.mul_comm (256 ^ width) 256, Nat.mod_mul]

theorem toNat_lt (bytes : Bytes) : toNat bytes < 256 ^ bytes.length := by
  induction bytes with
  | nil => simp
  | cons byte rest ih =>
    have := byte.toNat_lt
    simp only [toNat_cons, List.length_cons, Nat.pow_succ]
    omega

/-- Reading then writing at the same width gives the bytes back. -/
theorem ofNat_toNat (bytes : Bytes) : ofNat bytes.length (toNat bytes) = bytes := by
  induction bytes with
  | nil => rfl
  | cons byte rest ih =>
    have low : UInt8.ofNat (byte.toNat + 256 * toNat rest) = byte := by
      apply UInt8.toNat_inj.mp
      have := byte.toNat_lt
      simp only [UInt8.toNat_ofNat']
      omega
    have high : (byte.toNat + 256 * toNat rest) / 256 = toNat rest := by
      have := byte.toNat_lt
      omega
    rw [List.length_cons, toNat_cons, ofNat, low, high, ih]

/-! ## Big-endian words -/

/-- The lowest `width` base-256 digits of a number, most significant first. -/
def ofNatBig (width n : Nat) : Bytes :=
  (ofNat width n).reverse

def toNatBig (bytes : Bytes) : Nat :=
  bytes.foldl (fun high byte => 256 * high + byte.toNat) 0

@[simp] theorem length_ofNatBig (width n : Nat) : (ofNatBig width n).length = width := by
  simp [ofNatBig]

/-! ## Blocks -/

/-- The first `count` blocks of `size` bytes each. -/
def blocks (size : Nat) : Nat → Bytes → List Bytes
  | 0, _ => []
  | count + 1, bytes => bytes.take size :: blocks size count (bytes.drop size)

end Bytes

end GasMachine
