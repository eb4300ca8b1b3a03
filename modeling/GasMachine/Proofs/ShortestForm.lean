import GasMachine.Item.Conversion
import GasMachine.Proofs.Numbers

/-!
# The shortest form of a number

What some bytes stand for is kept by all of their first bytes that leave room for it, and what is
behind these only repeats the sign. So the shortest form of a number is what every byte string that
stands for it begins with (`encode_decode_isPrefix`), and there is nothing to leave out exactly if
the last byte counts.

How many bytes a number needs is a matter of its range: `n` bytes hold what is not below
`-2 ^ (8 n - 1)` and is below `2 ^ (8 n - 1)` (`width_le_iff`).
-/

set_option autoImplicit false

namespace GasMachine

/-! ## The first bytes of a byte string

Written in as many bytes as it has, a byte string is what it stands for, and in fewer bytes it is
the first ones. So all that has to be known is how many are enough. -/

namespace Bytes

theorem toNat_append (bytes others : Bytes) :
    toNat (bytes ++ others) = toNat bytes + 256 ^ bytes.length * toNat others := by
  induction bytes with
  | nil => simp
  | cons byte rest ih =>
    rw [List.cons_append, toNat_cons, toNat_cons, ih, List.length_cons, Nat.pow_succ]
    ring

/-- The first bytes are the lowest digits. -/
theorem toNat_take {bytes : Bytes} {size : Nat} (within : size ≤ bytes.length) :
    toNat (bytes.take size) = toNat bytes % 256 ^ size := by
  have length : (bytes.take size).length = size := List.length_take_of_le within
  have small := toNat_lt (bytes.take size)
  have both := toNat_append (bytes.take size) (bytes.drop size)
  rw [List.take_append_drop, length] at both
  rw [length] at small
  rw [both, Nat.add_mul_mod_self_left, Nat.mod_eq_of_lt small]

end Bytes

namespace TwosComplement

/-- Cutting the form of a number down to fewer bytes cuts off the last ones. -/
theorem encodeIn_decode {bytes : Bytes} {size : Nat} (within : size ≤ bytes.length) :
    encodeIn size (decode bytes) = bytes.take size := by
  have divides : ((256 ^ size : Nat) : Int) ∣ (256 ^ bytes.length : Nat) :=
    Int.natCast_dvd_natCast.2 (Nat.pow_dvd_pow 256 within)
  have digits : decode bytes % (256 ^ size : Nat) = (Bytes.toNat (bytes.take size) : Nat) := by
    calc decode bytes % (256 ^ size : Nat)
        = decode bytes % (256 ^ bytes.length : Nat) % (256 ^ size : Nat) :=
          (Int.emod_emod_of_dvd _ divides).symm
      _ = (Bytes.toNat bytes : Int) % (256 ^ bytes.length : Nat) % (256 ^ size : Nat) := by
          rw [decode, Int.bmod_emod]
      _ = (Bytes.toNat bytes : Int) % (256 ^ size : Nat) := Int.emod_emod_of_dvd _ divides
      _ = (Bytes.toNat (bytes.take size) : Nat) := by
          rw [Bytes.toNat_take within, Int.natCast_mod]
  have length : (bytes.take size).length = size := List.length_take_of_le within
  have whole := Bytes.ofNat_toNat (bytes.take size)
  rw [length] at whole
  rw [encodeIn, digits, Int.toNat_natCast, whole]

/-- The shortest form of what some bytes stand for is made of the first of them. -/
theorem encode_decode (bytes : Bytes) :
    encode (decode bytes) = bytes.take (width (decode bytes)) :=
  encodeIn_decode (width_decode_le bytes)

theorem encode_decode_isPrefix (bytes : Bytes) : encode (decode bytes) <+: bytes := by
  rw [encode_decode]
  exact List.take_prefix _ _

/-- As many of the first bytes as leave room for the number stand for it too. -/
theorem decode_take {bytes : Bytes} {size : Nat} (enough : width (decode bytes) ≤ size)
    (within : size ≤ bytes.length) : decode (bytes.take size) = decode bytes := by
  rw [← encodeIn_decode within]
  exact decode_encodeIn_of_width_le enough

/-- Any other byte string for a number is longer than its shortest form. -/
theorem length_encode_lt {value : Int} {other : Bytes} (same : decode other = value)
    (differs : other ≠ encode value) : (encode value).length < other.length := by
  have begins : encode value <+: other := by
    rw [← same]
    exact encode_decode_isPrefix other
  refine Nat.lt_of_le_of_ne begins.length_le fun equally => ?_
  exact differs (begins.eq_of_length equally).symm

@[simp] theorem width_eq_zero_iff {value : Int} : width value = 0 ↔ value = 0 := by
  unfold width
  split
  · rename_i zero
    exact ⟨fun _ => zero, fun _ => rfl⟩
  · rename_i nonzero
    exact ⟨fun none => absurd none (Nat.succ_ne_zero _), fun zero => absurd zero nonzero⟩

/-- Bytes are in shortest form exactly if there are none, or if the last of them counts. -/
theorem encode_decode_eq_self_iff (bytes : Bytes) :
    encode (decode bytes) = bytes ↔ bytes = [] ∨ decode bytes.dropLast ≠ decode bytes := by
  constructor
  · intro shortest
    refine or_iff_not_imp_left.2 fun some_ unchanged => ?_
    have pos := List.length_pos_iff.2 some_
    have shorter : bytes.dropLast.length < bytes.length := by
      rw [List.length_dropLast]
      omega
    -- Without its last byte the string would still begin with all of itself.
    have begins := encode_decode_isPrefix bytes.dropLast
    rw [unchanged, shortest] at begins
    exact absurd begins.length_le (Nat.not_le.2 shorter)
  · rintro (rfl | counts)
    · rfl
    · have needed : bytes.length ≤ width (decode bytes) := by
        by_contra short
        refine counts ?_
        rw [List.dropLast_eq_take]
        exact decode_take (by omega) (Nat.sub_le _ _)
      rw [encode_decode, List.take_of_length_le needed]

/-! ## Ranges

Both ways between the number of bytes and the range come from one comparison of powers; the bits and
the sign are in the definition of the width. -/

/-- The numbers that a number of bytes can stand for. -/
def InRange (size : Nat) (value : Int) : Prop :=
  -2 ^ (8 * size - 1) ≤ value ∧ value ≤ 2 ^ (8 * size - 1) - 1

instance (size : Nat) (value : Int) : Decidable (InRange size value) :=
  inferInstanceAs (Decidable (_ ∧ _))

/-- All the bytes together have twice as many values as there are on each side of zero. -/
theorem pow_eq_two_mul {size : Nat} (positive : 1 ≤ size) :
    ((256 ^ size : Nat) : Int) = 2 * 2 ^ (8 * size - 1) := by
  calc ((256 ^ size : Nat) : Int) = ((2 ^ (8 * size) : Nat) : Int) := by
        rw [Nat.pow_mul 2 8 size]
    _ = 2 ^ (8 * size - 1 + 1) := by
        rw [Nat.sub_add_cancel (by omega)]
        push_cast
        rfl
    _ = 2 * 2 ^ (8 * size - 1) := pow_succ' 2 _

theorem width_le_iff {size : Nat} (positive : 1 ≤ size) {value : Int} :
    width value ≤ size ↔ InRange size value := by
  have all := pow_eq_two_mul positive
  unfold InRange
  constructor
  · intro enough
    obtain ⟨low, high⟩ := fits_of_width_le enough
    omega
  · rintro ⟨low, high⟩
    exact width_le_of_fits (by omega) (by omega)

end TwosComplement

/-- A number becomes an item exactly if it is in the range of as many bytes as a number may have. -/
theorem Item.ofInteger_eq {size : Nat} (positive : 1 ≤ size) (value : Int) :
    Item.ofInteger size value =
      if TwosComplement.InRange size value then .ok (.integer value)
      else .error (.integerOverflow size) := by
  unfold Item.ofInteger
  by_cases inside : TwosComplement.InRange size value
  · rw [if_pos inside, if_neg (Nat.not_lt.2 ((TwosComplement.width_le_iff positive).2 inside))]
  · have wide := mt (TwosComplement.width_le_iff positive).1 inside
    rw [if_neg inside, if_pos (Nat.not_le.1 wide)]

namespace TwosComplement

/-- What the forms of a number, the number that some bytes stand for, and the numbers of a size have
to do with each other. -/
structure FormsAgree (value : Int) (bytes : Bytes) (size : Nat) : Prop where
  /-- The shortest form is read back. -/
  readBack : decode (encode value) = value
  /-- There is no other form that is as short. -/
  shortest : ∀ other, decode other = value → other ≠ encode value →
    (encode value).length < other.length
  /-- Zero alone needs no bytes. -/
  empty : encode value = [] ↔ value = 0
  /-- Bytes begin with the shortest form of what they stand for. -/
  begins : encode (decode bytes) <+: bytes
  /-- There is no more to them exactly if the last byte counts. -/
  whole : encode (decode bytes) = bytes ↔ bytes = [] ∨ decode bytes.dropLast ≠ decode bytes
  /-- A number is accepted exactly if it is in range. -/
  accepted : Item.ofInteger size value = .ok (.integer value) ↔
    -2 ^ (8 * size - 1) ≤ value ∧ value ≤ 2 ^ (8 * size - 1) - 1
  /-- Any other number is too long. -/
  refused : Item.ofInteger size value = .error (.integerOverflow size) ↔
    ¬(-2 ^ (8 * size - 1) ≤ value ∧ value ≤ 2 ^ (8 * size - 1) - 1)

theorem formsAgree (value : Int) (bytes : Bytes) (size : Nat) (positive : 1 ≤ size) :
    FormsAgree value bytes size := by
  have accepts := Item.ofInteger_eq positive value
  constructor
  case readBack => exact decode_encode value
  case shortest => exact fun other => length_encode_lt
  case empty => rw [← List.length_eq_zero_iff, length_encode, width_eq_zero_iff]
  case begins => exact encode_decode_isPrefix bytes
  case whole => exact encode_decode_eq_self_iff bytes
  case accepted =>
    rw [accepts]
    by_cases inside : InRange size value
    · rw [if_pos inside]
      exact iff_of_true rfl inside
    · rw [if_neg inside]
      exact iff_of_false nofun inside
  case refused =>
    rw [accepts]
    by_cases inside : InRange size value
    · rw [if_pos inside]
      exact iff_of_false nofun (not_not_intro inside)
    · rw [if_neg inside]
      exact iff_of_true rfl inside

/-- The smallest number of three bytes, with a string of four that stands for it too. -/
theorem formsAgree_lowest :
    (1 ≤ 3 ∧ decode [0x00, 0x00, 0x80, 0xff] = -2 ^ 23 ∧
      encode (-2 ^ 23) = [0x00, 0x00, 0x80] ∧ width (-2 ^ 23 - 1) = 4) ∧
    FormsAgree (-2 ^ 23) [0x00, 0x00, 0x80, 0xff] 3 :=
  ⟨by decide +kernel, formsAgree (-2 ^ 23) [0x00, 0x00, 0x80, 0xff] 3 (by decide)⟩

end TwosComplement

end GasMachine
