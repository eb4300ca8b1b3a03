import Mathlib
import GasMachine.Bytes.TwosComplement

/-!
# Reading numbers back

A number that is written in as many bytes as it needs, or in more, is read back as itself. As many
as it needs are enough for its bits and a sign, and fewer are not, so what some bytes stand for
needs no more bytes than they are.
-/

set_option autoImplicit false

namespace GasMachine.TwosComplement

/-- What fits a number of bytes with a sign is read back. -/
theorem decode_encodeIn {size : Nat} {value : Int} (low : -(256 ^ size : Nat) ≤ 2 * value)
    (high : 2 * value < (256 ^ size : Nat)) : decode (encodeIn size value) = value := by
  have pos : (0 : Int) < (256 ^ size : Nat) := by positivity
  have digits : ((value % (256 ^ size : Nat)).toNat : Int) = value % (256 ^ size : Nat) :=
    Int.toNat_of_nonneg (Int.emod_nonneg _ pos.ne')
  rw [decode, encodeIn, Bytes.toNat_ofNat, Bytes.length_ofNat, Int.natCast_mod, digits,
    Int.emod_emod, Int.emod_bmod]
  exact Int.bmod_eq_of_le_mul_two (by omega) (by omega)

theorem lt_two_pow_bitLength (n : Nat) : n < 2 ^ bitLength n := by
  unfold bitLength
  split
  · omega
  · exact Nat.lt_log2_self

/-- The width of a number leaves room for its sign. -/
theorem fits_of_width_le {size : Nat} {value : Int} (enough : width value ≤ size) :
    -(256 ^ size : Nat) ≤ 2 * value ∧ 2 * value < (256 ^ size : Nat) := by
  by_cases zero : value = 0
  · have pos : (0 : Int) < (256 ^ size : Nat) := by positivity
    omega
  · rw [width, if_neg zero] at enough
    generalize magnitude : (if value < 0 then -value - 1 else value).toNat = n at enough
    -- The bits of the magnitude leave one of the bits of the bytes for the sign.
    have bits : bitLength n + 1 ≤ 8 * size := by omega
    have room : 2 * (n + 1) ≤ 256 ^ size := by
      calc 2 * (n + 1) ≤ 2 * 2 ^ bitLength n := Nat.mul_le_mul_left 2 (lt_two_pow_bitLength n)
        _ = 2 ^ (bitLength n + 1) := (Nat.pow_succ').symm
        _ ≤ 2 ^ (8 * size) := Nat.pow_le_pow_right (by decide) bits
        _ = 256 ^ size := Nat.pow_mul 2 8 size
    generalize 256 ^ size = bound at room ⊢
    split at magnitude <;> omega

theorem bitLength_le_of_lt_two_pow {n bits : Nat} (small : n < 2 ^ bits) : bitLength n ≤ bits := by
  unfold bitLength
  split
  · exact Nat.zero_le _
  · rename_i nonzero
    exact (Nat.log2_lt nonzero).2 small

/-- A number needs no more bytes than leave room for it and its sign. -/
theorem width_le_of_fits {size : Nat} {value : Int} (low : -(256 ^ size : Nat) ≤ 2 * value)
    (high : 2 * value < (256 ^ size : Nat)) : width value ≤ size := by
  by_cases zero : value = 0
  · rw [width, if_pos zero]
    exact Nat.zero_le _
  · rw [width, if_neg zero]
    generalize magnitude : (if value < 0 then -value - 1 else value).toNat = n
    cases size with
    | zero => omega
    | succ size =>
      have half : 256 ^ (size + 1) = 2 * 2 ^ (8 * size + 7) := by
        calc 256 ^ (size + 1) = 2 ^ (8 * (size + 1)) := (Nat.pow_mul 2 8 (size + 1)).symm
          _ = 2 * 2 ^ (8 * size + 7) := Nat.pow_succ'
      have small : n < 2 ^ (8 * size + 7) := by
        rw [half] at low high
        generalize 2 ^ (8 * size + 7) = bound at low high ⊢
        split at magnitude <;> omega
      have bits := bitLength_le_of_lt_two_pow small
      omega

/-- What some bytes stand for needs no more bytes than they are. -/
theorem width_decode_le (bytes : Bytes) : width (decode bytes) ≤ bytes.length := by
  have pos : 0 < 256 ^ bytes.length := Nat.pow_pos (by decide)
  have low : -(((256 ^ bytes.length : Nat) : Int) / 2) ≤ decode bytes := Int.le_bmod pos
  have high : decode bytes < (((256 ^ bytes.length : Nat) : Int) + 1) / 2 := Int.bmod_lt pos
  exact width_le_of_fits (by omega) (by omega)

/-- A word needs nine bytes at most, the last one for the sign. -/
theorem width_le_of_word {value : Int} (nonneg : 0 ≤ value) (word : value ≤ wordMax) :
    width value ≤ 9 := by
  unfold wordMax at word
  exact width_le_of_fits (by omega) (by omega)

theorem decode_encodeIn_of_width_le {size : Nat} {value : Int} (enough : width value ≤ size) :
    decode (encodeIn size value) = value :=
  decode_encodeIn (fits_of_width_le enough).1 (fits_of_width_le enough).2

/-- The shortest form is read back. -/
@[simp] theorem decode_encode (value : Int) : decode (encode value) = value :=
  decode_encodeIn_of_width_le (Nat.le_refl _)

end GasMachine.TwosComplement
