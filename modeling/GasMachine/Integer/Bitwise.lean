/-!
# Bits of integers

An integer is read as an endless row of bits in two's complement: a number that is not negative
ends in zeros, a negative one in ones. A truth table is applied bit by bit; `bit_combine` says that
this is all that happens.
-/

set_option autoImplicit false

namespace GasMachine.Bitwise

/-- The bit at a place, least significant first. -/
def bit (place : Nat) : Int → Bool
  | .ofNat n => n.testBit place
  | .negSucc n => !n.testBit place

/-- The bit that a row ends in. -/
def tail : Int → Bool
  | .ofNat _ => false
  | .negSucc _ => true

/-- The places at which a row differs from its end, as a number. -/
def body : Int → Nat
  | .ofNat n => n
  | .negSucc n => n

/-- The integer whose row ends in the given bit and differs from it at the given places. -/
def assemble (last : Bool) (places : Nat) : Int :=
  if last then .negSucc places else .ofNat places

theorem bit_eq (place : Nat) (x : Int) : bit place x = ((body x).testBit place ^^ tail x) := by
  cases x <;> simp [bit, body, tail]

theorem bit_assemble (place : Nat) (last : Bool) (places : Nat) :
    bit place (assemble last places) = (places.testBit place ^^ last) := by
  cases last <;> simp [assemble, bit]

def combine (table : Bool → Bool → Bool) (x y : Int) : Int :=
  let last := table (tail x) (tail y)
  assemble last
    (Nat.bitwise (fun a b => table (a ^^ tail x) (b ^^ tail y) ^^ last) (body x) (body y))

/-- Every bit of the result is the table's entry for the bits at that place. -/
theorem bit_combine (table : Bool → Bool → Bool) (x y : Int) (place : Nat) :
    bit place (combine table x y) = table (bit place x) (bit place y) := by
  rw [combine, bit_assemble, Nat.testBit_bitwise (by simp), bit_eq, bit_eq]
  simp

def and : Int → Int → Int := combine Bool.and

def or : Int → Int → Int := combine Bool.or

def xor : Int → Int → Int := combine Bool.xor

end GasMachine.Bitwise
