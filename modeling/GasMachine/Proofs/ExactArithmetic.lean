import GasMachine.Proofs.History
import GasMachine.Proofs.ShortestForm
import GasMachine.Proofs.SingleStep

/-!
# Exact arithmetic

An arithmetic instruction puts the exact result on the stack or faults. What the result is, is said
without regard to how it is computed (`Opcode.Computes`): logical operations go by the bits of
endless two's complement, division by its equation, and a shift to the right by its bounds. Either
there is exactly one result, or the operands are refused (`Opcode.Refuses`). A result that is not in
the range of the numbers that fit an item is an overflow, and operations that cannot leave the range
of their operands never overflow (`Opcode.Computes.inRange`).
-/

set_option autoImplicit false

namespace GasMachine

open TwosComplement (InRange)

/-! ## What there is to compute -/

/-- A division toward zero: what remains is smaller than the divisor, and on the same side of zero
as the dividend. -/
structure IsDivision (dividend divisor quotient remainder : Int) : Prop where
  whole : dividend = quotient * divisor + remainder
  small : |remainder| < |divisor|
  side : remainder = 0 ∨ remainder.sign = dividend.sign

namespace Opcode

/-- The number of operands of an arithmetic opcode. -/
def operandCount? : Opcode → Option Nat
  | .INVERT | .SIGN | .ABS | .NEGATE | .INC | .DEC => some 1
  | .ADD | .SUB | .MUL | .DIV | .MOD | .SHL | .SHR | .AND | .OR | .XOR | .MIN | .MAX => some 2
  | _ => Option.none

/-- What an arithmetic opcode computes from its operands, the lowest on the stack first. -/
inductive Computes : Opcode → List Int → Int → Prop where
  | invert {x z} (bits : ∀ place, z.testBit place = !x.testBit place) : Computes .INVERT [x] z
  | signBelow {x} (below : x < 0) : Computes .SIGN [x] (-1)
  | signZero : Computes .SIGN [0] 0
  | signAbove {x} (above : 0 < x) : Computes .SIGN [x] 1
  | absolute {x} : Computes .ABS [x] |x|
  | negate {x} : Computes .NEGATE [x] (-x)
  | increment {x} : Computes .INC [x] (x + 1)
  | decrement {x} : Computes .DEC [x] (x - 1)
  | add {x y} : Computes .ADD [x, y] (x + y)
  | sub {x y} : Computes .SUB [x, y] (x - y)
  | mul {x y} : Computes .MUL [x, y] (x * y)
  | divide {x y q r} (division : IsDivision x y q r) : Computes .DIV [x, y] q
  | remain {x y q r} (division : IsDivision x y q r) : Computes .MOD [x, y] r
  | shiftLeft {x} {n : Nat} (near : n ≤ 256) : Computes .SHL [x, n] (x * 2 ^ n)
  | shiftRight {x z} {n : Nat} (near : n ≤ 256) (low : z * 2 ^ n ≤ x)
    (high : x < (z + 1) * 2 ^ n) : Computes .SHR [x, n] z
  | and {x y z} (bits : ∀ place, z.testBit place = (x.testBit place && y.testBit place)) :
    Computes .AND [x, y] z
  | or {x y z} (bits : ∀ place, z.testBit place = (x.testBit place || y.testBit place)) :
    Computes .OR [x, y] z
  | xor {x y z} (bits : ∀ place, z.testBit place = (x.testBit place ^^ y.testBit place)) :
    Computes .XOR [x, y] z
  | min {x y} : Computes .MIN [x, y] (Min.min x y)
  | max {x y} : Computes .MAX [x, y] (Max.max x y)

/-- The operands from which an arithmetic opcode computes nothing. -/
inductive Refuses : Opcode → List Int → Fault → Prop where
  | divide {x} : Refuses .DIV [x, 0] .divisionByZero
  | remain {x} : Refuses .MOD [x, 0] .divisionByZero
  | shiftLeft {x n} (far : n < 0 ∨ 256 < n) :
    Refuses .SHL [x, n] (.invalidArgument (.shiftDistance n 256))
  | shiftRight {x n} (far : n < 0 ∨ 256 < n) :
    Refuses .SHR [x, n] (.invalidArgument (.shiftDistance n 256))

/-- The opcodes whose results are in range if their operands are. -/
def staysInRange : Opcode → Bool
  | .INVERT | .SIGN | .AND | .OR | .XOR | .MOD | .SHR | .MIN | .MAX => true
  | _ => false

/-- What the definitions of the operations make of operands. -/
def calculate? (opcode : Opcode) : List Int → Option (Except Fault Int)
  | [x] => (UnaryOperation.ofOpcode? opcode).map fun operation => .ok (operation.apply x)
  | [x, y] => (BinaryOperation.ofOpcode? opcode).map fun operation => operation.apply x y
  | _ => Option.none

end Opcode

/-! ## Bits -/

namespace Bitwise

theorem testBit_eq (x : Int) (place : Nat) : x.testBit place = bit place x := by
  cases x <;> rfl

theorem testBit_combine (table : Bool → Bool → Bool) (x y : Int) (place : Nat) :
    (combine table x y).testBit place = table (x.testBit place) (y.testBit place) := by
  rw [testBit_eq, testBit_eq, testBit_eq, bit_combine]

theorem testBit_invert (x : Int) (place : Nat) : (-x - 1).testBit place = !x.testBit place := by
  cases x with
  | ofNat n =>
    have below : -(n : Int) - 1 = Int.negSucc n := by omega
    rw [Int.ofNat_eq_natCast, below]
    rfl
  | negSucc n =>
    have above : -Int.negSucc n - 1 = n := by omega
    rw [above]
    exact (Bool.not_not _).symm

/-- Far out, a row is what it ends in. -/
theorem testBit_far {x : Int} {place : Nat} (far : body x < 2 ^ place) :
    x.testBit place = tail x := by
  rw [testBit_eq, bit_eq, Nat.testBit_lt_two_pow far, Bool.false_xor]

/-- A row of bits belongs to one number only. -/
theorem eq_of_testBit_eq {x y : Int} (same : ∀ place, x.testBit place = y.testBit place) :
    x = y := by
  have far (z : Int) (more : Nat) : body z < 2 ^ (body z + more) :=
    Nat.lt_of_lt_of_le (body z).lt_two_pow_self (Nat.pow_le_pow_right (by decide) (by omega))
  have tails : tail x = tail y := by
    have ends := same (body x + body y)
    rw [testBit_far (far x _), Nat.add_comm, testBit_far (far y _)] at ends
    exact ends
  have bodies : body x = body y := by
    refine Nat.eq_of_testBit_eq fun place => ?_
    have bits := same place
    rw [testBit_eq, testBit_eq, bit_eq, bit_eq, tails] at bits
    exact Bool.xor_left_inj.1 bits
  cases x <;> cases y <;> cases tails <;> cases bodies <;> rfl

/-- So the number that a truth table makes of two others is the one with these bits. -/
theorem combine_eq {table : Bool → Bool → Bool} {x y z : Int}
    (bits : ∀ place, z.testBit place = table (x.testBit place) (y.testBit place)) :
    combine table x y = z :=
  eq_of_testBit_eq fun place => (testBit_combine table x y place).trans (bits place).symm

end Bitwise

/-! ## Division -/

namespace IsDivision

variable {x y q r : Int}

theorem ne_zero (division : IsDivision x y q r) : y ≠ 0 := by
  rintro rfl
  have small := division.small
  rw [abs_zero] at small
  exact absurd small (Int.not_lt.2 (abs_nonneg r))

theorem tdiv_tmod_eq (division : IsDivision x y q r) : x.tdiv y = q ∧ x.tmod y = r := by
  have nonzero := division.ne_zero
  obtain ⟨whole, small, side⟩ := division
  rw [abs_lt, Int.abs_eq_natAbs] at small
  have split : r + y * q = x := by rw [whole, Int.mul_comm, Int.add_comm]
  rcases Int.le_total 0 x with above | below
  · refine (Int.tdiv_tmod_unique above nonzero).2 ⟨split, ?_, small.2⟩
    rcases side with rfl | side
    · exact Int.le_refl 0
    · rw [← Int.sign_nonneg_iff, side]
      exact Int.sign_nonneg_iff.2 above
  · refine (Int.tdiv_tmod_unique' below nonzero).2 ⟨split, small.1, ?_⟩
    rcases side with rfl | side
    · exact Int.le_refl 0
    · rw [← Int.sign_nonpos_iff, side]
      exact Int.sign_nonpos_iff.2 below

theorem of_ne_zero (nonzero : y ≠ 0) : IsDivision x y (x.tdiv y) (x.tmod y) := by
  constructor
  case whole => rw [Int.mul_comm, Int.mul_tdiv_add_tmod]
  case small =>
    rw [Int.abs_eq_natAbs, Int.abs_eq_natAbs, Int.natAbs_tmod]
    exact Int.ofNat_lt.2 (Nat.mod_lt _ (Int.natAbs_pos.2 nonzero))
  case side =>
    rw [Int.sign_tmod]
    split
    · rename_i divides
      exact .inl (Int.tmod_eq_zero_of_dvd divides)
    · exact .inr rfl

end IsDivision

/-! ## The operations compute what they should -/

namespace BinaryOperation

theorem shiftDistance_of_near {n : Nat} (near : n ≤ 256) : shiftDistance n = .ok n :=
  if_pos ⟨Int.natCast_nonneg n, Int.ofNat_le.2 near⟩

theorem shiftDistance_of_far {n : Int} (far : n < 0 ∨ 256 < n) :
    shiftDistance n = .error (.invalidArgument (.shiftDistance n 256)) := by
  refine if_neg fun near => ?_
  have high : n ≤ 256 := near.2
  omega

end BinaryOperation

namespace Opcode

variable {opcode : Opcode} {operands : List Int} {z : Int} {fault : Fault}

theorem Computes.calculate (computes : opcode.Computes operands z) :
    opcode.calculate? operands = some (.ok z) := by
  cases computes with
  | @invert x _ bits =>
    obtain rfl : -x - 1 = z := Bitwise.eq_of_testBit_eq fun place => by
      rw [Bitwise.testBit_invert, bits]
    rfl
  | @signBelow x below =>
    show some (Except.ok x.sign) = _
    rw [Int.sign_eq_neg_one_of_neg below]
  | signZero => rfl
  | @signAbove x above =>
    show some (Except.ok x.sign) = _
    rw [Int.sign_eq_one_of_pos above]
  | @absolute x =>
    rw [Int.abs_eq_natAbs]
    rfl
  | negate | increment | decrement | add | sub | mul | min | max => rfl
  | @divide x y _ _ division =>
    obtain ⟨rfl, _⟩ := division.tdiv_tmod_eq
    exact congrArg some (if_neg division.ne_zero)
  | @remain x y _ _ division =>
    obtain ⟨_, rfl⟩ := division.tdiv_tmod_eq
    exact congrArg some (if_neg division.ne_zero)
  | @shiftLeft x n near =>
    show some ((BinaryOperation.shiftDistance n).map fun n => x * 2 ^ n) = _
    rw [BinaryOperation.shiftDistance_of_near near]
    rfl
  | @shiftRight x _ n near low high =>
    rw [Int.add_mul, Int.one_mul] at high
    obtain rfl : x / 2 ^ n = z := (Int.ediv_eq_iff_of_pos (by positivity)).2 ⟨low, high⟩
    show some ((BinaryOperation.shiftDistance n).map fun n => x / 2 ^ n) = _
    rw [BinaryOperation.shiftDistance_of_near near]
    rfl
  | @and x y _ bits =>
    obtain rfl : Bitwise.and x y = z := Bitwise.combine_eq bits
    rfl
  | @or x y _ bits =>
    obtain rfl : Bitwise.or x y = z := Bitwise.combine_eq bits
    rfl
  | @xor x y _ bits =>
    obtain rfl : Bitwise.xor x y = z := Bitwise.combine_eq bits
    rfl

theorem Refuses.calculate (refuses : opcode.Refuses operands fault) :
    opcode.calculate? operands = some (.error fault) := by
  cases refuses with
  | divide | remain => rfl
  | @shiftLeft x n far =>
    show some ((BinaryOperation.shiftDistance n).map fun n => x * 2 ^ n) = _
    rw [BinaryOperation.shiftDistance_of_far far]
    rfl
  | @shiftRight x n far =>
    show some ((BinaryOperation.shiftDistance n).map fun n => x / 2 ^ n) = _
    rw [BinaryOperation.shiftDistance_of_far far]
    rfl

/-- Operands give a result or are refused. -/
theorem computes_or_refuses (count : opcode.operandCount? = some operands.length) :
    (∃ z, opcode.Computes operands z) ∨ ∃ fault, opcode.Refuses operands fault := by
  have one (single : some 1 = some operands.length) : ∃ x, operands = [x] :=
    List.length_eq_one_iff.1 (Option.some.inj single).symm
  have two (pair : some 2 = some operands.length) : ∃ x y, operands = [x, y] :=
    List.length_eq_two.1 (Option.some.inj pair).symm
  cases opcode
  case INVERT =>
    obtain ⟨x, rfl⟩ := one count
    exact .inl ⟨-x - 1, .invert (Bitwise.testBit_invert x)⟩
  case SIGN =>
    obtain ⟨x, rfl⟩ := one count
    rcases Int.lt_trichotomy x 0 with below | rfl | above
    · exact .inl ⟨-1, .signBelow below⟩
    · exact .inl ⟨0, .signZero⟩
    · exact .inl ⟨1, .signAbove above⟩
  case ABS | NEGATE | INC | DEC =>
    obtain ⟨x, rfl⟩ := one count
    exact .inl ⟨_, by constructor⟩
  case ADD | SUB | MUL | MIN | MAX =>
    obtain ⟨x, y, rfl⟩ := two count
    exact .inl ⟨_, by constructor⟩
  case DIV =>
    obtain ⟨x, y, rfl⟩ := two count
    by_cases zero : y = 0
    · subst zero
      exact .inr ⟨_, .divide⟩
    · exact .inl ⟨_, .divide (.of_ne_zero zero)⟩
  case MOD =>
    obtain ⟨x, y, rfl⟩ := two count
    by_cases zero : y = 0
    · subst zero
      exact .inr ⟨_, .remain⟩
    · exact .inl ⟨_, .remain (.of_ne_zero zero)⟩
  case SHL =>
    obtain ⟨x, y, rfl⟩ := two count
    by_cases far : y < 0 ∨ 256 < y
    · exact .inr ⟨_, .shiftLeft far⟩
    · lift y to Nat using by omega
      exact .inl ⟨_, .shiftLeft (by omega)⟩
  case SHR =>
    obtain ⟨x, y, rfl⟩ := two count
    by_cases far : y < 0 ∨ 256 < y
    · exact .inr ⟨_, .shiftRight far⟩
    · lift y to Nat using by omega
      have positive : (0 : Int) < 2 ^ y := by positivity
      exact .inl ⟨x / 2 ^ y, .shiftRight (by omega) (Int.ediv_mul_le x positive.ne')
        (Int.lt_ediv_add_one_mul_self x positive)⟩
  case AND =>
    obtain ⟨x, y, rfl⟩ := two count
    exact .inl ⟨_, .and (Bitwise.testBit_combine Bool.and x y)⟩
  case OR =>
    obtain ⟨x, y, rfl⟩ := two count
    exact .inl ⟨_, .or (Bitwise.testBit_combine Bool.or x y)⟩
  case XOR =>
    obtain ⟨x, y, rfl⟩ := two count
    exact .inl ⟨_, .xor (Bitwise.testBit_combine Bool.xor x y)⟩
  all_goals cases count

end Opcode

/-! ## Operations that stay in range -/

theorem Bitwise.body_assemble (last : Bool) (places : Nat) :
    body (assemble last places) = places := by
  cases last <;> rfl

namespace TwosComplement

variable {size : Nat} {x y : Int}

/-- Two bounds for a number are one for the places at which it differs from its end. -/
theorem inRange_iff_body : InRange size x ↔ Bitwise.body x < 2 ^ (8 * size - 1) := by
  have cast : ((2 ^ (8 * size - 1) : Nat) : Int) = 2 ^ (8 * size - 1) := by push_cast; rfl
  unfold InRange
  rw [← cast]
  generalize 2 ^ (8 * size - 1) = bound
  cases x with
  | ofNat n =>
    show _ ↔ n < bound
    rw [Int.ofNat_eq_natCast]
    omega
  | negSucc n =>
    show _ ↔ n < bound
    omega

theorem InRange.combine (one : InRange size x) (other : InRange size y)
    (table : Bool → Bool → Bool) : InRange size (Bitwise.combine table x y) := by
  rw [inRange_iff_body] at one other ⊢
  rw [Bitwise.combine, Bitwise.body_assemble]
  exact Nat.bitwise_lt_two_pow one other

/-- What is closer to zero than a number in range is in range. -/
theorem InRange.of_abs_lt (inside : InRange size y) (small : |x| < |y|) : InRange size x := by
  unfold InRange at inside ⊢
  generalize (2 : Int) ^ (8 * size - 1) = bound at inside ⊢
  have bounded : |y| ≤ bound := abs_le.2 ⟨inside.1, by omega⟩
  have both := abs_lt.1 (small.trans_le bounded)
  omega

/-- Dividing by a power and rounding down leads toward zero, or toward minus one. -/
theorem InRange.of_floor (inside : InRange size x) {n : Nat} {z : Int} (low : z * 2 ^ n ≤ x)
    (high : x < (z + 1) * 2 ^ n) : InRange size z := by
  unfold InRange at inside ⊢
  generalize (2 : Int) ^ (8 * size - 1) = bound at inside ⊢
  have power : (1 : Int) ≤ 2 ^ n := one_le_pow₀ (by decide)
  rcases lt_or_ge z 0 with below | above
  · have toward : (z + 1) * 2 ^ n ≤ z + 1 := by nlinarith
    omega
  · have toward : z ≤ z * 2 ^ n := le_mul_of_one_le_right above power
    omega

end TwosComplement

namespace Opcode

variable {opcode : Opcode} {operands : List Int}

theorem Computes.inRange {z : Int} {size : Nat} (computes : opcode.Computes operands z)
    (stays : opcode.staysInRange = true) (positive : 1 ≤ size)
    (inside : ∀ x ∈ operands, InRange size x) : InRange size z := by
  have small {s : Int} (low : -1 ≤ s) (high : s ≤ 1) : InRange size s := by
    have half : (2 : Int) ^ 1 ≤ 2 ^ (8 * size - 1) := pow_le_pow_right₀ (by decide) (by omega)
    unfold InRange
    omega
  cases computes with
  | @invert x _ bits =>
    obtain rfl : -x - 1 = z := Bitwise.eq_of_testBit_eq fun place => by
      rw [Bitwise.testBit_invert, bits]
    have within := inside x (by simp)
    unfold InRange at within ⊢
    omega
  | signBelow | signZero | signAbove => exact small (by decide) (by decide)
  | @remain x y _ _ division => exact (inside y (by simp)).of_abs_lt division.small
  | @shiftRight x _ n _ low high => exact (inside x (by simp)).of_floor low high
  | @and x y _ bits =>
    rw [← Bitwise.combine_eq bits]
    exact (inside x (by simp)).combine (inside y (by simp)) _
  | @or x y _ bits =>
    rw [← Bitwise.combine_eq bits]
    exact (inside x (by simp)).combine (inside y (by simp)) _
  | @xor x y _ bits =>
    rw [← Bitwise.combine_eq bits]
    exact (inside x (by simp)).combine (inside y (by simp)) _
  | @min x y =>
    rcases min_choice x y with same | same
    · rw [same]
      exact inside x (by simp)
    · rw [same]
      exact inside y (by simp)
  | @max x y =>
    rcases max_choice x y with same | same
    · rw [same]
      exact inside x (by simp)
    · rw [same]
      exact inside y (by simp)
  | _ => cases stays

/-! ## From a calculation to a step -/

theorem standardEntry_of_unary {operation : UnaryOperation}
    (own : UnaryOperation.ofOpcode? opcode = some operation) :
    opcode.standardEntry = .of 1 1 .unary ∧ opcode.layout = .none := by
  cases opcode <;> first | exact ⟨rfl, rfl⟩ | cases own

theorem standardEntry_of_binary {operation : BinaryOperation}
    (own : BinaryOperation.ofOpcode? opcode = some operation) :
    opcode.standardEntry = .of 2 1 .binary ∧ opcode.layout = .none := by
  cases opcode <;> first | exact ⟨rfl, rfl⟩ | cases own

theorem layout_of_calculate {outcome : Except Fault Int}
    (calculates : opcode.calculate? operands = some outcome) : opcode.layout = .none := by
  match operands, calculates with
  | [x], calculates =>
    obtain ⟨operation, own, _⟩ := Option.map_eq_some_iff.1 calculates
    exact (standardEntry_of_unary own).2
  | [x, y], calculates =>
    obtain ⟨operation, own, _⟩ := Option.map_eq_some_iff.1 calculates
    exact (standardEntry_of_binary own).2

/-- The instruction of a calculation asks for as many items as there are operands. -/
theorem resolve_of_calculate {outcome : Except Fault Int}
    (calculates : opcode.calculate? operands = some outcome) (host : Host) (frame : Frame) :
    (opcode.withOperand ⟨[], 0⟩).resolve host frame = .ok (opcode.plain operands.length 1 0) := by
  have bare := layout_of_calculate calculates
  unfold Instruction.resolve plain withOperand Instruction.operandItemSize
  match operands, calculates with
  | [x], calculates =>
    obtain ⟨operation, own, _⟩ := Option.map_eq_some_iff.1 calculates
    rw [(standardEntry_of_unary own).1, bare]
    rfl
  | [x, y], calculates =>
    obtain ⟨operation, own, _⟩ := Option.map_eq_some_iff.1 calculates
    rw [(standardEntry_of_binary own).1, bare]
    rfl

/-- The behaviour reads the items, calculates and checks the range. -/
theorem run_of_calculate {host : Host} {items : List Item} {outcome : Except Fault Int}
    (calculates : opcode.calculate? operands = some outcome)
    (accepted : List.Forall₂ (fun item x => item.toInteger host.limits.integerSize = .ok x)
      items operands)
    {instruction : Instruction} (same : instruction.opcode = opcode) (frame : Frame)
    (world : World) :
    opcode.standardEntry.behaviour.run host instruction frame world ⟨items.reverse, []⟩ =
      (outcome.bind (Item.ofInteger host.limits.integerSize)).map (.one · world) := by
  match operands, calculates with
  | [x], calculates =>
    obtain ⟨operation, own, rfl⟩ := Option.map_eq_some_iff.1 calculates
    obtain ⟨item, _, read, none, rfl⟩ := List.forall₂_cons_right_iff.1 accepted
    obtain rfl := List.forall₂_nil_right_iff.1 none
    rw [(standardEntry_of_unary own).1]
    show (Behaviour.unaryResult _ instruction.opcode item).map _ = _
    unfold Behaviour.unaryResult
    rw [read, same, own]
    rfl
  | [x, y], calculates =>
    obtain ⟨operation, own, rfl⟩ := Option.map_eq_some_iff.1 calculates
    obtain ⟨lower, _, first, others, rfl⟩ := List.forall₂_cons_right_iff.1 accepted
    obtain ⟨upper, _, second, none, rfl⟩ := List.forall₂_cons_right_iff.1 others
    obtain rfl := List.forall₂_nil_right_iff.1 none
    rw [(standardEntry_of_binary own).1]
    show (Behaviour.binaryResult _ instruction.opcode upper lower).map _ = _
    unfold Behaviour.binaryResult
    rw [first, second, same, own]
    rfl

end Opcode

namespace Machine

/-- What the next instruction does with the numbers on top of the stack. -/
structure Calculates (machine : Machine) (invocation : Invocation) (frame : Frame) (world : World)
    (opcode : Opcode) (operands : List Int) (rest : List Item) : Prop where
  /-- A result in range takes the place of the operands. -/
  pushes : ∀ z, opcode.Computes operands z → InRange machine.config.limits.integerSize z →
    machine.step invocation frame world =
      (frame.advanced 1 opcode.price (.integer z :: rest), world)
  /-- Any other result is an overflow. -/
  overflows : ∀ z, opcode.Computes operands z → ¬InRange machine.config.limits.integerSize z →
    machine.step invocation frame world =
      (frame.stopped opcode.price rest opcode
        (.integerOverflow machine.config.limits.integerSize), world)
  /-- Divisions by zero and far shifts fault, too. -/
  refuses : ∀ fault, opcode.Refuses operands fault →
    machine.step invocation frame world = (frame.stopped opcode.price rest opcode fault, world)
  /-- One of these is the case. -/
  complete : (∃ z, opcode.Computes operands z) ∨ ∃ fault, opcode.Refuses operands fault
  /-- Some operations never overflow. -/
  stays : opcode.staysInRange = true → ∀ z, opcode.Computes operands z →
    InRange machine.config.limits.integerSize z

variable {machine : Machine} {invocation : Invocation} {frame : Frame} {world : World}
  {opcode : Opcode} {operands : List Int} {items rest : List Item} {outcome : Except Fault Int}

/-- A calculation gives one item in place of its operands, or none. -/
theorem step_of_calculate (standard : machine.table = {})
    (within : frame.RunsWithin machine.config.limits) {following : Bytes}
    (here : frame.code.drop frame.pc = opcode.code :: following)
    (affordable : (opcode.price : Int) ≤ frame.gas)
    (calculates : opcode.calculate? operands = some outcome)
    (accepted : List.Forall₂
      (fun item x => item.toInteger machine.config.limits.integerSize = .ok x) items operands)
    (stack : frame.stack = items.reverse ++ rest) :
    (∀ z, outcome.bind (Item.ofInteger machine.config.limits.integerSize) = .ok (.integer z) →
      machine.step invocation frame world =
        (frame.advanced 1 opcode.price (.integer z :: rest), world)) ∧
    ∀ fault, outcome.bind (Item.ofInteger machine.config.limits.integerSize) = .error fault →
      fault.isCrash = false → machine.step invocation frame world =
        (frame.stopped opcode.price rest opcode fault, world) := by
  have poised := poised_of_plain standard within here affordable
    (Opcode.layout_of_calculate calculates)
    (Opcode.resolve_of_calculate calculates (machine.host invocation) frame)
  have ran : opcode.standardEntry.behaviour.run (machine.host invocation)
      (opcode.plain operands.length 1 0) (frame.charged (opcode.plain operands.length 1 0)) world
      ⟨items.reverse, []⟩ =
        (outcome.bind (Item.ofInteger machine.config.limits.integerSize)).map (.one · world) :=
    Opcode.run_of_calculate calculates accepted rfl _ _
  have pos : 1 ≤ operands.length := by
    match operands, calculates with
    | [_], _ | [_, _], _ => exact Nat.le_add_left 1 _
  have same : operands.length = items.reverse.length :=
    accepted.length_eq.symm.trans List.length_reverse.symm
  have fewer : ((1 : Nat) : Int) + 0 ≤ operands.length := by omega
  constructor
  · intro z gives
    rw [gives] at ran
    exact poised.step_of_exchange stack same fewer ran rfl (Nat.le_add_right_of_le (same ▸ pos))
  · intro fault fails told
    rw [fails] at ran
    exact poised.step_of_loss stack same fewer ran told

theorem calculates (machine : Machine) (standard : machine.table = {})
    (positive : 1 ≤ machine.config.limits.integerSize) (invocation : Invocation) (frame : Frame)
    (world : World) (within : frame.RunsWithin machine.config.limits) (opcode : Opcode)
    (following : Bytes) (here : frame.code.drop frame.pc = opcode.code :: following)
    (affordable : (opcode.price : Int) ≤ frame.gas) (operands : List Int)
    (count : opcode.operandCount? = some operands.length) (items rest : List Item)
    (stack : frame.stack = items.reverse ++ rest)
    (accepted : List.Forall₂
      (fun item x => item.toInteger machine.config.limits.integerSize = .ok x) items operands)
    (inRange : ∀ x ∈ operands, InRange machine.config.limits.integerSize x) :
    machine.Calculates invocation frame world opcode operands rest := by
  have stays : opcode.staysInRange = true → ∀ z, opcode.Computes operands z →
      InRange machine.config.limits.integerSize z :=
    fun stays z computes => computes.inRange stays positive inRange
  constructor
  case pushes =>
    intro z computes inside
    refine (step_of_calculate standard within here affordable computes.calculate accepted stack).1
      _ ?_
    show Item.ofInteger _ z = _
    rw [Item.ofInteger_eq positive, if_pos inside]
  case overflows =>
    intro z computes outside
    refine (step_of_calculate standard within here affordable computes.calculate accepted stack).2
      _ ?_ rfl
    show Item.ofInteger _ z = _
    rw [Item.ofInteger_eq positive, if_neg outside]
  case refuses =>
    intro fault refuses
    refine (step_of_calculate standard within here affordable refuses.calculate accepted stack).2
      _ rfl (by cases refuses <;> rfl)
  case complete => exact Opcode.computes_or_refuses count
  case stays => exact stays

/-- A frame that is about to divide the lowest number of one byte, given as bytes, by minus one. -/
def dividingFrame : Frame :=
  Launch.start
    { code := [Opcode.DIV.code]
      gas := 300
      depth := 1
      entry := Hash.zero
      calling := none
      residue := { stack := [.integer (-1), .byteString [0x80], .null] } }

/-- The quotient is the one number that needs a second byte. -/
theorem calculates_lowest :
    let machine : Machine := standard { limits := { integerSize := 1 } }
    (dividingFrame.RunsWithin machine.config.limits ∧
      dividingFrame.stack = [.byteString [0x80], .integer (-1)].reverse ++ [.null] ∧
      (Item.byteString [0x80]).toInteger 1 = .ok (-128) ∧
      InRange 1 (-128) ∧ InRange 1 (-1)) ∧
    Opcode.Computes .DIV [-128, -1] 128 ∧
    machine.step {} dividingFrame {} =
      (dividingFrame.stopped 300 [.null] .DIV (.integerOverflow 1), {}) := by
  have within : dividingFrame.RunsWithin { integerSize := 1 } :=
    ⟨rfl, rfl, by decide +kernel, by decide⟩
  have quotient : Opcode.Computes .DIV [-128, -1] 128 :=
    .divide (r := 0) ⟨by decide, by decide, .inl rfl⟩
  have lowest : (Item.byteString [0x80]).toInteger 1 = .ok (-128) := by decide +kernel
  refine ⟨⟨within, rfl, lowest, by decide, by decide⟩, quotient, ?_⟩
  exact (calculates (standard { limits := { integerSize := 1 } }) rfl (by decide) {}
    dividingFrame {} within .DIV [] rfl (by decide) [-128, -1] rfl
    [.byteString [0x80], .integer (-1)] [.null] rfl (.cons lowest (.cons rfl .nil))
    (by decide)).overflows 128 quotient (by decide)

end Machine

end GasMachine
