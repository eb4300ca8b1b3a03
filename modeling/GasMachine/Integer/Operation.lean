import GasMachine.Fault
import GasMachine.Integer.Bitwise

/-!
# Operations on integers

What the arithmetic opcodes compute, on integers of any size. Results are exact; whether a result
is short enough to be an item is decided elsewhere. Division goes toward zero and the remainder has
the sign of the dividend.
-/

set_option autoImplicit false

namespace GasMachine

/-! ## Operations on one integer -/

inductive UnaryOperation where
  | invert | sign | abs | negate | increment | decrement
deriving DecidableEq

namespace UnaryOperation

def ofOpcode? : Opcode → Option UnaryOperation
  | .INVERT => some .invert
  | .SIGN => some .sign
  | .ABS => some .abs
  | .NEGATE => some .negate
  | .INC => some .increment
  | .DEC => some .decrement
  | _ => none

def apply : UnaryOperation → Int → Int
  | .invert, x => -x - 1
  | .sign, x => x.sign
  | .abs, x => x.natAbs
  | .negate, x => -x
  | .increment, x => x + 1
  | .decrement, x => x - 1

end UnaryOperation

/-! ## Operations on two integers -/

inductive BinaryOperation where
  | and | or | xor | add | sub | mul | div | mod | shiftLeft | shiftRight | min | max
deriving DecidableEq

namespace BinaryOperation

def ofOpcode? : Opcode → Option BinaryOperation
  | .AND => some .and
  | .OR => some .or
  | .XOR => some .xor
  | .ADD => some .add
  | .SUB => some .sub
  | .MUL => some .mul
  | .DIV => some .div
  | .MOD => some .mod
  | .SHL => some .shiftLeft
  | .SHR => some .shiftRight
  | .MIN => some .min
  | .MAX => some .max
  | _ => none

def maxShift : Nat := 256

def shiftDistance (distance : Int) : Except Fault Nat :=
  if 0 ≤ distance ∧ distance ≤ maxShift then .ok distance.toNat
  else .error (.invalidArgument (.shiftDistance distance maxShift))

/-- The result of an operation. Shifting right rounds down. -/
def apply : BinaryOperation → Int → Int → Except Fault Int
  | .and, x, y => .ok (Bitwise.and x y)
  | .or, x, y => .ok (Bitwise.or x y)
  | .xor, x, y => .ok (Bitwise.xor x y)
  | .add, x, y => .ok (x + y)
  | .sub, x, y => .ok (x - y)
  | .mul, x, y => .ok (x * y)
  | .div, x, y => if y = 0 then .error .divisionByZero else .ok (x.tdiv y)
  | .mod, x, y => if y = 0 then .error .divisionByZero else .ok (x.tmod y)
  | .shiftLeft, x, y => (shiftDistance y).map fun n => x * 2 ^ n
  | .shiftRight, x, y => (shiftDistance y).map fun n => x / 2 ^ n
  | .min, x, y => .ok (Min.min x y)
  | .max, x, y => .ok (Max.max x y)

end BinaryOperation

/-! ## Comparisons -/

inductive Comparison where
  | equal | notEqual | less | lessEqual | greater | greaterEqual
deriving DecidableEq

namespace Comparison

def ofOpcode? : Opcode → Option Comparison
  | .NUMEQUAL => some .equal
  | .NUMNOTEQUAL => some .notEqual
  | .LT => some .less
  | .LE => some .lessEqual
  | .GT => some .greater
  | .GE => some .greaterEqual
  | _ => none

/-- The comparison of an opcode that compares and jumps. -/
def ofJump? : Opcode → Option Comparison
  | .JMPEQ | .JMPEQ_L => some .equal
  | .JMPNE | .JMPNE_L => some .notEqual
  | .JMPGT | .JMPGT_L => some .greater
  | .JMPGE | .JMPGE_L => some .greaterEqual
  | .JMPLT | .JMPLT_L => some .less
  | .JMPLE | .JMPLE_L => some .lessEqual
  | _ => none

def holds : Comparison → Int → Int → Bool
  | .equal, x, y => x = y
  | .notEqual, x, y => x ≠ y
  | .less, x, y => x < y
  | .lessEqual, x, y => x ≤ y
  | .greater, x, y => x > y
  | .greaterEqual, x, y => x ≥ y

end Comparison

end GasMachine
