import GasMachine.Json.Document

/-!
# The double of a number as written

Up to 64 bits of the digits are kept exactly; further digits only count for the exponent. The
result is that integer, rounded to a double, times or over a power of ten. It can differ in the last
place from the nearest double, which is part of the format: what is read here is also what is
shown again.
-/

set_option autoImplicit false

namespace GasMachine.Numeral

/-- Leading digits as an integer below `2 ^ 64`, and a decimal exponent. -/
structure Significand where
  value : Nat
  exponent : Int

/-- Digits before the point: what no longer fits raises the exponent. -/
def Significand.ofWhole (digits : List Nat) : Significand :=
  let (s, _) := digits.foldl
    (fun (acc : Significand × Bool) digit =>
      let (s, full) := acc
      let grown := 10 * s.value + digit
      if full || 2 ^ 64 ≤ grown then (⟨s.value, s.exponent + 1⟩, true)
      else (⟨grown, s.exponent⟩, false))
    (⟨0, 0⟩, false)
  s

/-- Digits behind the point: what no longer fits is dropped, with everything after it. -/
def Significand.addFraction (s : Significand) : List Nat → Significand
  | [] => s
  | digit :: rest =>
    let grown := 10 * s.value + digit
    if 2 ^ 64 ≤ grown then s else addFraction ⟨grown, s.exponent - 1⟩ rest

def powerOfTen (n : Nat) : Float := Float.ofScientific 1 false n

/-- Divide by powers of ten of at most 308 at a time. Three divisions empty every number, so the
bound of four is never reached. -/
def divideByPower : Nat → Float → Nat → Float
  | 0, f, _ => f
  | rounds + 1, f, n =>
    if n ≤ 308 then f / powerOfTen n
    else if f == 0.0 then f
    else divideByPower rounds (f / powerOfTen 308) (n - 308)

/-- The magnitude, unless it is beyond the largest double. -/
def Significand.toFloat? (s : Significand) : Option Float :=
  let f := (UInt64.ofNat s.value).toFloat
  if s.exponent < 0 then some (divideByPower 4 f s.exponent.natAbs)
  else if s.exponent ≤ 308 then
    let scaled := f * powerOfTen s.exponent.natAbs
    if scaled.isInf then none else some scaled
  else if f == 0.0 then some f
  else none

/-- The exponent as written, unless its magnitude exceeds 31 bits. -/
def exponentValue? (digits : List Nat) : Option Nat :=
  let n := ofDigits digits
  if n < 2 ^ 31 then some n else none

def clampExponent (n : Int) : Int :=
  max (-(2 ^ 31)) (min n (2 ^ 31 - 1))

def magnitude? (numeral : Numeral) : Option Float :=
  let s := (Significand.ofWhole numeral.whole).addFraction (numeral.fraction.getD [])
  match numeral.exponent with
  | none => s.toFloat?
  | some (negative, digits) =>
    match exponentValue? digits with
    | some n =>
      let shift : Int := if negative then -n else n
      Significand.toFloat? ⟨s.value, clampExponent (s.exponent + shift)⟩
    | none => if s.value ≠ 0 ∧ negative = false then none else some 0.0

/-- The bits of the double of a number as written; nothing if it is out of range. -/
def toDouble? (numeral : Numeral) : Option UInt64 :=
  (magnitude? numeral).map fun f => (if numeral.negative then -f else f).toBits

def toJson? (numeral : Numeral) : Option Json :=
  match numeral.toInt? with
  | some n => some (.int n)
  | none => (toDouble? numeral).map .double

end GasMachine.Numeral
