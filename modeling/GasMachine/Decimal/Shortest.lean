/-!
# The shortest decimal of a binary number

A binary floating-point number stands for every real that rounds to it. Among the decimals in that
interval the shortest is chosen, and of two equally short ones the nearer. Everything is exact
arithmetic on natural numbers: the number is `m * 2 ^ q`, and a decimal is `d * 10 ^ g`.
-/

set_option autoImplicit false

-- Powers are those of the core library, also beside a library that brings its own instance.
attribute [instance (1100), default_instance 20000] instPowNat

namespace GasMachine.Decimal

/-- A decimal number `digits * 10 ^ exponent`. -/
structure Scientific where
  digits : Nat
  exponent : Int
deriving DecidableEq

/-- A positive binary number `mantissa * 2 ^ exponent`, with whether the gap below it is half the
gap above. -/
structure Binary where
  mantissa : Nat
  exponent : Int
  narrowBelow : Bool

/-- The fraction `m * 2 ^ q / 10 ^ g`, as numerator and denominator. -/
def scaled (m : Nat) (q g : Int) : Nat × Nat :=
  (m * 2 ^ q.toNat * 10 ^ (-g).toNat, 2 ^ (-q).toNat * 10 ^ g.toNat)

/-- The place of the decimal point: the least `k` with the number below `10 ^ k`. The estimate
from the binary exponent is at most a few too small. -/
def pointPlace (b : Binary) : Int :=
  let estimate := (b.exponent + b.mantissa.log2) * 30103 / 100000 - 1
  let below (k : Int) : Bool :=
    let (num, den) := scaled b.mantissa b.exponent k
    num < den
  ([0, 1, 2, 3].map fun (i : Nat) => estimate + i).find? below |>.getD (estimate + 4)

/-- The decimal on the grid `10 ^ g` that rounds to the number, if there is one: of the two
neighbours on the grid the nearer, or the even one in the middle. The ends of the interval belong
to it exactly if the mantissa is even. -/
def onGrid? (b : Binary) (g : Int) : Option Nat :=
  let quarter := 4 * b.mantissa
  let (num, den) := scaled quarter (b.exponent - 2) g
  let (low, _) := scaled (quarter - if b.narrowBelow then 1 else 2) (b.exponent - 2) g
  let (high, _) := scaled (quarter + 2) (b.exponent - 2) g
  let inside (d : Nat) : Bool :=
    if b.mantissa % 2 = 0 then low ≤ d * den && d * den ≤ high
    else low < d * den && d * den < high
  let under := num / den
  let upper := under + 1
  let nearer := 2 * (num - under * den)
  let preferUnder := nearer < den || (nearer == den && under % 2 == 0)
  match inside under && under ≠ 0, inside upper with
  | true, true => some (if preferUnder then under else upper)
  | true, false => some under
  | false, true => some upper
  | false, false => none

/-- The shortest decimal that rounds to the number. The first grid is the one on which the number
lies between zero and one; seventeen digits always suffice. -/
def shortest (b : Binary) : Scientific :=
  let place := pointPlace b
  let grids := (List.range 18).map fun (n : Nat) => place - (n : Int)
  match grids.findSome? fun g => (onGrid? b g).map fun d => (⟨d, g⟩ : Scientific) with
  | some found => found
  | none => ⟨0, 0⟩

end GasMachine.Decimal
