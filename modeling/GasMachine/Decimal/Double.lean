import GasMachine.Decimal.Shortest

/-!
# The text of a double

A double is given by its 64 bits. Its text has the fewest digits that read back, is positional
while the decimal point is near the digits, and otherwise has one digit before the point and an
exponent with its sign. A positional text always shows a fraction.
-/

set_option autoImplicit false

namespace GasMachine.Decimal

/-- Where positional notation ends, and how an exponent is written beyond it. -/
structure Notation where
  /-- Greatest place of the point written positionally. -/
  lastPlace : Int
  /-- Least place of the point written positionally. -/
  firstPlace : Int
  plusSign : Bool

/-- Positional from `0.00001` up to, not including, `10 ^ 16`; beyond that exponents are signed both
ways. -/
def Notation.standard : Notation := ⟨16, -4, true⟩

/-- Digits with the point after the first `place` of them, filled up with zeros. -/
def positional (digits : List Char) (place : Int) : List Char :=
  if place ≤ 0 then ['0', '.'] ++ List.replicate (-place).toNat '0' ++ digits
  else
    let whole := place.toNat
    if digits.length ≤ whole then
      digits ++ List.replicate (whole - digits.length) '0' ++ ['.', '0']
    else digits.take whole ++ ['.'] ++ digits.drop whole

def exponentText (style : Notation) (exponent : Int) : List Char :=
  let sign := if exponent < 0 then ['-'] else if style.plusSign then ['+'] else []
  'e' :: (sign ++ Nat.toDigits 10 exponent.natAbs)

/-- One digit, the others behind the point, and the exponent. -/
def exponential (style : Notation) (digits : List Char) (place : Int) : List Char :=
  let exponent := exponentText style (place - 1)
  match digits with
  | first :: second :: rest => first :: '.' :: second :: (rest ++ exponent)
  | _ => digits ++ exponent

def Scientific.toText (style : Notation) (number : Scientific) : List Char :=
  let digits := Nat.toDigits 10 number.digits
  let place : Int := digits.length + number.exponent
  if style.firstPlace ≤ place ∧ place ≤ style.lastPlace then positional digits place
  else exponential style digits place

/-- The magnitude of finite bits that are not zero. -/
def binaryOfBits (bits : Nat) : Binary :=
  let fraction : Nat := bits % 2 ^ 52
  let biased : Nat := bits / 2 ^ 52 % 2 ^ 11
  if biased = 0 then ⟨fraction, -1074, false⟩
  else ⟨fraction + 2 ^ 52, (biased : Int) - 1075, fraction == 0 && 1 < biased⟩

def textOfBits (bits : UInt64) : String :=
  let sign := if bits.toNat < 2 ^ 63 then [] else ['-']
  let magnitude := bits.toNat % 2 ^ 63
  let body := if magnitude = 0 then ['0', '.', '0']
    else (shortest (binaryOfBits magnitude)).toText .standard
  String.ofList (sign ++ body)

end GasMachine.Decimal
