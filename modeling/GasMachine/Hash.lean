import GasMachine.Bytes.Hex
import GasMachine.Text.Quoted

/-!
# Hashes

A hash is a byte string of a fixed length. Scripts and contracts are identified by hashes of 20
bytes, blocks by hashes of 32. The order is that of the bytes, which is also the order of the
hexadecimal texts; snapshots are listed in it.
-/

set_option autoImplicit false

namespace GasMachine

structure Hash (n : Nat) where
  bytes : Bytes
  length_eq : bytes.length = n
deriving DecidableEq

/-- Identity of a script or contract. -/
abbrev ScriptHash := Hash 20

abbrev BlockHash := Hash 32

namespace Hash

variable {n : Nat}

@[ext] theorem ext {a b : Hash n} (h : a.bytes = b.bytes) : a = b := by
  cases a; cases b; cases h; rfl

inductive Error where
  | invalidHex (cause : Hex.Error)
  | invalidLength (expected got : Nat)
deriving DecidableEq

/-- The message of an error; a refused character is shown quoted. -/
def Error.message : Error → String
  | .invalidHex .oddLength => "invalid hex string: Odd number of digits"
  | .invalidHex (.invalidCharacter found position) =>
    s!"invalid hex string: Invalid character {Quoted.char found} at position {position}"
  | .invalidLength expected got => s!"invalid hash length: expected {expected} bytes, got {got}"

def ofBytes (bytes : Bytes) : Except Error (Hash n) :=
  if h : bytes.length = n then .ok ⟨bytes, h⟩ else .error (.invalidLength n bytes.length)

/-- A hash from its text, with or without a leading `0x`. -/
def ofText (text : String) : Except Error (Hash n) :=
  match Hex.decode (Hex.dropMarker text) with
  | .ok bytes => ofBytes bytes
  | .error cause => .error (.invalidHex cause)

def zero : Hash n := ⟨List.replicate n 0, by simp⟩

def isZero (hash : Hash n) : Bool := hash = zero

def toText (hash : Hash n) : String := "0x" ++ Hex.encode hash.bytes

instance : ToString (Hash n) := ⟨toText⟩

/-! ## Order -/

instance : Ord (Hash n) := ⟨fun a b => compare a.bytes b.bytes⟩

theorem compare_def (a b : Hash n) : compare a b = compare a.bytes b.bytes := rfl

instance : Std.TransOrd (Hash n) where
  eq_swap := Std.OrientedOrd.eq_swap (α := Bytes)
  isLE_trans := Std.TransOrd.isLE_trans (α := Bytes)

instance : Std.LawfulEqOrd (Hash n) where
  eq_of_compare h := ext (Std.LawfulEqOrd.eq_of_compare (α := Bytes) h)

-- The tables of a store are keyed by script hashes: a proof they can name.
instance : Std.TransOrd ScriptHash := inferInstanceAs (Std.TransOrd (Hash 20))

end Hash

end GasMachine
