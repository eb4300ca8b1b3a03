import GasMachine.Bytes.TwosComplement
import GasMachine.Fault

/-!
# Conversions

Every item has a truth value. Booleans, integers and byte strings are also integers, and together
with buffers they have a form in bytes. A byte string only counts as an integer if it is no longer
than integers may be; an integer that is already there is not measured again.
-/

set_option autoImplicit false

namespace GasMachine.Item

open TwosComplement (wordMax fitsSigned)

/-! ## Truth -/

/-- Whether an item counts as true: zero, zero bytes and `null` do not. -/
def isTrue : Item → Bool
  | .null => false
  | .boolean value => value
  | .integer value => value != 0
  | .byteString bytes => bytes.any fun byte => byte != 0
  | _ => true

/-! ## Numbers -/

def ofBool (value : Bool) : Int := if value then 1 else 0

/-- The integer that bytes stand for, unless there are more of them than an integer may have. -/
def readInteger (limit : Nat) (bytes : Bytes) : Except Fault Int :=
  if limit < bytes.length then .error (.integerOverflow limit)
  else .ok (TwosComplement.decode bytes)

def toInteger (limit : Nat) : Item → Except Fault Int
  | .boolean value => .ok (ofBool value)
  | .integer value => .ok value
  | .byteString bytes => readInteger limit bytes
  | item => .error (.invalidConversion item.kind .integer)

def toSigned (limit : Nat) (item : Item) : Except Fault Int := do
  let value ← item.toInteger limit
  if fitsSigned value then return value else throw (.invalidArgument (.beyondWord value))

def toCount (limit : Nat) (item : Item) : Except Fault Nat := do
  let value ← item.toInteger limit
  if 0 ≤ value ∧ value ≤ wordMax then return value.toNat
  else throw (.invalidArgument (.notCount value))

/-- An integer item, unless its shortest form has more bytes than an integer may have. -/
def ofInteger (limit : Nat) (value : Int) : Except Fault Item :=
  if limit < TwosComplement.width value then .error (.integerOverflow limit)
  else .ok (.integer value)

/-! ## Bytes -/

def toBytes : Item → Except Fault Bytes
  | .boolean value => .ok [if value then 1 else 0]
  | .integer value => .ok (TwosComplement.encode value)
  | .byteString bytes => .ok bytes
  | .buffer bytes => .ok bytes
  | item => .error (.invalidConversion item.kind .byteString)

def byteLength? : Item → Option Nat
  | .boolean _ => some 1
  | .integer value => some (TwosComplement.width value)
  | .byteString bytes => some bytes.length
  | .buffer bytes => some bytes.length
  | _ => none

theorem byteLength?_eq_some_iff {item : Item} {n : Nat} :
    item.byteLength? = some n ↔ ∃ bytes, item.toBytes = .ok bytes ∧ bytes.length = n := by
  cases item <;> simp [byteLength?, toBytes]

def size? (item : Item) : Option Nat :=
  item.elementCount? <|> item.byteLength?

/-! ## From kind to kind -/

/-- The item of another kind with the same content. Every item has a truth value, numbers and
bytes turn into each other, and so do arrays and structs. -/
def convert (limit : Nat) (target : ItemKind) (item : Item) : Except Fault Item :=
  if item.kind = target then .ok item
  else match target, item with
    | .boolean, _ => .ok (.boolean item.isTrue)
    | .integer, .buffer bytes => (readInteger limit bytes).map .integer
    | .integer, _ => (item.toInteger limit).map .integer
    | .byteString, .boolean _ | .byteString, .integer _ | .byteString, .buffer _ =>
      item.toBytes.map .byteString
    | .buffer, .boolean _ | .buffer, .integer _ | .buffer, .byteString _ =>
      item.toBytes.map .buffer
    | .struct, .array items => .ok (.struct items)
    | .array, .struct items => .ok (.array items)
    | _, _ => .error (.invalidConversion item.kind target)

/-- An item as its kind's own bytes when a script throws it: its text, or the name of its kind. -/
def thrownText (item : Item) : String :=
  match item.toBytes with
  | .ok bytes => Utf8.decodeLossy bytes
  | .error _ => item.kind.name

/-! ## Map keys -/

def checkKey (limit : Nat) (item : Item) : Except Fault Unit :=
  if ¬ item.kind.isPrimitive then .error (.invalidMapKey (.notPrimitive item.kind))
  else match item.byteLength? with
    | some size => if limit < size then .error (.invalidMapKey (.tooLong size limit)) else .ok ()
    | none => .ok ()

end GasMachine.Item
