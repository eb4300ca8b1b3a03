import GasMachine.Item.Conversion

/-!
# Slices of byte items

Cutting, joining and copying works on the bytes of any item that has some and gives a buffer. A
range has to lie inside the bytes. If it does not, the fault shows where the range would have
ended, as the signed word with the bits of the largest unsigned word if it ends beyond that. This
is checked before the range is cut out or overwritten; without the check a range that goes beyond
the end would break the behaviour off.
-/

set_option autoImplicit false

namespace GasMachine.Item

open TwosComplement (wordMax signed)

/-- Check that `count` bytes from `index` on lie inside `size` bytes. -/
def checkRange (index count size : Nat) : Except Fault Unit :=
  if index + count ≤ size then .ok ()
  else .error (.indexOutOfRange (signed (min (index + count) wordMax)) size)

def slice (index count : Nat) (bytes : Bytes) : Except Fault Bytes :=
  if index + count ≤ bytes.length then .ok ((bytes.drop index).take count)
  else .error (.internal (.outOfRange .range (index + count) bytes.length))

def substring (limit : Nat) (length index source : Item) : Except Fault Item := do
  let bytes ← source.toBytes
  let index ← index.toCount limit
  let length ← length.toCount limit
  checkRange index length bytes.length
  return .buffer (← slice index length bytes)

def left (limit : Nat) (length source : Item) : Except Fault Item := do
  let bytes ← source.toBytes
  let length ← length.toCount limit
  checkRange 0 length bytes.length
  return .buffer (← slice 0 length bytes)

def right (limit : Nat) (length source : Item) : Except Fault Item := do
  let bytes ← source.toBytes
  let length ← length.toCount limit
  if length ≤ bytes.length then
    return .buffer (← slice (bytes.length - length) length bytes)
  else throw (.indexOutOfRange (signed length) bytes.length)

def join (first second : Item) : Except Fault Item := do
  return .buffer ((← first.toBytes) ++ (← second.toBytes))

/-- Put bytes in the place of as many others. -/
def splice (index : Nat) (bytes target : Bytes) : Except Fault Bytes :=
  if index + bytes.length ≤ target.length then
    .ok (target.take index ++ bytes ++ target.drop (index + bytes.length))
  else .error (.internal (.outOfRange .range (index + bytes.length) target.length))

theorem length_of_splice {index : Nat} {bytes target result : Bytes}
    (spliced : splice index bytes target = .ok result) : result.length = target.length := by
  unfold splice at spliced
  split at spliced
  · cases spliced
    simp
    omega
  · cases spliced

def copyInto (limit : Nat) (length sourceIndex source targetIndex target : Item) :
    Except Fault Item := do
  let length ← length.toCount limit
  let source ← source.toBytes
  let sourceIndex ← sourceIndex.toCount limit
  checkRange sourceIndex length source.length
  match target with
  | .buffer bytes =>
    let targetIndex ← targetIndex.toCount limit
    checkRange targetIndex length bytes.length
    return .buffer (← splice targetIndex (← slice sourceIndex length source) bytes)
  | other => throw (.invalidType (.kinds [.buffer]) other.kind)

end GasMachine.Item
