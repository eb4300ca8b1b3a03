import GasMachine.Config
import GasMachine.Item.Conversion
import GasMachine.Item.OrderedMap

/-!
# Access by key

Arrays, structs and byte items are accessed by index, maps by key. An operation that changes an
item gives back the changed item. Reading and writing insist on an index inside the item; asking
whether a key is there only insists that it could be one.
-/

set_option autoImplicit false

namespace GasMachine.Item

open TwosComplement (fitsSigned signedMax signedMin)

/-! ## Keys -/

/-- A number as far as a message can show it: a signed 64-bit word, or the given stand-in. -/
def shownIndex (index standIn : Int) : Int := if fitsSigned index then index else standIn

def readIndex (limits : Limits) (size : Nat) (key : Item) : Except Fault Nat := do
  let index ← key.toInteger limits.integerSize
  if 0 ≤ index ∧ index < size then return index.toNat
  else throw (.indexOutOfRange (shownIndex index signedMax) size)

def hasIndex (limits : Limits) (size : Nat) (key : Item) : Except Fault Bool := do
  let index ← key.toInteger limits.integerSize
  if index < 0 then throw (.indexOutOfRange (shownIndex index signedMin) size)
  else return index < size

/-! ## Places

A behaviour that reaches beyond the end of a list or of bytes breaks off. -/

def look {α : Type} (access : Access) (items : List α) (index : Nat) : Except Fault α :=
  match items[index]? with
  | some found => .ok found
  | none => .error (.internal (.outOfRange access index items.length))

def replace {α : Type} (items : List α) (index : Nat) (value : α) : Except Fault (List α) := do
  let _ ← look .place items index
  return items.set index value

def takeOut {α : Type} (items : List α) (index : Nat) : Except Fault (List α) := do
  let _ ← look .removal items index
  return items.eraseIdx index

/-! ## Reading -/

def hasKey (limits : Limits) (key : Item) : Item → Except Fault Bool
  | .map entries => do
    key.checkKey limits.mapKeySize
    return ItemMap.contains key entries
  | .array items | .struct items => hasIndex limits items.length key
  | .byteString bytes | .buffer bytes => hasIndex limits bytes.length key
  | item => .error (.invalidType .sized item.kind)

def elementAt (limits : Limits) (items : List Item) (key : Item) : Except Fault Item := do
  look .extraction items (← key.readIndex limits items.length)

/-- The element, value or byte of a key. -/
def pickItem (limits : Limits) (key : Item) : Item → Except Fault Item
  | .map entries => do
    key.checkKey limits.mapKeySize
    match ItemMap.get? key entries with
    | some value => return value
    | none => throw .keyNotFound
  | .array items | .struct items => elementAt limits items key
  | .byteString bytes | .buffer bytes => do
    let byte ← look .place bytes (← key.readIndex limits bytes.length)
    return .integer byte.toNat
  | item => .error (.invalidType .sized item.kind)

def keys : Item → Except Fault Item
  | .map entries => .ok (.array (ItemMap.keys entries))
  | item => .error (.invalidType (.kinds [.map]) item.kind)

def values : Item → Except Fault Item
  | .array items | .struct items => .ok (.array items)
  | .map entries => .ok (.array (ItemMap.values entries))
  | item => .error (.invalidType (.kinds [.array, .struct, .map]) item.kind)

/-- The number of parts of a compound item, and the parts themselves. -/
def unpack : Item → Except Fault (List Item)
  | .array items | .struct items => .ok (.integer items.length :: items)
  | .map entries =>
    .ok (.integer entries.length :: entries.flatMap fun (key, value) => [key, value])
  | item => .error (.invalidType (.kinds [.array, .struct, .map]) item.kind)

/-! ## Writing -/

/-- The byte of a number that fits a byte with or without sign. -/
def readByte (limits : Limits) (value : Item) : Except Fault UInt8 := do
  let byte ← value.toInteger limits.integerSize
  if -128 ≤ byte ∧ byte ≤ 255 then return UInt8.ofNat (byte % 256).toNat
  else throw (.invalidArgument (.notByte byte))

/-- Set the element, value or byte of a key. -/
def setItem (limits : Limits) (key value : Item) : Item → Except Fault Item
  | .array items => do
    let index ← key.readIndex limits items.length
    return .array (← replace items index value)
  | .struct items => do
    let index ← key.readIndex limits items.length
    return .struct (← replace items index value)
  | .map entries => do
    key.checkKey limits.mapKeySize
    return .map (ItemMap.insert key value entries)
  | .buffer bytes => do
    let index ← key.readIndex limits bytes.length
    return .buffer (← replace bytes index (← value.readByte limits))
  | item => .error (.invalidType (.kinds [.array, .struct, .map, .buffer]) item.kind)

def append (element : Item) : Item → Except Fault Item
  | .array items => .ok (.array (items ++ [element]))
  | .struct items => .ok (.struct (items ++ [element]))
  | item => .error (.invalidType (.kinds [.array, .struct]) item.kind)

/-- Remove the element or entry of a key. A map need not have the key. -/
def removeItem (limits : Limits) (key : Item) : Item → Except Fault Item
  | .array items => do
    let index ← key.readIndex limits items.length
    return .array (← takeOut items index)
  | .struct items => do
    let index ← key.readIndex limits items.length
    return .struct (← takeOut items index)
  | .map entries => do
    key.checkKey limits.mapKeySize
    return .map (ItemMap.erase key entries)
  | item => .error (.invalidType (.kinds [.array, .struct, .map]) item.kind)

def reverseItems : Item → Except Fault Item
  | .array items => .ok (.array items.reverse)
  | .struct items => .ok (.struct items.reverse)
  | .buffer bytes => .ok (.buffer bytes.reverse)
  | item => .error (.invalidType (.kinds [.array, .struct, .buffer]) item.kind)

def clearItems : Item → Except Fault Item
  | .array _ => .ok (.array [])
  | .struct _ => .ok (.struct [])
  | .map _ => .ok (.map [])
  | item => .error (.invalidType (.kinds [.array, .struct, .map]) item.kind)

/-! ## Making -/

/-- What the elements of a fresh array of a kind are: zero of the kind, or `null`. -/
def initial : ItemKind → Item
  | .boolean => .boolean false
  | .integer => .integer 0
  | .byteString => .byteString []
  | _ => .null

end GasMachine.Item
