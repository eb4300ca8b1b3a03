import GasMachine.Hash

/-!
# Items

Items are the values on the stacks. They are plain values: an instruction that changes a compound
item takes the item and gives back a changed one, and two copies have nothing in common. Only a
handle on a host object has an identity, its serial number.

The size of an item is the number of items it is made of. Elements inside compound items count
towards the stack ceiling just like items on a stack.
-/

set_option autoImplicit false

namespace GasMachine

/-! ## Kinds -/

/-- The kinds of items. `any` is the kind of `null`. -/
inductive ItemKind where
  | any | pointer | boolean | integer | byteString | buffer | array | struct | map | interop
deriving DecidableEq

namespace ItemKind

def all : List ItemKind :=
  [.any, .pointer, .boolean, .integer, .byteString, .buffer, .array, .struct, .map, .interop]

def code : ItemKind → UInt8
  | .any => 0x00 | .pointer => 0x10 | .boolean => 0x20 | .integer => 0x21 | .byteString => 0x28
  | .buffer => 0x30 | .array => 0x40 | .struct => 0x41 | .map => 0x48 | .interop => 0x60

def ofByte? (byte : UInt8) : Option ItemKind :=
  all.find? fun kind => kind.code == byte

def name : ItemKind → String
  | .any => "Any" | .pointer => "Pointer" | .boolean => "Boolean" | .integer => "Integer"
  | .byteString => "ByteString" | .buffer => "Buffer" | .array => "Array" | .struct => "Struct"
  | .map => "Map" | .interop => "InteropInterface"

instance : ToString ItemKind := ⟨name⟩

/-- Whether items of the kind may be keys of a map. -/
def isPrimitive : ItemKind → Bool
  | .boolean | .integer | .byteString => true
  | _ => false

@[simp] theorem ofByte?_code (kind : ItemKind) : ofByte? kind.code = some kind := by
  cases kind <;> rfl

end ItemKind

/-! ## Handles -/

/-- An object of the host that a script can hold but not look into. -/
inductive HostObject where
  /-- The storage area of a contract, with or without the right to write. -/
  | storage (owner : ScriptHash) (readOnly : Bool)
  /-- A number that some other part of the host handed in, with the name of its type. -/
  | foreign (typeName : String) (value : Nat)
deriving DecidableEq

/-- A handle. The serial number tells apart handles on equal objects. -/
structure HostHandle where
  serial : Nat
  object : HostObject
deriving DecidableEq

/-! ## Items -/

/-- An item. The entries of a map are in insertion order. -/
inductive Item where
  | null
  | boolean (value : Bool)
  | integer (value : Int)
  | byteString (bytes : Bytes)
  | buffer (bytes : Bytes)
  | array (items : List Item)
  | struct (items : List Item)
  | map (entries : List (Item × Item))
  | pointer (script : ScriptHash) (position : Nat)
  | interop (handle : HostHandle)

namespace Item

instance : Inhabited Item := ⟨.null⟩

def kind : Item → ItemKind
  | .null => .any
  | .boolean _ => .boolean
  | .integer _ => .integer
  | .byteString _ => .byteString
  | .buffer _ => .buffer
  | .array _ => .array
  | .struct _ => .struct
  | .map _ => .map
  | .pointer _ _ => .pointer
  | .interop _ => .interop

def isNull : Item → Bool
  | .null => true
  | _ => false

/-! ## Equality

Items are equal if they are of one kind and of equal content: an integer never equals its bytes, an
array never a struct, and maps have to agree in the order of their entries. -/

mutual

def beq : Item → Item → Bool
  | .null, .null => true
  | .boolean a, .boolean b => a == b
  | .integer a, .integer b => a == b
  | .byteString a, .byteString b => a == b
  | .buffer a, .buffer b => a == b
  | .array as, .array bs => beqList as bs
  | .struct as, .struct bs => beqList as bs
  | .map as, .map bs => beqEntries as bs
  | .pointer a p, .pointer b q => a == b && p == q
  | .interop a, .interop b => a == b
  | _, _ => false

def beqList : List Item → List Item → Bool
  | [], [] => true
  | a :: as, b :: bs => beq a b && beqList as bs
  | _, _ => false

def beqEntries : List (Item × Item) → List (Item × Item) → Bool
  | [], [] => true
  | (k, a) :: as, (l, b) :: bs => beq k l && beq a b && beqEntries as bs
  | _, _ => false

end

instance : BEq Item := ⟨beq⟩

mutual

theorem beq_iff (a b : Item) : beq a b = true ↔ a = b := by
  match a with
  | .null => cases b <;> simp [beq]
  | .boolean _ => cases b <;> simp [beq]
  | .integer _ => cases b <;> simp [beq]
  | .byteString _ => cases b <;> simp [beq]
  | .buffer _ => cases b <;> simp [beq]
  | .array as => cases b <;> simp [beq, beqList_iff as]
  | .struct as => cases b <;> simp [beq, beqList_iff as]
  | .map as => cases b <;> simp [beq, beqEntries_iff as]
  | .pointer _ _ => cases b <;> simp [beq]
  | .interop _ => cases b <;> simp [beq]

theorem beqList_iff (as bs : List Item) : beqList as bs = true ↔ as = bs := by
  match as, bs with
  | [], [] => simp [beqList]
  | [], _ :: _ => simp [beqList]
  | _ :: _, [] => simp [beqList]
  | a :: as, b :: bs => simp [beqList, beq_iff a b, beqList_iff as bs]

theorem beqEntries_iff (as bs : List (Item × Item)) : beqEntries as bs = true ↔ as = bs := by
  match as, bs with
  | [], [] => simp [beqEntries]
  | [], _ :: _ => simp [beqEntries]
  | _ :: _, [] => simp [beqEntries]
  | (k, a) :: as, (l, b) :: bs =>
    simp [beqEntries, beq_iff k l, beq_iff a b, beqEntries_iff as bs]

end

instance : LawfulBEq Item where
  rfl := (beq_iff _ _).2 rfl
  eq_of_beq := (beq_iff _ _).1

instance : DecidableEq Item := fun a b => decidable_of_iff _ (beq_iff a b)

/-! ## Size -/

mutual

/-- The items that an item is made of, itself included. -/
def nodeCount : Item → Nat
  | .array items => 1 + nodeCountAll items
  | .struct items => 1 + nodeCountAll items
  | .map entries => 1 + nodeCountEntries entries
  | _ => 1

def nodeCountAll : List Item → Nat
  | [] => 0
  | item :: rest => nodeCount item + nodeCountAll rest

def nodeCountEntries : List (Item × Item) → Nat
  | [] => 0
  | (key, value) :: rest => nodeCount key + nodeCount value + nodeCountEntries rest

end

/-- The items nested inside an item, at any depth. -/
def nestedCount (item : Item) : Nat := nodeCount item - 1

def nestedCountAll : List Item → Nat
  | [] => 0
  | item :: rest => nestedCount item + nestedCountAll rest

theorem nodeCount_pos (item : Item) : 0 < nodeCount item := by
  cases item <;> unfold nodeCount <;> omega

def elementCount? : Item → Option Nat
  | .array items => some items.length
  | .struct items => some items.length
  | .map entries => some entries.length
  | _ => none

end Item

end GasMachine
