import GasMachine.Item
import GasMachine.Json

/-!
# Receipt form

What a caller gets to see of an item. Structs become arrays and both byte kinds become one, a
pointer shows its position, and a host object shows nothing. In JSON every parameter is a pair of a
type name and a value; integers are decimal texts and bytes are hexadecimal texts, so that no
reader has to deal with long numbers.
-/

set_option autoImplicit false

namespace GasMachine

/-- An item in receipt form. -/
inductive Parameter where
  | any
  | boolean (value : Bool)
  | integer (value : Int)
  | byteArray (bytes : Bytes)
  | array (items : List Parameter)
  | map (entries : List (Parameter × Parameter))
  | interop

namespace Parameter

def typeName : Parameter → String
  | .any => "Any"
  | .boolean _ => "Boolean"
  | .integer _ => "Integer"
  | .byteArray _ => "ByteArray"
  | .array _ => "Array"
  | .map _ => "Map"
  | .interop => "InteropInterface"

def tagged (typeName : String) (value : Json) : Json :=
  .object [("type", .string typeName), ("value", value)]

mutual

def toJson : Parameter → Json
  | .any => tagged "Any" .null
  | .boolean value => tagged "Boolean" (.bool value)
  | .integer value => tagged "Integer" (.string (toString value))
  | .byteArray bytes => tagged "ByteArray" (.string (Hex.encode bytes))
  | .array items => tagged "Array" (.array (itemsToJson items))
  | .map entries => tagged "Map" (.array (entriesToJson entries))
  | .interop => tagged "InteropInterface" .null

def itemsToJson : List Parameter → List Json
  | [] => []
  | item :: rest => toJson item :: itemsToJson rest

def entriesToJson : List (Parameter × Parameter) → List Json
  | [] => []
  | (key, value) :: rest =>
    .object [("key", toJson key), ("value", toJson value)] :: entriesToJson rest

end

/-- The name beside the value is the type name of the parameter. -/
theorem toJson_eq_tagged (parameter : Parameter) :
    ∃ value, parameter.toJson = tagged parameter.typeName value := by
  cases parameter <;> exact ⟨_, rfl⟩

end Parameter

namespace Item

mutual

def toParameter : Item → Parameter
  | .null => .any
  | .boolean value => .boolean value
  | .integer value => .integer value
  | .byteString bytes => .byteArray bytes
  | .buffer bytes => .byteArray bytes
  | .array items => .array (toParameters items)
  | .struct items => .array (toParameters items)
  | .map entries => .map (entriesToParameters entries)
  | .pointer _ position => .integer position
  | .interop _ => .interop

def toParameters : List Item → List Parameter
  | [] => []
  | item :: rest => toParameter item :: toParameters rest

def entriesToParameters : List (Item × Item) → List (Parameter × Parameter)
  | [] => []
  | (key, value) :: rest => (toParameter key, toParameter value) :: entriesToParameters rest

end

end Item

end GasMachine
