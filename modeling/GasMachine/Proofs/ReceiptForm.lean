import Mathlib
import GasMachine.Parameter
import GasMachine.Proofs.HexText

/-!
# Receipts read back

A reader for the receipt form: it takes the JSON values that parameters are written as, and no
others, and gives the parameters. So no two parameters are written alike. Kinds share their shapes
(two are written with a null, two with a text and two with a list), and it is the type name that
keeps these apart; within a kind it is the text of a number, the text of a byte string or the list,
which all read back to what they were written from.
-/

set_option autoImplicit false

namespace GasMachine.Parameter

/-! ## Reader

The reader follows the shape of the values that are written and asks for it exactly: a member more,
another order or a number written in another way is refused. -/

/-- Read a text, and take what was read only if it is written as the text. -/
def strictly? {α : Type} (write : α → String) (read : String → Option α) (text : String) :
    Option α :=
  (read text).filter fun value => write value = text

/-- The integer of a decimal text without a plus sign and without zeros in front. -/
def integerOf? : String → Option Int := strictly? toString String.toInt?

/-- The byte string of a hexadecimal text in lower case. -/
def bytesOf? : String → Option Bytes :=
  strictly? Hex.encode fun text => (Hex.decode text).toOption

mutual

/-- The parameter that a JSON value is the receipt form of. -/
def ofJson? : Json → Option Parameter
  | .object [(first, .string typeName), (second, value)] =>
    if first = "type" ∧ second = "value" then ofValue? typeName value else none
  | _ => none

/-- The parameter of a type name and a value: the shape of the value leaves two kinds at most, and
the name decides. -/
def ofValue? (typeName : String) : Json → Option Parameter
  | .null =>
    if typeName = "Any" then some .any
    else if typeName = "InteropInterface" then some .interop
    else none
  | .bool value => if typeName = "Boolean" then some (.boolean value) else none
  | .string text =>
    if typeName = "Integer" then (integerOf? text).map .integer
    else if typeName = "ByteArray" then (bytesOf? text).map .byteArray
    else none
  | .array items =>
    if typeName = "Array" then (itemsOf? items).map .array
    else if typeName = "Map" then (entriesOf? items).map .map
    else none
  | _ => none

def itemsOf? : List Json → Option (List Parameter)
  | [] => some []
  | item :: rest => do return (← ofJson? item) :: (← itemsOf? rest)

def entriesOf? : List Json → Option (List (Parameter × Parameter))
  | [] => some []
  | .object [(first, key), (second, value)] :: rest =>
    if first = "key" ∧ second = "value" then do
      return (← ofJson? key, ← ofJson? value) :: (← entriesOf? rest)
    else none
  | _ => none

end

/-! ## Texts

Numbers and byte strings are read by readers that accept more than one spelling, so what was read is
written again and compared. -/

theorem strictly?_eq_some_iff {α : Type} {write : α → String} {read : String → Option α}
    (back : ∀ value, read (write value) = some value) {text : String} {value : α} :
    strictly? write read text = some value ↔ text = write value := by
  constructor
  · intro taken
    obtain ⟨-, same⟩ := Option.filter_eq_some_iff.1 taken
    exact (of_decide_eq_true same).symm
  · rintro rfl
    exact Option.filter_eq_some_iff.2 ⟨back value, decide_eq_true rfl⟩

theorem integerOf?_eq_some_iff {text : String} {value : Int} :
    integerOf? text = some value ↔ text = toString value :=
  strictly?_eq_some_iff Int.toInt?_repr

theorem bytesOf?_eq_some_iff {text : String} {bytes : Bytes} :
    bytesOf? text = some bytes ↔ text = Hex.encode bytes :=
  strictly?_eq_some_iff fun bytes => by rw [Hex.decode_encode, Except.toOption]

/-! ## What is written is read

By induction on the parameter; lists and entries are read by functions of their own, so the three
statements are proved together. -/

theorem ofJson?_tagged (typeName : String) (value : Json) :
    ofJson? (tagged typeName value) = ofValue? typeName value := by
  simp [tagged, ofJson?]

mutual

theorem ofJson?_toJson : ∀ parameter : Parameter, ofJson? parameter.toJson = some parameter
  | .any | .boolean _ | .interop => by simp [toJson, ofJson?_tagged, ofValue?]
  | .integer value => by
    have read : integerOf? (toString value) = some value := integerOf?_eq_some_iff.2 rfl
    simp only [toJson, ofJson?_tagged, ofValue?, if_true, read, Option.map_some]
  | .byteArray bytes => by
    have read : bytesOf? (Hex.encode bytes) = some bytes := bytesOf?_eq_some_iff.2 rfl
    simp [toJson, ofJson?_tagged, ofValue?, read]
  | .array items => by simp [toJson, ofJson?_tagged, ofValue?, itemsOf?_itemsToJson items]
  | .map entries => by simp [toJson, ofJson?_tagged, ofValue?, entriesOf?_entriesToJson entries]

theorem itemsOf?_itemsToJson : ∀ items : List Parameter, itemsOf? (itemsToJson items) = some items
  | [] => rfl
  | item :: rest => by
    simp [itemsToJson, itemsOf?, ofJson?_toJson item, itemsOf?_itemsToJson rest]

theorem entriesOf?_entriesToJson :
    ∀ entries : List (Parameter × Parameter), entriesOf? (entriesToJson entries) = some entries
  | [] => rfl
  | (key, value) :: rest => by
    simp [entriesToJson, entriesOf?, ofJson?_toJson key, ofJson?_toJson value,
      entriesOf?_entriesToJson rest]

end

/-! ## Nothing else is read

The same induction the other way round, along the reader: whatever it accepts is what would have
been written for its answer. -/

mutual

theorem eq_toJson_of_ofJson? (json : Json) (parameter : Parameter)
    (read : ofJson? json = some parameter) : json = parameter.toJson := by
  unfold ofJson? at read
  split at read
  case h_1 first typeName second value =>
    split at read
    case isTrue names =>
      rw [names.1, names.2]
      exact tagged_eq_toJson typeName value parameter read
    case isFalse => cases read
  case h_2 => cases read
termination_by sizeOf json

theorem tagged_eq_toJson (typeName : String) (value : Json) (parameter : Parameter)
    (read : ofValue? typeName value = some parameter) :
    tagged typeName value = parameter.toJson := by
  unfold ofValue? at read
  -- One case for each shape, and in it one for each name that goes with the shape.
  split at read
  case h_1 =>
    split at read
    case isTrue name => subst name; cases read; rfl
    case isFalse =>
      split at read
      case isTrue name => subst name; cases read; rfl
      case isFalse => cases read
  case h_2 value =>
    split at read
    case isTrue name => subst name; cases read; rfl
    case isFalse => cases read
  case h_3 text =>
    split at read
    case isTrue name =>
      obtain ⟨value, written, rfl⟩ := Option.map_eq_some_iff.1 read
      rw [name, integerOf?_eq_some_iff.1 written, toJson]
    case isFalse =>
      split at read
      case isTrue name =>
        obtain ⟨bytes, written, rfl⟩ := Option.map_eq_some_iff.1 read
        rw [name, bytesOf?_eq_some_iff.1 written, toJson]
      case isFalse => cases read
  case h_4 items =>
    split at read
    case isTrue name =>
      obtain ⟨parameters, written, rfl⟩ := Option.map_eq_some_iff.1 read
      rw [name, eq_itemsToJson items parameters written, toJson]
    case isFalse =>
      split at read
      case isTrue name =>
        obtain ⟨entries, written, rfl⟩ := Option.map_eq_some_iff.1 read
        rw [name, eq_entriesToJson items entries written, toJson]
      case isFalse => cases read
  case h_5 => cases read
termination_by sizeOf value

theorem eq_itemsToJson (items : List Json) (parameters : List Parameter)
    (read : itemsOf? items = some parameters) : items = itemsToJson parameters := by
  cases items with
  | nil => cases read; rfl
  | cons item rest =>
    simp only [itemsOf?, Option.bind_eq_bind, Option.bind_eq_some_iff, Option.pure_def] at read
    obtain ⟨first, firstRead, others, othersRead, same⟩ := read
    cases same
    rw [itemsToJson, ← eq_toJson_of_ofJson? item first firstRead,
      ← eq_itemsToJson rest others othersRead]
termination_by sizeOf items

theorem eq_entriesToJson (items : List Json) (entries : List (Parameter × Parameter))
    (read : entriesOf? items = some entries) : items = entriesToJson entries := by
  unfold entriesOf? at read
  split at read
  case h_1 => cases read; rfl
  case h_2 first key second value rest =>
    split at read
    case isTrue names =>
      simp only [Option.bind_eq_bind, Option.bind_eq_some_iff, Option.pure_def] at read
      obtain ⟨keyOf, keyRead, valueOf, valueRead, others, othersRead, same⟩ := read
      cases same
      rw [entriesToJson, ← eq_toJson_of_ofJson? key keyOf keyRead,
        ← eq_toJson_of_ofJson? value valueOf valueRead,
        ← eq_entriesToJson rest others othersRead, names.1, names.2]
    case isFalse => cases read
  case h_3 => cases read
termination_by sizeOf items

end

/-! ## Nothing is lost -/

/-- The receipt form is lossless, at any depth, for integers of any size and byte strings of any
length: parameters that are written alike are the same, what is written is read back, and nothing is
read but what is written. -/
theorem toJson_lossless :
    Function.Injective toJson ∧
      (∀ parameter, ofJson? (toJson parameter) = some parameter) ∧
      ∀ json parameter, ofJson? json = some parameter ↔ json = toJson parameter := by
  refine ⟨?apart, ofJson?_toJson, fun json parameter => ?read⟩
  case apart =>
    intro first second same
    have read : some first = some second := by
      rw [← ofJson?_toJson first, same, ofJson?_toJson second]
    exact Option.some.inj read
  case read =>
    constructor
    · exact eq_toJson_of_ofJson? json parameter
    · rintro rfl
      exact ofJson?_toJson parameter

end GasMachine.Parameter
