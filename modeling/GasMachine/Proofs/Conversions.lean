import GasMachine.Proofs.ShortestForm
import GasMachine.Proofs.Success

/-!
# What conversions keep

Booleans, integers, byte strings and buffers all stand for a number (`Item.number?`), and a
conversion between the last three kinds or into them keeps it. A limit only decides whether such a
conversion succeeds, and it is not looked at on every way between two kinds, so what is kept is said
of the number and not of any reading of it. Apart from buffers, which are always true, the truth
value of such an item goes by the same number.
-/

set_option autoImplicit false

namespace GasMachine

/-! ## Bytes that stand for zero -/

theorem Bytes.toNat_eq_zero_iff {bytes : Bytes} : toNat bytes = 0 ↔ ∀ byte ∈ bytes, byte = 0 := by
  induction bytes with
  | nil => simp
  | cons byte rest ih =>
    rw [toNat_cons, List.forall_mem_cons, ← ih, ← UInt8.toNat_inj, UInt8.toNat_zero]
    omega

/-- Bytes stand for zero if they are all zero. -/
theorem TwosComplement.decode_eq_zero_iff {bytes : Bytes} :
    decode bytes = 0 ↔ ∀ byte ∈ bytes, byte = 0 := by
  have small := Bytes.toNat_lt bytes
  rw [← Bytes.toNat_eq_zero_iff, decode, ← Int.dvd_iff_bmod_eq_zero, Int.natCast_dvd_natCast]
  exact ⟨fun divides => Nat.eq_zero_of_dvd_of_lt divides small, fun zero => zero ▸ dvd_zero _⟩

namespace Item

variable {limit : Nat} {target : ItemKind} {item converted : Item} {number : Int}

/-! ## The number of an item -/

/-- The number that an item stands for, whatever its size. -/
def number? : Item → Option Int
  | .boolean value => some (ofBool value)
  | .integer value => some value
  | .byteString bytes | .buffer bytes => some (TwosComplement.decode bytes)
  | _ => none

theorem ok_of_readInteger {bytes : Bytes} (read : readInteger limit bytes = .ok number) :
    TwosComplement.decode bytes = number := by
  unfold readInteger at read
  split at read
  · cases read
  · exact Except.ok.inj read

/-- Reading an integer reads the number. -/
theorem number?_of_toInteger (read : item.toInteger limit = .ok number) :
    item.number? = some number := by
  cases item with
  | boolean _ | integer _ => exact congrArg some (Except.ok.inj read)
  | byteString bytes => exact congrArg some (ok_of_readInteger read)
  | _ => cases read

/-- The bytes of an item stand for its number. -/
theorem decode_of_toBytes {bytes : Bytes} (written : item.toBytes = .ok bytes) :
    item.number? = some (TwosComplement.decode bytes) := by
  cases item with
  | boolean value =>
    obtain rfl := Except.ok.inj written
    cases value <;> decide +kernel
  | integer value =>
    obtain rfl := Except.ok.inj written
    exact congrArg some (TwosComplement.decode_encode value).symm
  | byteString _ | buffer _ =>
    obtain rfl := Except.ok.inj written
    rfl
  | _ => cases written

-- False and zero have different bytes, which stand for the same number.
example : (boolean false).toBytes = .ok [0] ∧ (integer 0).toBytes = .ok [] ∧
    TwosComplement.decode [0] = TwosComplement.decode [] := by
  decide +kernel

/-- Items that may be keys are true unless their number is zero. -/
theorem isTrue_eq_of_number? (primitive : item.kind.isPrimitive = true)
    (stands : item.number? = some number) : item.isTrue = (number != 0) := by
  cases item with
  | boolean value =>
    obtain rfl := Option.some.inj stands
    cases value <;> rfl
  | integer value =>
    obtain rfl := Option.some.inj stands
    rfl
  | byteString bytes =>
    obtain rfl := Option.some.inj stands
    rw [Bool.eq_iff_iff, bne_iff_ne, ne_eq, TwosComplement.decode_eq_zero_iff]
    simp [isTrue]
  | _ => cases primitive

/-! ## What a conversion makes -/

/-- The ways to make an item of a kind out of another one. -/
inductive Converts : ItemKind → Item → Item → Prop where
  | same {target : ItemKind} {item : Item} (kind : item.kind = target) : Converts target item item
  | truth (item : Item) : Converts .boolean item (.boolean item.isTrue)
  | number {item : Item} {number : Int} (stands : item.number? = some number) :
    Converts .integer item (.integer number)
  | byteString {item : Item} {bytes : Bytes} (written : item.toBytes = .ok bytes) :
    Converts .byteString item (.byteString bytes)
  | buffer {item : Item} {bytes : Bytes} (written : item.toBytes = .ok bytes) :
    Converts .buffer item (.buffer bytes)
  | struct (items : List Item) : Converts .struct (.array items) (.struct items)
  | array (items : List Item) : Converts .array (.struct items) (.array items)

theorem convert_converts (limit : Nat) (target : ItemKind) (item : Item) :
    Ensures (Converts target item) (item.convert limit target) := by
  have written := Ensures.self item.toBytes
  unfold convert
  split
  · rename_i same
    exact Ensures.ok (.same same)
  · split
    case h_1 => exact Ensures.ok (.truth _)
    case h_2 bytes _ =>
      have read := Ensures.self (readInteger limit bytes)
      exact Ensures.map (read.mono fun _ read => .number (congrArg some (ok_of_readInteger read)))
    case h_3 =>
      have read := Ensures.self (item.toInteger limit)
      exact Ensures.map (read.mono fun _ read => .number (number?_of_toInteger read))
    case h_4 | h_5 | h_6 => exact Ensures.map (written.mono fun _ => .byteString)
    case h_7 | h_8 | h_9 => exact Ensures.map (written.mono fun _ => .buffer)
    case h_10 => exact Ensures.ok (.struct _)
    case h_11 => exact Ensures.ok (.array _)
    case h_12 => exact Ensures.error _

namespace Converts

variable (converts : Converts target item converted)

include converts

theorem kind_eq : converted.kind = target := by
  cases converts with
  | same kind => exact kind
  | _ => rfl

/-- Only the way to a truth value loses the number. -/
theorem number?_eq (number : target ≠ .boolean) : converted.number? = item.number? := by
  cases converts with
  | same | struct | array => rfl
  | truth => exact absurd rfl number
  | number stands => exact stands.symm
  | byteString written | buffer written => exact (decode_of_toBytes written).symm

theorem isTrue_eq (primitive : item.kind.isPrimitive = true)
    (intoPrimitive : target.isPrimitive = true) : converted.isTrue = item.isTrue := by
  cases converts with
  | same | truth => rfl
  | number stands => exact (isTrue_eq_of_number? primitive stands).symm
  | byteString written =>
    rw [isTrue_eq_of_number? primitive (decode_of_toBytes written), isTrue_eq_of_number? rfl rfl]
  | buffer | struct | array => cases intoPrimitive

end Converts

/-- A conversion to the kind that an item has does nothing. -/
theorem convert_of_kind (limit : Nat) (kind : item.kind = target) :
    item.convert limit target = .ok item :=
  if_pos kind

/-- A conversion to an integer gives the number. -/
theorem number?_of_convert (made : item.convert limit .integer = .ok converted) :
    item.number?.map .integer = some converted := by
  cases convert_converts limit .integer item converted made with
  | same kind =>
    cases item <;> first | rfl | cases kind
  | number stands => rw [stands, Option.map_some]

/-- Whatever reads as an integer converts to it. -/
theorem convert_of_toInteger (read : item.toInteger limit = .ok number) :
    item.convert limit .integer = .ok (.integer number) := by
  cases item with
  | integer value => exact (convert_of_kind limit rfl).trans (congrArg (·.map integer) read)
  | boolean _ | byteString _ => exact congrArg (·.map integer) read
  | _ => cases read

/-- Bytes convert to the integer that they stand for if there are not too many. -/
theorem convert_of_written {value : Int} {form : Item}
    (written : form = .byteString (TwosComplement.encode value) ∨
      form = .buffer (TwosComplement.encode value)) :
    form.convert limit .integer =
      if (TwosComplement.encode value).length ≤ limit then .ok (.integer value)
      else .error (.integerOverflow limit) := by
  have reads : form.convert limit .integer =
      (readInteger limit (TwosComplement.encode value)).map .integer := by
    rcases written with rfl | rfl <;> rfl
  rw [reads]
  unfold readInteger
  rw [TwosComplement.decode_encode]
  split
  · rename_i long
    rw [if_neg (Nat.not_le.2 long)]
    rfl
  · rename_i short
    rw [if_pos (Nat.not_lt.1 short)]
    rfl

/-! ## What is kept -/

/-- What conversions under a limit keep of an item. -/
structure KeepsContent (limit : Nat) (item : Item) : Prop where
  /-- An item that reads as an integer converts to it. -/
  reads : ∀ number, item.toInteger limit = .ok number →
    item.convert limit .integer = .ok (.integer number)
  /-- Conversions between numbers and bytes keep the integer, where both have one. -/
  number : ∀ target converted before after, target ∈ [ItemKind.integer, .byteString, .buffer] →
    item.convert limit target = .ok converted →
      item.convert limit .integer = .ok before → converted.convert limit .integer = .ok after →
        before = after
  /-- Conversions between kinds that keys may have keep the truth value. -/
  truth : ∀ target converted, item.kind.isPrimitive = true → target.isPrimitive = true →
    item.convert limit target = .ok converted → converted.isTrue = item.isTrue
  /-- An integer comes back from its bytes, if these are not too many. -/
  roundTrip : ∀ value target, item = .integer value → target ∈ [ItemKind.byteString, .buffer] →
    ∃ form, item.convert limit target = .ok form ∧
      form.convert limit .integer =
        if (TwosComplement.encode value).length ≤ limit then .ok item
        else .error (.integerOverflow limit)
  /-- What a conversion makes is of the kind asked for. -/
  kind : ∀ target converted, item.convert limit target = .ok converted → converted.kind = target
  /-- Converting it once more does nothing. -/
  again : ∀ target converted, item.convert limit target = .ok converted →
    converted.convert limit target = .ok converted
  /-- An array comes back from a struct. -/
  elements : ∀ items, item = .array items →
    ∃ struct, item.convert limit .struct = .ok struct ∧ struct.convert limit .array = .ok item
  /-- The length is that of the bytes, and there is one exactly if there are bytes. -/
  length : ∀ n, item.byteLength? = some n ↔ ∃ bytes, item.toBytes = .ok bytes ∧ bytes.length = n

theorem keepsContent (limit : Nat) (item : Item) : item.KeepsContent limit := by
  constructor
  case reads => exact fun number => convert_of_toInteger
  case number =>
    intro target converted before after into made first second
    have notTruth : target ≠ .boolean := by
      rintro rfl
      simp at into
    have kept := (convert_converts limit target item converted made).number?_eq notTruth
    have same := number?_of_convert second
    rw [kept, number?_of_convert first] at same
    exact Option.some.inj same
  case truth =>
    intro target converted primitive intoPrimitive made
    exact (convert_converts limit target item converted made).isTrue_eq primitive intoPrimitive
  case roundTrip =>
    rintro value target rfl into
    rcases List.mem_pair.1 into with rfl | rfl
    · exact ⟨_, rfl, convert_of_written (.inl rfl)⟩
    · exact ⟨_, rfl, convert_of_written (.inr rfl)⟩
  case kind =>
    exact fun target converted made => (convert_converts limit target item _ made).kind_eq
  case again =>
    intro target converted made
    exact convert_of_kind limit (convert_converts limit target item converted made).kind_eq
  case elements =>
    rintro items rfl
    exact ⟨.struct items, rfl, rfl⟩
  case length => exact fun n => byteLength?_eq_some_iff

end Item

end GasMachine
