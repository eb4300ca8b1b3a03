import GasMachine.Instruction.Run
import GasMachine.Proofs.EveryItem

/-!
# What computations fail for

A fault is the script's own unless it is internal or that of a called contract. An internal fault
tells of a defect: a behaviour got other arguments than it takes apart, was run for an opcode that
it does not know, reached beyond the end of something, asked for more than memory can address, or
gave other results than declared.

`Sound given post computation` says that a computation gives a result as said, or fails for a
reason of the script's own; only if `given` does not hold, it may also fail for a defect. Here this
is shown of everything that behaviours and services are made of, for any `given`. What is checked
before each access has to hold in any case (`readIndex_sound`, `checkRange_sound`); what nothing
checks, such as the number of arguments, has to hold under `given`.

So one lemma for each computation says two things of it. If what it rests on is there, `given` is
`True`, and no defect is possible. If nothing is known, `given` is `False`, and the fault is still
not that of a called contract.
-/

set_option autoImplicit false

namespace GasMachine

open TwosComplement (wordMax)

/-- Whether a fault is internal, or that of a called contract is. -/
def Fault.isInternal : Fault → Bool
  | .internal _ => true
  | .contractFault _ cause _ _ => cause.isInternal
  | _ => false

/-- Whether a fault is the script's own. -/
def Fault.isPlain : Fault → Bool
  | .internal _ | .contractFault _ _ _ _ => false
  | _ => true

theorem Fault.isInternal_of_isPlain {fault : Fault} (plain : fault.isPlain = true) :
    fault.isInternal = false := by
  cases fault <;> first | rfl | cases plain

theorem FaultRecord.isInternal_asContractFault (record : FaultRecord) (depth : Nat) :
    (record.asContractFault depth).isInternal = record.fault.isInternal := by
  unfold asContractFault
  split
  · rename_i innermost
    rw [innermost]
  · rfl

/-- The computation gives a result as said, or fails for a reason of the script's own, or for a
defect that is excluded by what is given. -/
inductive Sound (given : Prop) {α : Type} (post : α → Prop) : Except Fault α → Prop where
  | ok {result : α} (h : post result) : Sound given post (.ok result)
  | error {fault : Fault} (plain : fault.isPlain = true) : Sound given post (.error fault)
  | defect {cause : Defect} (excluded : ¬given) : Sound given post (.error (.internal cause))

namespace Sound

variable {given : Prop} {α β : Type} {post : α → Prop}

theorem pure {result : α} (h : post result) : Sound given post (Pure.pure result) := .ok h

theorem throw {fault : Fault} (plain : fault.isPlain = true) :
    Sound given post (MonadExcept.throw fault : Except Fault α) := .error plain

theorem mono {pre : α → Prop} {computation : Except Fault α} (h : Sound given pre computation)
    (weaker : ∀ result, pre result → post result) : Sound given post computation := by
  cases h with
  | ok held => exact .ok (weaker _ held)
  | error plain => exact .error plain
  | defect excluded => exact .defect excluded

theorem bind {next : β → Except Fault α} {mid : β → Prop} {first : Except Fault β}
    (h : Sound given mid first) (then_ : ∀ b, mid b → Sound given post (next b)) :
    Sound given post (first >>= next) := by
  cases h with
  | ok held => exact then_ _ held
  | error plain => exact .error plain
  | defect excluded => exact .defect excluded

theorem map {f : β → α} {computation : Except Fault β}
    (h : Sound given (fun b => post (f b)) computation) : Sound given post (computation.map f) := by
  cases h with
  | ok held => exact .ok held
  | error plain => exact .error plain
  | defect excluded => exact .defect excluded

/-- A computation gives the result that it gives. -/
theorem self {computation : Except Fault α} (h : Sound given post computation) :
    Sound given (fun result => computation = .ok result) computation := by
  cases h with
  | ok _ => exact .ok rfl
  | error plain => exact .error plain
  | defect excluded => exact .defect excluded

theorem ensures {computation : Except Fault α} (h : Sound given post computation) :
    Ensures post computation := by
  cases h with
  | ok held => exact Ensures.ok held
  | error _ | defect _ => exact Ensures.error _

theorem not_isInternal {computation : Except Fault α} (h : Sound True post computation)
    {fault : Fault} (failed : computation = .error fault) : fault.isInternal = false := by
  cases h with
  | ok _ => cases failed
  | error plain =>
    cases failed
    exact fault.isInternal_of_isPlain plain
  | defect excluded => exact absurd trivial excluded

end Sound

/-! ## Arguments

Taking arguments apart works if there are as many as are wanted. -/

namespace Arguments

variable {given : Prop} {items : List Item}

theorem one_sound (count : given → items.length = 1) :
    Sound given (fun a => items = [a]) (one items) := by
  unfold one
  split
  · exact .ok rfl
  · rename_i other
    refine .defect fun holds => ?_
    obtain ⟨a, same⟩ := List.length_eq_one_iff.1 (count holds)
    exact other a same

theorem two_sound (count : given → items.length = 2) :
    Sound given (fun _ => True) (two items) := by
  unfold two
  split
  · exact .ok trivial
  · rename_i other
    refine .defect fun holds => ?_
    obtain ⟨a, b, same⟩ := List.length_eq_two.1 (count holds)
    exact other a b same

theorem three_sound (count : given → items.length = 3) :
    Sound given (fun _ => True) (three items) := by
  unfold three
  split
  · exact .ok trivial
  · rename_i other
    refine .defect fun holds => ?_
    obtain ⟨a, b, c, same⟩ := List.length_eq_three.1 (count holds)
    exact other a b c same

theorem five_sound (count : given → items.length = 5) :
    Sound given (fun _ => True) (five items) := by
  unfold five
  split
  · exact .ok trivial
  · rename_i other
    refine .defect fun holds => ?_
    match items, count holds with
    | [a, b, c, d, e], _ => exact other a b c d e rfl

theorem counted_sound (some_ : given → 0 < items.length) :
    Sound given (fun (count, rest) => items = count :: rest) (counted items) := by
  cases items with
  | nil => exact .defect fun holds => absurd (some_ holds) (Nat.lt_irrefl 0)
  | cons count rest => exact .ok rfl

end Arguments

/-! ## Conversions -/

namespace Item

variable {given : Prop} (limit : Nat) (limits : Limits) (item key : Item)

theorem readInteger_sound (bytes : Bytes) :
    Sound given (fun _ => True) (readInteger limit bytes) := by
  unfold readInteger
  split
  · exact Sound.error rfl
  · exact Sound.ok trivial

theorem toInteger_sound : Sound given (fun _ => True) (item.toInteger limit) := by
  unfold toInteger
  cases item with
  | boolean value => exact Sound.ok trivial
  | integer value => exact Sound.ok trivial
  | byteString bytes => exact readInteger_sound limit bytes
  | _ => exact Sound.error rfl

theorem toCount_sound : Sound given (fun count => count ≤ wordMax) (item.toCount limit) := by
  refine (toInteger_sound limit item).bind fun value _ => ?_
  split
  · refine Sound.pure ?_
    omega
  · exact Sound.throw rfl

theorem ofInteger_sound (value : Int) : Sound given (fun _ => True) (ofInteger limit value) := by
  unfold ofInteger
  split
  · exact Sound.error rfl
  · exact Sound.ok trivial

theorem toBytes_sound : Sound given (fun _ => True) item.toBytes := by
  unfold toBytes
  cases item with
  | boolean _ | integer _ | byteString _ | buffer _ => exact Sound.ok trivial
  | _ => exact Sound.error rfl

theorem convert_sound (target : ItemKind) :
    Sound given (fun _ => True) (item.convert limit target) := by
  unfold convert
  split
  · exact Sound.ok trivial
  · split
    all_goals first
      | exact Sound.ok trivial
      | exact (readInteger_sound limit _).map
      | exact (toInteger_sound limit _).map
      | exact (toBytes_sound _).map
      | exact Sound.error rfl

theorem checkKey_sound : Sound given (fun _ => True) (item.checkKey limit) := by
  unfold checkKey
  repeat' split
  all_goals first
    | exact Sound.ok trivial
    | exact Sound.error rfl

/-! ## Access by key

An index is only used after it was found to be inside the item. -/

section Places

variable {α : Type} {items : List α} {index : Nat}

theorem look_sound (access : Access) (inside : index < items.length) :
    Sound given (fun _ => True) (look access items index) := by
  unfold look
  rw [List.getElem?_eq_getElem inside]
  exact Sound.ok trivial

theorem replace_sound (inside : index < items.length) (value : α) :
    Sound given (fun _ => True) (replace items index value) :=
  (look_sound .place inside).bind fun _ _ => Sound.pure trivial

theorem takeOut_sound (inside : index < items.length) :
    Sound given (fun _ => True) (takeOut items index) :=
  (look_sound .removal inside).bind fun _ _ => Sound.pure trivial

end Places

theorem readIndex_sound (size : Nat) :
    Sound given (fun index => index < size) (key.readIndex limits size) := by
  refine (toInteger_sound limits.integerSize key).bind fun index _ => ?_
  split
  · rename_i inside
    refine Sound.pure ?_
    omega
  · exact Sound.throw rfl

theorem hasIndex_sound (size : Nat) : Sound given (fun _ => True) (key.hasIndex limits size) := by
  refine (toInteger_sound limits.integerSize key).bind fun index _ => ?_
  split
  · exact Sound.throw rfl
  · exact Sound.pure trivial

theorem hasKey_sound : Sound given (fun _ => True) (hasKey limits key item) := by
  unfold hasKey
  cases item with
  | map entries =>
    exact (checkKey_sound limits.mapKeySize key).bind fun _ _ => Sound.pure trivial
  | array _ | struct _ | byteString _ | buffer _ => exact hasIndex_sound limits key _
  | _ => exact Sound.error rfl

theorem elementAt_sound (items : List Item) :
    Sound given (fun _ => True) (elementAt limits items key) :=
  (readIndex_sound limits key items.length).bind fun _ inside => look_sound .extraction inside

theorem pickItem_sound : Sound given (fun _ => True) (pickItem limits key item) := by
  unfold pickItem
  cases item with
  | map entries =>
    refine (checkKey_sound limits.mapKeySize key).bind fun _ _ => ?_
    split
    · exact Sound.pure trivial
    · exact Sound.throw rfl
  | array items => exact elementAt_sound limits key items
  | struct items => exact elementAt_sound limits key items
  | byteString bytes | buffer bytes =>
    refine (readIndex_sound limits key bytes.length).bind fun index inside => ?_
    exact (look_sound .place inside).bind fun _ _ => Sound.pure trivial
  | _ => exact Sound.error rfl

theorem keys_sound : Sound given (fun _ => True) item.keys := by
  unfold keys
  cases item with
  | map _ => exact Sound.ok trivial
  | _ => exact Sound.error rfl

theorem values_sound : Sound given (fun _ => True) item.values := by
  unfold values
  cases item with
  | array _ | struct _ | map _ => exact Sound.ok trivial
  | _ => exact Sound.error rfl

/-- Taking an item apart gives its parts and their number. -/
theorem unpack_sound : Sound given (fun out => out.length = item.parts.length + 1) item.unpack := by
  unfold unpack
  cases item with
  | array _ | struct _ | map _ => exact Sound.ok rfl
  | _ => exact Sound.error rfl

theorem readByte_sound (value : Item) : Sound given (fun _ => True) (value.readByte limits) := by
  refine (toInteger_sound limits.integerSize value).bind fun byte _ => ?_
  split
  · exact Sound.pure trivial
  · exact Sound.throw rfl

theorem setItem_sound (value : Item) :
    Sound given (fun _ => True) (setItem limits key value item) := by
  unfold setItem
  cases item with
  | array items | struct items =>
    refine (readIndex_sound limits key items.length).bind fun index inside => ?_
    exact (replace_sound inside value).bind fun _ _ => Sound.pure trivial
  | map entries =>
    exact (checkKey_sound limits.mapKeySize key).bind fun _ _ => Sound.pure trivial
  | buffer bytes =>
    refine (readIndex_sound limits key bytes.length).bind fun index inside => ?_
    refine (readByte_sound limits value).bind fun byte _ => ?_
    exact (replace_sound inside byte).bind fun _ _ => Sound.pure trivial
  | _ => exact Sound.error rfl

theorem append_sound (element : Item) : Sound given (fun _ => True) (append element item) := by
  unfold append
  cases item with
  | array _ | struct _ => exact Sound.ok trivial
  | _ => exact Sound.error rfl

theorem removeItem_sound : Sound given (fun _ => True) (removeItem limits key item) := by
  unfold removeItem
  cases item with
  | array items | struct items =>
    refine (readIndex_sound limits key items.length).bind fun index inside => ?_
    exact (takeOut_sound inside).bind fun _ _ => Sound.pure trivial
  | map entries =>
    exact (checkKey_sound limits.mapKeySize key).bind fun _ _ => Sound.pure trivial
  | _ => exact Sound.error rfl

theorem reverseItems_sound : Sound given (fun _ => True) item.reverseItems := by
  unfold reverseItems
  cases item with
  | array _ | struct _ | buffer _ => exact Sound.ok trivial
  | _ => exact Sound.error rfl

theorem clearItems_sound : Sound given (fun _ => True) item.clearItems := by
  unfold clearItems
  cases item with
  | array _ | struct _ | map _ => exact Sound.ok trivial
  | _ => exact Sound.error rfl

/-! ## Slices

A range is only used after it was found to end inside the bytes. -/

theorem checkRange_sound (index count size : Nat) :
    Sound given (fun _ => index + count ≤ size) (checkRange index count size) := by
  unfold checkRange
  split
  · rename_i inside
    exact Sound.ok inside
  · exact Sound.error rfl

theorem slice_sound {index count : Nat} {bytes : Bytes} (inside : index + count ≤ bytes.length) :
    Sound given (fun part => part.length = count) (slice index count bytes) := by
  unfold slice
  rw [if_pos inside]
  refine Sound.ok ?_
  rw [List.length_take, List.length_drop]
  omega

theorem splice_sound {index : Nat} {bytes target : Bytes}
    (inside : index + bytes.length ≤ target.length) :
    Sound given (fun _ => True) (splice index bytes target) := by
  unfold splice
  rw [if_pos inside]
  exact Sound.ok trivial

theorem substring_sound (length index source : Item) :
    Sound given (fun _ => True) (substring limit length index source) := by
  refine source.toBytes_sound.bind fun bytes _ => ?_
  refine (index.toCount_sound limit).bind fun start _ => ?_
  refine (length.toCount_sound limit).bind fun count _ => ?_
  refine (checkRange_sound start count bytes.length).bind fun _ inside => ?_
  exact (slice_sound inside).bind fun _ _ => Sound.pure trivial

theorem left_sound (length source : Item) :
    Sound given (fun _ => True) (left limit length source) := by
  refine source.toBytes_sound.bind fun bytes _ => ?_
  refine (length.toCount_sound limit).bind fun count _ => ?_
  refine (checkRange_sound 0 count bytes.length).bind fun _ inside => ?_
  exact (slice_sound inside).bind fun _ _ => Sound.pure trivial

theorem right_sound (length source : Item) :
    Sound given (fun _ => True) (right limit length source) := by
  refine source.toBytes_sound.bind fun bytes _ => ?_
  refine (length.toCount_sound limit).bind fun count _ => ?_
  split
  · rename_i fits
    have inside : bytes.length - count + count ≤ bytes.length := by omega
    exact (slice_sound inside).bind fun _ _ => Sound.pure trivial
  · exact Sound.throw rfl

theorem join_sound (first second : Item) : Sound given (fun _ => True) (first.join second) :=
  first.toBytes_sound.bind fun _ _ => second.toBytes_sound.bind fun _ _ => Sound.pure trivial

theorem copyInto_sound (length sourceIndex source targetIndex target : Item) :
    Sound given (fun _ => True) (copyInto limit length sourceIndex source targetIndex target) := by
  refine (length.toCount_sound limit).bind fun count _ => ?_
  refine source.toBytes_sound.bind fun bytes _ => ?_
  refine (sourceIndex.toCount_sound limit).bind fun start _ => ?_
  refine (checkRange_sound start count bytes.length).bind fun _ readable => ?_
  split
  · rename_i old
    refine (targetIndex.toCount_sound limit).bind fun place _ => ?_
    refine (checkRange_sound place count old.length).bind fun _ writable => ?_
    refine (slice_sound readable).bind fun part size => ?_
    have inside : place + part.length ≤ old.length := by rw [size]; exact writable
    exact (splice_sound inside).bind fun _ _ => Sound.pure trivial
  · exact Sound.throw rfl

end Item

end GasMachine
