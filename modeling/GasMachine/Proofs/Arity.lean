import GasMachine.Proofs.Sound

/-!
# What behaviours and services take and give

A behaviour takes its arguments apart and makes results. How many it gives is a function of how many
arguments it gets (`Behaviour.gives`), except for the two whose results depend on an item or on a
service. If it knows the opcode it is run for, gets arguments in a number that it can work with, and
has memory for what it makes, it gives just as many or fails for a reason of the script's own
(`Behaviour.run_sound`); the same holds of a service (`Service.run_sound`).
-/

set_option autoImplicit false

namespace GasMachine

open TwosComplement (signedMax)

/-! ## What behaviours rely on and give -/

namespace Behaviour

/-- Whether a behaviour that asks for the opcode knows it. -/
def knows (behaviour : Behaviour) (opcode : Opcode) : Bool :=
  match behaviour with
  | .pushSmall => opcode.smallInt?.isSome
  | .jumpCompare => (Comparison.ofJump? opcode).isSome
  | .unary => (UnaryOperation.ofOpcode? opcode).isSome
  | .binary => (BinaryOperation.ofOpcode? opcode).isSome
  | .compare => (Comparison.ofOpcode? opcode).isSome
  | .crashing _ => false
  | _ => true

/-- A behaviour can work with a number of arguments. Some look at none. -/
def Accepts (behaviour : Behaviour) (count : Nat) : Prop :=
  match behaviour with
  | .jumpIf | .callPointer | .assert | .throwItem | .copyTop | .toAlt | .newBuffer | .unary | .not
  | .nonZero | .unpack | .newSized | .size | .keys | .values | .reverseItems | .clearItems
  | .isNull | .isKind | .convert => count = 1
  | .jumpCompare | .dropSecond | .copySecond | .tuck | .swap | .join | .left | .right | .binary
  | .compare | .equal | .booleanBinary | .hasKey | .pickItem | .append | .removeItem => count = 2
  | .rotate | .substring | .within | .setItem => count = 3
  | .copyInto => count = 5
  | .dropAt | .copyAt | .roll | .reverseCounted | .pack => 0 < count
  | .demanding wanted => count = wanted
  | _ => True

/-- How many items a behaviour gives for a number of arguments, if it gives any. -/
def gives (behaviour : Behaviour) (count : Nat) : Nat :=
  match behaviour with
  | .pass | .jump | .jumpIf | .jumpCompare | .call | .callPointer | .abort | .assert | .throwItem
  | .leave | .dropItems | .toAlt | .demanding _ => 0
  | .copyTop | .swap => 2
  | .copySecond | .tuck | .rotate => 3
  | .copyAt | .reverse => count
  | .roll | .reverseCounted => count - 1
  | .dropAt => count - 2
  | .constant stack _ => stack.length
  | _ => 1

/-- How many items a behaviour gives to the alt stack. -/
def givesAlt : Behaviour → Nat
  | .copyFromAlt | .toAlt => 1
  | .constant _ alt => alt.length
  | _ => 0

/-- The bytes that a behaviour asks for to make an item of a size. -/
def wants (behaviour : Behaviour) (size : Nat) : Nat :=
  match behaviour with
  | .newBuffer => size
  | .newSized => elementWidth * size
  | _ => 0

/-- There is memory for what a behaviour makes of its arguments. -/
def HasRoom (behaviour : Behaviour) (limit : Nat) (arguments : List Item) : Prop :=
  ∀ item size, arguments = [item] → item.toCount limit = .ok size →
    behaviour.wants size ≤ signedMax

end Behaviour

/-! ## The parts of behaviours

Every part is shown for any `given`, so that a condition which nothing checks (an opcode that is
known, memory that is there) stands under `given` and one that is checked needs no mention. None of
the parts is a recursion: each lemma follows the branches of its definition. -/

namespace Behaviour

variable {given : Prop} (host : Host) (instruction : Instruction) (frame : Frame) (world : World)
  (arguments : Arguments) (limit : Nat) (opcode : Opcode)

/-- What is not known of an opcode has not been given. -/
theorem not_given_of_none {α : Type} {found : Option α} (known : given → found.isSome = true)
    (absent : found = none) : ¬given := by
  intro holds
  have some_ := known holds
  rw [absent] at some_
  cases some_

theorem target_sound (position : Int) : Sound given (fun _ => True) (frame.target position) := by
  unfold Frame.target
  split
  · exact Sound.ok trivial
  · exact Sound.error rfl

theorem pointer_sound : Sound given (fun _ => True) (pointer instruction frame) := by
  unfold pointer
  dsimp only
  split
  · exact Sound.ok trivial
  · exact Sound.error rfl

theorem smallInteger_sound {opcode : Opcode} (known : given → opcode.smallInt?.isSome = true) :
    Sound given (fun _ => True) (smallInteger opcode) := by
  unfold smallInteger
  cases small : opcode.smallInt? with
  | some value => exact Sound.ok trivial
  | none => exact Sound.defect (not_given_of_none known small)

theorem jumpWhen_sound (taken : Bool) :
    Sound given (fun _ => True) (jumpWhen taken instruction frame) := by
  unfold jumpWhen
  split
  · exact (target_sound frame _).map
  · exact Sound.ok trivial

theorem comparisonHolds_sound {opcode : Opcode}
    (known : given → (Comparison.ofJump? opcode).isSome = true) (x y : Int) :
    Sound given (fun _ => True) (comparisonHolds opcode x y) := by
  unfold comparisonHolds
  cases jumps : Comparison.ofJump? opcode with
  | some comparison => exact Sound.ok trivial
  | none => exact Sound.defect (not_given_of_none known jumps)

theorem pointerTarget_sound (item : Item) :
    Sound given (fun _ => True) (pointerTarget frame item) := by
  unfold pointerTarget
  split
  · split
    · exact target_sound frame _
    · exact Sound.error rfl
  · exact Sound.error rfl

theorem leaveEffect_sound : Sound given (fun _ => True) (leaveEffect frame) := by
  unfold leaveEffect
  split
  · exact (target_sound frame _).map
  · exact Sound.ok trivial

theorem unaryResult_sound {opcode : Opcode}
    (known : given → (UnaryOperation.ofOpcode? opcode).isSome = true) (argument : Item) :
    Sound given (fun _ => True) (unaryResult limit opcode argument) := by
  refine (argument.toInteger_sound limit).bind fun x _ => ?_
  cases is : UnaryOperation.ofOpcode? opcode with
  | some operation => exact Item.ofInteger_sound limit _
  | none => exact Sound.defect (not_given_of_none known is)

theorem apply_sound (operation : BinaryOperation) (x y : Int) :
    Sound given (fun _ => True) (operation.apply x y) := by
  have shifted (distance : Int) :
      Sound given (fun _ => True) (BinaryOperation.shiftDistance distance) := by
    unfold BinaryOperation.shiftDistance
    split
    · exact Sound.ok trivial
    · exact Sound.error rfl
  unfold BinaryOperation.apply
  cases operation with
  | div | mod =>
    dsimp only
    split
    · exact Sound.error rfl
    · exact Sound.ok trivial
  | shiftLeft | shiftRight => exact (shifted y).map
  | _ => exact Sound.ok trivial

theorem binaryResult_sound {opcode : Opcode}
    (known : given → (BinaryOperation.ofOpcode? opcode).isSome = true) (second first : Item) :
    Sound given (fun _ => True) (binaryResult limit opcode second first) := by
  refine (first.toInteger_sound limit).bind fun x _ => ?_
  refine (second.toInteger_sound limit).bind fun y _ => ?_
  cases is : BinaryOperation.ofOpcode? opcode with
  | some operation =>
    exact (apply_sound operation x y).bind fun _ _ => Item.ofInteger_sound limit _
  | none => exact Sound.defect (not_given_of_none known is)

theorem comparisonResult_sound {opcode : Opcode}
    (known : given → (Comparison.ofOpcode? opcode).isSome = true) (second first : Item) :
    Sound given (fun _ => True) (comparisonResult limit opcode second first) := by
  refine (first.toInteger_sound limit).bind fun x _ => ?_
  refine (second.toInteger_sound limit).bind fun y _ => ?_
  cases is : Comparison.ofOpcode? opcode with
  | some comparison => exact Sound.pure trivial
  | none => exact Sound.defect (not_given_of_none known is)

theorem withinResult_sound (upper lower value : Item) :
    Sound given (fun _ => True) (withinResult limit upper lower value) := by
  refine (value.toInteger_sound limit).bind fun _ _ => ?_
  refine (lower.toInteger_sound limit).bind fun _ _ => ?_
  exact (upper.toInteger_sound limit).bind fun _ _ => Sound.pure trivial

theorem reserve_sound {bytes : Nat} (fits : given → bytes ≤ signedMax) :
    Sound given (fun _ => True) (reserve bytes) := by
  unfold reserve
  split
  · exact Sound.ok trivial
  · rename_i large
    exact Sound.defect fun holds => large (fits holds)

theorem zeros_sound {size : Nat} (fits : given → size ≤ signedMax) :
    Sound given (fun _ => True) (zeros size) :=
  (reserve_sound fits).bind fun _ _ => Sound.pure trivial

theorem replicated_sound {size : Nat} (fits : given → elementWidth * size ≤ signedMax)
    (element : Item) : Sound given (fun _ => True) (replicated size element) :=
  (reserve_sound fits).bind fun _ _ => Sound.pure trivial

theorem byteOperand_sound : Sound given (fun _ => True) instruction.byteOperand := by
  unfold Instruction.byteOperand
  split
  · exact Sound.ok trivial
  · exact Sound.error rfl

theorem sizedCompound_sound {size : Nat} (fits : given → elementWidth * size ≤ signedMax) :
    Sound given (fun _ => True) (sizedCompound instruction size) := by
  unfold sizedCompound
  split
  · exact (replicated_sound fits _).bind fun _ _ => Sound.pure trivial
  · refine (byteOperand_sound instruction).bind fun byte _ => ?_
    split
    · exact (replicated_sound fits _).bind fun _ _ => Sound.pure trivial
    · exact Sound.throw rfl
  · exact (replicated_sound fits _).bind fun _ _ => Sound.pure trivial

theorem operandKind_sound : Sound given (fun _ => True) (operandKind instruction) := by
  refine (byteOperand_sound instruction).bind fun byte _ => ?_
  split
  · exact Sound.throw rfl
  · exact Sound.throw rfl
  · exact Sound.pure trivial

theorem belowCount_sound {items : List Item} (some_ : given → 0 < items.length) :
    Sound given (fun below => below.length + 1 = items.length) (belowCount limit items) := by
  refine (Arguments.counted_sound some_).bind fun (count, rest) same => ?_
  refine (count.toCount_sound limit).bind fun _ _ => Sound.pure ?_
  rw [same]
  rfl

theorem length_lastToFront (items : List Item) : (lastToFront items).length = items.length := by
  unfold lastToFront
  cases last : items.getLast? with
  | none =>
    rw [List.getLast?_eq_none_iff] at last
    rw [last]
  | some item =>
    have nonempty : items ≠ [] := by
      rintro rfl
      cases last
    have positive := List.length_pos_iff.2 nonempty
    rw [List.length_cons, List.length_dropLast]
    omega

/-! ## Behaviours

One case for each behaviour, and in each the arguments are taken apart first. If their number is not
the one wanted, `Accepts` is refuted; otherwise the number of results can be read off, since the
items themselves do not matter. Taking an item apart and system calls are left out: what they give
depends on an item and on a service. -/

/-- A behaviour that knows its opcode, can work with its arguments and has memory for what it makes
gives as many results as are said of it, or fails for a reason of the script's own. -/
theorem run_sound {behaviour : Behaviour}
    (known : given → behaviour.knows instruction.opcode = true)
    (accepted : given → behaviour.Accepts arguments.stack.length)
    (room : given → behaviour.HasRoom host.limits.integerSize arguments.stack)
    (notUnpack : behaviour ≠ .unpack) (ordinary : behaviour ≠ .systemCall) :
    Sound given (fun results => results.stack.length = behaviour.gives arguments.stack.length ∧
        results.alt.length = behaviour.givesAlt)
      (behaviour.run host instruction frame world arguments) := by
  have orFault {result : Except Fault Item} (sound : Sound given (fun _ => True) result) :
      Sound given (fun results => results.stack.length = 1 ∧ results.alt.length = 0)
        (result.map (Results.one · world)) :=
    Sound.map (sound.mono fun _ _ => ⟨rfl, rfl⟩)
  have effect {wanted : Except Fault Effect} (sound : Sound given (fun _ => True) wanted) :
      Sound given (fun results => results.stack.length = 0 ∧ results.alt.length = 0)
        (wanted.map fun effect => ({ effect, world } : Results)) :=
    Sound.map (sound.mono fun _ _ => ⟨rfl, rfl⟩)
  have below {f : List Item → List Item} {count : Nat}
      (some_ : given → 0 < arguments.stack.length)
      (length : ∀ items : List Item, items.length + 1 = arguments.stack.length →
        (f items).length = count) :
      Sound given (fun results => results.stack.length = count ∧ results.alt.length = 0)
        (belowCount host.limits.integerSize arguments.stack >>= fun items =>
          .ok (Results.many (f items) world)) :=
    (belowCount_sound _ some_).bind fun items size => Sound.ok ⟨length items size, rfl⟩
  cases behaviour
  case unpack => exact absurd rfl notUnpack
  case systemCall => exact absurd rfl ordinary
  -- Behaviours that look at no argument.
  case pushInteger | pushBoolean | pushNull | pushData | pass | countItems | dropItems | newEmpty
    | fromAlt | copyFromAlt | constant =>
    exact Sound.ok ⟨rfl, rfl⟩
  case reverse => exact Sound.ok ⟨List.length_reverse, rfl⟩
  case abort => exact Sound.error rfl
  case crashing => exact Sound.defect fun holds => absurd (known holds) Bool.false_ne_true
  case demanding wanted =>
    dsimp only [run]
    split
    · exact Sound.ok ⟨rfl, rfl⟩
    · rename_i other
      exact Sound.defect fun holds => other (accepted holds)
  case pushSmall => exact orFault (smallInteger_sound known)
  case pushPointer => exact orFault (pointer_sound instruction frame)
  case jump => exact effect (jumpWhen_sound instruction frame true)
  case call => exact effect (target_sound frame _).map
  case leave => exact effect (leaveEffect_sound frame)
  -- Behaviours with a count on top, for any number of items below it.
  case dropAt =>
    exact below accepted fun items size => by
      rw [List.length_dropLast, gives]
      omega
  case copyAt =>
    exact below accepted fun items size => by
      rw [copyLastToFront, List.length_cons, size, gives]
  case roll =>
    exact below accepted fun items size =>
      (length_lastToFront items).trans (Nat.eq_sub_of_add_eq size)
  case reverseCounted =>
    exact below accepted fun items size => List.length_reverse.trans (Nat.eq_sub_of_add_eq size)
  case pack =>
    exact (belowCount_sound _ accepted).bind fun _ _ => Sound.ok ⟨rfl, rfl⟩
  -- Behaviours with one argument.
  case jumpIf =>
    exact (Arguments.one_sound accepted).bind fun _ _ =>
      effect (jumpWhen_sound instruction frame _)
  case callPointer =>
    exact (Arguments.one_sound accepted).bind fun item _ =>
      effect (pointerTarget_sound frame item).map
  case assert =>
    refine (Arguments.one_sound accepted).bind fun _ _ => ?_
    split
    · exact Sound.ok ⟨rfl, rfl⟩
    · exact Sound.throw rfl
  case throwItem =>
    exact (Arguments.one_sound accepted).bind fun _ _ => Sound.throw rfl
  case copyTop | toAlt | not | isNull =>
    exact (Arguments.one_sound accepted).bind fun _ _ => Sound.ok ⟨rfl, rfl⟩
  case newBuffer =>
    refine (Arguments.one_sound accepted).bind fun item same => ?_
    refine (item.toCount_sound _).self.bind fun size counted => ?_
    have made := zeros_sound fun holds => room holds item size same counted
    exact made.bind fun _ _ => Sound.ok ⟨rfl, rfl⟩
  case newSized =>
    refine (Arguments.one_sound accepted).bind fun item same => ?_
    refine (item.toCount_sound _).self.bind fun size counted => ?_
    exact orFault (sizedCompound_sound instruction fun holds => room holds item size same counted)
  case unary =>
    exact (Arguments.one_sound accepted).bind fun item _ =>
      orFault (unaryResult_sound _ known item)
  case nonZero =>
    refine (Arguments.one_sound accepted).bind fun item _ => ?_
    exact (item.toInteger_sound _).bind fun _ _ => Sound.ok ⟨rfl, rfl⟩
  case size =>
    refine (Arguments.one_sound accepted).bind fun item _ => ?_
    split
    · exact Sound.ok ⟨rfl, rfl⟩
    · exact Sound.throw rfl
  case keys =>
    exact (Arguments.one_sound accepted).bind fun item _ =>
      orFault item.keys_sound
  case values =>
    exact (Arguments.one_sound accepted).bind fun item _ =>
      orFault item.values_sound
  case reverseItems =>
    exact (Arguments.one_sound accepted).bind fun item _ =>
      orFault item.reverseItems_sound
  case clearItems =>
    exact (Arguments.one_sound accepted).bind fun item _ =>
      orFault item.clearItems_sound
  case isKind =>
    refine (operandKind_sound instruction).bind fun kind _ => ?_
    exact (Arguments.one_sound accepted).bind fun _ _ => Sound.ok ⟨rfl, rfl⟩
  case convert =>
    refine (operandKind_sound instruction).bind fun kind _ => ?_
    exact (Arguments.one_sound accepted).bind fun item _ =>
      orFault (item.convert_sound _ kind)
  -- Behaviours with two arguments.
  case dropSecond | copySecond | tuck | swap | equal | booleanBinary =>
    exact (Arguments.two_sound accepted).bind fun _ _ => Sound.ok ⟨rfl, rfl⟩
  case jumpCompare =>
    refine (Arguments.two_sound accepted).bind fun (second, first) _ => ?_
    refine (first.toInteger_sound _).bind fun x _ => ?_
    refine (second.toInteger_sound _).bind fun y _ => ?_
    exact (comparisonHolds_sound known x y).bind fun _ _ =>
      effect (jumpWhen_sound instruction frame _)
  case join =>
    exact (Arguments.two_sound accepted).bind fun (second, first) _ =>
      orFault (Item.join_sound first second)
  case left =>
    exact (Arguments.two_sound accepted).bind fun (length, source) _ =>
      orFault (Item.left_sound _ length source)
  case right =>
    exact (Arguments.two_sound accepted).bind fun (length, source) _ =>
      orFault (Item.right_sound _ length source)
  case binary =>
    exact (Arguments.two_sound accepted).bind fun (second, first) _ =>
      orFault (binaryResult_sound _ known second first)
  case compare =>
    exact (Arguments.two_sound accepted).bind fun (second, first) _ =>
      orFault (comparisonResult_sound _ known second first)
  case hasKey =>
    refine (Arguments.two_sound accepted).bind fun (key, item) _ => ?_
    exact (Item.hasKey_sound _ item key).bind fun _ _ => Sound.ok ⟨rfl, rfl⟩
  case pickItem =>
    exact (Arguments.two_sound accepted).bind fun (key, item) _ =>
      orFault (Item.pickItem_sound _ item key)
  case append =>
    exact (Arguments.two_sound accepted).bind fun (element, item) _ =>
      orFault (item.append_sound element)
  case removeItem =>
    exact (Arguments.two_sound accepted).bind fun (key, item) _ =>
      orFault (Item.removeItem_sound _ item key)
  -- Behaviours with more.
  case rotate =>
    exact (Arguments.three_sound accepted).bind fun _ _ => Sound.ok ⟨rfl, rfl⟩
  case substring =>
    exact (Arguments.three_sound accepted).bind
      fun (length, index, source) _ => orFault (Item.substring_sound _ length index source)
  case within =>
    exact (Arguments.three_sound accepted).bind
      fun (upper, lower, value) _ => orFault (withinResult_sound _ upper lower value)
  case setItem =>
    exact (Arguments.three_sound accepted).bind
      fun (value, key, item) _ => orFault (Item.setItem_sound _ item key value)
  case copyInto =>
    exact (Arguments.five_sound accepted).bind
      fun (length, sourceIndex, source, targetIndex, target) _ =>
        orFault (Item.copyInto_sound _ length sourceIndex source targetIndex target)

end Behaviour

/-! ## Services

The same for services, whose `arity` and `results` the refinement of a system call declares. A
system call looks at the trigger before it hands over, so it adds one fault of its own and nothing
else. -/

namespace Service

variable {given : Prop} (host : Host) (frame : Frame) (world : World) (item : Item)

theorem readHash_sound : Sound given (fun _ => True) (readHash item) := by
  refine item.toBytes_sound.bind fun bytes _ => ?_
  split
  · exact Sound.pure trivial
  · exact Sound.throw rfl

theorem readText_sound (limit : Nat) : Sound given (fun _ => True) (readText limit item) := by
  refine item.toBytes_sound.bind fun bytes _ => ?_
  split
  · exact Sound.throw rfl
  · exact Sound.pure trivial

theorem readArea_sound : Sound given (fun _ => True) (readArea item) := by
  unfold readArea
  split
  · exact Sound.ok trivial
  · exact Sound.error rfl
  · exact Sound.error rfl

theorem readWritableArea_sound : Sound given (fun _ => True) (readWritableArea item) := by
  refine (readArea_sound item).bind fun area _ => ?_
  split
  · exact Sound.throw rfl
  · exact Sound.pure trivial

theorem readStorageKey_sound : Sound given (fun _ => True) (readStorageKey item) := by
  refine item.toBytes_sound.bind fun key _ => ?_
  split
  · exact Sound.throw rfl
  · exact Sound.pure trivial

theorem readCallArguments_sound : Sound given (fun _ => True) (readCallArguments item) := by
  unfold readCallArguments
  split
  · exact Sound.ok trivial
  · exact Sound.ok trivial
  · exact Sound.ok trivial
  · exact Sound.error rfl

theorem ofStore_sound {α : Type} (asked : Except StoreError α) :
    Sound given (fun _ => True) (ofStore asked) := by
  cases asked with
  | ok value => exact Sound.ok trivial
  | error cause => exact Sound.error rfl

/-- A service that gets the arguments that it takes gives the results that it declares, or fails
for a reason of the script's own. -/
theorem run_sound (service : Service) {arguments : List Item}
    (count : given → arguments.length = service.arity) :
    Sound given (fun results => results.stack.length = service.results ∧ results.alt.length = 0)
      (service.run host frame world arguments) := by
  cases service with
  | getTrigger | gasLeft | getExecutingScriptHash | getCallingScriptHash | getEntryScriptHash
  | getContext | getReadOnlyContext => exact Sound.ok ⟨rfl, rfl⟩
  | getTime =>
    dsimp only [run]
    split
    · exact Sound.ok ⟨rfl, rfl⟩
    · exact Sound.error rfl
  | checkWitness =>
    refine (Arguments.one_sound count).bind fun item _ => ?_
    exact (readHash_sound item).bind fun _ _ => Sound.pure ⟨rfl, rfl⟩
  | log =>
    refine (Arguments.one_sound count).bind fun item _ => ?_
    exact (readText_sound item _).bind fun _ _ => Sound.pure ⟨rfl, rfl⟩
  | notify =>
    refine (Arguments.two_sound count).bind fun (name, state) _ => ?_
    exact (readText_sound name _).bind fun _ _ => Sound.pure ⟨rfl, rfl⟩
  | storageGet =>
    refine (Arguments.two_sound count).bind fun (item, key) _ => ?_
    refine (readArea_sound item).bind fun area _ => ?_
    refine key.toBytes_sound.bind fun bytes _ => ?_
    exact (ofStore_sound _).bind fun _ _ => Sound.pure ⟨rfl, rfl⟩
  | storagePut =>
    refine (Arguments.three_sound count).bind fun (item, key, value) _ => ?_
    refine (readWritableArea_sound item).bind fun area _ => ?_
    refine (readStorageKey_sound key).bind fun name _ => ?_
    refine value.toBytes_sound.bind fun bytes _ => ?_
    split
    · exact Sound.throw rfl
    · exact (ofStore_sound _).bind fun _ _ => Sound.pure ⟨rfl, rfl⟩
  | storageDelete =>
    refine (Arguments.two_sound count).bind fun (item, key) _ => ?_
    refine (readWritableArea_sound item).bind fun area _ => ?_
    refine (readStorageKey_sound key).bind fun name _ => ?_
    exact (ofStore_sound _).bind fun _ _ => Sound.pure ⟨rfl, rfl⟩
  | contractCreate =>
    refine (Arguments.one_sound count).bind fun item _ => ?_
    refine item.toBytes_sound.bind fun code _ => ?_
    split
    · exact Sound.throw rfl
    · refine (ofStore_sound _).bind fun known _ => ?_
      split
      · exact Sound.throw rfl
      · exact (ofStore_sound _).bind fun _ _ => Sound.pure ⟨rfl, rfl⟩
  | contractCall =>
    refine (Arguments.two_sound count).bind fun (hash, parameters) _ => ?_
    refine (readHash_sound hash).bind fun name _ => ?_
    refine (readCallArguments_sound parameters).bind fun items _ => ?_
    refine (ofStore_sound _).bind fun found _ => ?_
    split
    · exact Sound.pure ⟨rfl, rfl⟩
    · exact Sound.throw rfl

end Service

theorem Host.service_sound {given : Prop} (host : Host) (instruction : Instruction) :
    Sound given (fun _ => True) (host.service instruction) := by
  unfold Host.service Instruction.wordOperand
  split
  · have word (id : Nat) : Sound given (fun _ => True) (.ok id) := Sound.ok trivial
    refine (word _).bind fun id _ => ?_
    split
    · exact Sound.pure trivial
    · exact Sound.throw rfl
  · exact Sound.error rfl

/-- A system call does what its service does, if the trigger allows that. -/
theorem Behaviour.run_systemCall_sound {given : Prop} {host : Host} {instruction : Instruction}
    {service : Service} (named : host.service instruction = .ok service) (frame : Frame)
    (world : World) {arguments : Arguments}
    (count : given → arguments.stack.length = service.arity) :
    Sound given (fun results => results.stack.length = service.results ∧ results.alt.length = 0)
      (systemCall.run host instruction frame world arguments) := by
  have asked : Sound given (fun other => other = service) (host.service instruction) := by
    rw [named]
    exact Sound.ok rfl
  refine asked.bind fun other same => ?_
  subst same
  dsimp only
  split
  · exact Service.run_sound host frame world _ count
  · exact Sound.throw rfl

end GasMachine
