import GasMachine.Proofs.Outcomes
import GasMachine.Proofs.SizeCheck
import GasMachine.Proofs.Stepping

/-!
# Packing and unpacking

An array takes up one item and its elements take up as many on the stack as inside it, so packing
items and their count into an array leaves the size of the stacks as it was, and so does unpacking.
Neither is ever in the way of the other, however full the stacks are, and one undoes what the other
has done: after both, a frame has only come further in its code, and has paid
(`Machine.PacksAndUnpacks`).
-/

set_option autoImplicit false

namespace GasMachine

open TwosComplement (signedMax wordMax)

/-! ## Steps that only gas can stop

An exchange leaves the size of the stacks as it was, so that there is as much room for the next one.
One exchange after another goes through as far as the gas goes (`Exchanges.append`). -/

namespace Machine

variable {machine : Machine} {invocation : Invocation} {frame : Frame} {world : World}

/-- After a number of instructions of one byte, with a fee together, the frame has gone on with
another stack, or has run out of gas. -/
structure ComesTo (machine : Machine) (invocation : Invocation) (frame : Frame) (world : World)
    (steps fee : Nat) (stack : List Item) : Prop where
  goesOn : (fee : Int) ≤ frame.gas →
    machine.stepFor invocation steps frame world = (frame.advanced steps fee stack, world)
  runsOut : frame.gas < fee → ∃ required available place opcode,
    (machine.stepFor invocation steps frame world).1.status =
      .faulted ⟨.outOfGas required available, place, some opcode⟩

/-- Fees add up. -/
theorem ComesTo.append {steps fee more further : Nat} {stack others : List Item}
    (first : machine.ComesTo invocation frame world steps fee stack)
    (second : machine.ComesTo invocation (frame.advanced steps fee stack) world more further
      others) :
    machine.ComesTo invocation frame world (steps + more) (fee + further) others := by
  have left : (frame.advanced steps fee stack).gas = frame.gas - fee := rfl
  constructor
  case goesOn =>
    intro enough
    rw [stepFor_add, first.goesOn (by omega), second.goesOn (by omega), Frame.advanced_advanced]
  case runsOut =>
    intro short
    rcases lt_or_ge frame.gas (fee : Int) with poor | affordable
    · obtain ⟨required, available, place, opcode, stopped⟩ := first.runsOut poor
      refine ⟨required, available, place, opcode, ?_⟩
      rw [stepFor_add, stepFor_of_ended]
      · exact stopped
      · unfold Frame.isRunning
        rw [stopped]
        rfl
    · rw [stepFor_add, first.goesOn affordable]
      exact second.runsOut (by omega)

/-- The next instruction puts items in the place of as many others, nested ones counted. -/
structure Exchanges (machine : Machine) (invocation : Invocation) (frame : Frame) (world : World)
    (instruction : Instruction) (arguments items rest : List Item) : Prop where
  found : machine.instructionAt? invocation frame = some instruction
  single : instruction.size = 1
  onStack : instruction.demand.OnStack machine.config.limits
  stack : frame.stack = arguments ++ rest
  stackIn : instruction.demand.stackIn = arguments.length
  stackOut : instruction.demand.stackOut = items.length
  fewer : (instruction.demand.stackOut : Int) + instruction.demand.growth ≤
    instruction.demand.stackIn
  ran : instruction.behaviour.run (machine.host invocation) instruction
    (frame.charged instruction) world ⟨arguments, []⟩ = .ok (.many items world)
  same : items.length + Item.nestedCountAll items =
    arguments.length + Item.nestedCountAll arguments

namespace Exchanges

variable {instruction : Instruction} {arguments items rest : List Item}
  (exchanges : machine.Exchanges invocation frame world instruction arguments items rest)

include exchanges

theorem totalSize_eq (counted : frame.Counted) (size fee : Nat) :
    (frame.advanced size fee (items ++ rest)).totalSize = frame.totalSize := by
  have after := counted.totalSize_exchanged exchanges.stack size fee items
  rw [exchanges.same] at after
  exact Nat.add_right_cancel after

theorem within (before : frame.RunsWithin machine.config.limits) (size fee : Nat) :
    (frame.advanced size fee (items ++ rest)).RunsWithin machine.config.limits :=
  before.advanced ((exchanges.totalSize_eq before.counted size fee).trans_le before.size)

/-- There is room for the exchange before and after it, so only gas can stop it. -/
theorem comesTo (before : frame.RunsWithin machine.config.limits) :
    machine.ComesTo invocation frame world 1 instruction.fee (items ++ rest) := by
  constructor
  case goesOn =>
    intro affordable
    have poised : machine.Poised invocation frame instruction :=
      ⟨before, exchanges.found, affordable, exchanges.onStack⟩
    have stepped := poised.step_of_exchange exchanges.stack exchanges.stackIn exchanges.fewer
      exchanges.ran exchanges.stackOut.symm exchanges.same.le
    rw [exchanges.single] at stepped
    exact stepped
  case runsOut =>
    intro poor
    obtain ⟨_, _, enough⟩ := Frame.take_drop_of_split exchanges.stack exchanges.stackIn
    have room := exchanges.onStack.room_of_fewer before.size exchanges.fewer
    have admitted := exchanges.onStack.admits before enough room
    have stepped : machine.step invocation frame world = _ :=
      step_of_poor before.running exchanges.found admitted poor
    refine ⟨instruction.fee, frame.gas, frame.pc, instruction.opcode, ?_⟩
    show (machine.step invocation frame world).1.status = _
    rw [stepped]
    rfl

/-- After one exchange there is as much room for another. -/
theorem append (before : frame.RunsWithin machine.config.limits) {other : Instruction}
    {others more further : List Item}
    (second : machine.Exchanges invocation (frame.advanced 1 instruction.fee (items ++ rest)) world
      other others more further) :
    machine.ComesTo invocation frame world 2 (instruction.fee + other.fee) (more ++ further) :=
  (exchanges.comesTo before).append (second.comesTo (exchanges.within before 1 instruction.fee))

end Exchanges

end Machine

/-! ## Packing and unpacking exchange items

Both are exchanges: what is nested inside the array and the array itself are together as many as the
items and their count. The declared counts are words, so the items must not be more than a word can
say. -/

theorem Item.toCount_integer (limit : Nat) {n : Nat} (word : n ≤ wordMax) :
    (Item.integer n).toCount limit = .ok n := by
  have fits : (0 : Int) ≤ n ∧ (n : Int) ≤ wordMax := ⟨Int.natCast_nonneg n, Int.ofNat_le.2 word⟩
  exact if_pos fits

/-- What is put together, or taken apart, is neither more nor less than its parts. -/
theorem Behaviour.run_same_size {behaviour : Behaviour} (own : behaviour ∈ [.pack, .unpack])
    {host : Host} {instruction : Instruction} {frame : Frame} {world : World}
    {arguments : Arguments} (fed : behaviour.Fed arguments) :
    Ensures (fun results =>
        results.count + results.nested = arguments.count + arguments.nested)
      (behaviour.run host instruction frame world arguments) := by
  obtain ⟨stack, alt⟩ := arguments
  unfold Results.count Results.nested Arguments.count Arguments.nested
  rcases List.mem_pair.1 own with rfl | rfl
  · cases List.eq_nil_of_length_eq_zero (fed.alt : alt.length = 0)
    refine (belowCount_ensures host.limits.integerSize stack).bind fun items held => ?_
    obtain ⟨count, size, rfl, counted⟩ := held
    have flat := count.toCount_flat _ size counted
    refine Ensures.pure ?_
    simp only [Results.one, List.length_cons, List.length_nil, Item.nestedCountAll_cons,
      Item.nestedCountAll_nil, Item.nestedCount_array, flat]
    omega
  · cases List.eq_nil_of_length_eq_zero (fed.alt : alt.length = 0)
    refine Arguments.one_ensures.bind fun item only => ?_
    refine (item.unpack_nested).bind fun items held => ?_
    obtain ⟨length, nested⟩ := held
    obtain rfl : stack = [item] := only
    refine Ensures.pure ?_
    simp only [Results.many, List.length_cons, List.length_nil, Item.nestedCountAll_cons,
      Item.nestedCountAll_nil]
    omega

namespace Opcode

variable {host : Host} {frame : Frame} {items rest : List Item}

/-- A number of items that a signed word can count is announced as it is. -/
theorem resolve_pack {count : Item} (top : frame.stack = count :: rest)
    (number : count.toCount host.limits.integerSize = .ok items.length)
    (small : items.length ≤ signedMax) :
    (PACK.withOperand ⟨[], 0⟩).resolve host frame = .ok (PACK.asking
      { stackIn := items.length + 1, stackOut := 1, arraySize := items.length,
        growth := items.length }) := by
  have word : items.length + 1 ≤ wordMax := by
    unfold signedMax at small
    unfold wordMax
    omega
  have whole : frame.stack.take frame.stack.length = count :: rest := List.take_length.trans top
  unfold Instruction.resolve Refinement.resolve
  dsimp only [withOperand, standardEntry, Entry.of]
  rw [Frame.peekCount?_of_take whole number]
  dsimp only
  rw [slots_of_le small, show saturate (items.length + 1) = items.length + 1 from
    Nat.min_eq_left word]
  rfl

theorem resolve_unpack {x : Item} (top : frame.stack = x :: rest)
    (elements : x = .array items ∨ x = .struct items) (small : items.length ≤ signedMax) :
    (UNPACK.withOperand ⟨[], 0⟩).resolve host frame = .ok (UNPACK.asking
      { stackIn := 1, stackOut := items.length + 1, growth := -items.length }) := by
  have there : frame.peek? 0 = some x := congrArg (·[0]?) top
  unfold Instruction.resolve Refinement.resolve
  dsimp only [withOperand, standardEntry, Entry.of]
  rw [there]
  rcases elements with rfl | rfl
  all_goals
    dsimp only
    rw [slots_of_le small]
    rfl

end Opcode

namespace Machine

variable {machine : Machine} {invocation : Invocation} {frame : Frame} {world : World}
  {items rest : List Item} {following : Bytes}

theorem exchanges_pack (standard : machine.table = {}) {count : Item}
    (here : frame.code.drop frame.pc = Opcode.PACK.code :: following)
    (stack : frame.stack = count :: (items ++ rest))
    (number : count.toCount machine.config.limits.integerSize = .ok items.length)
    (few : items.length ≤ machine.config.limits.arraySize) (small : items.length ≤ signedMax) :
    machine.Exchanges invocation frame world (Opcode.PACK.asking
        { stackIn := items.length + 1, stackOut := 1, arraySize := items.length,
          growth := items.length })
      (count :: items) [.array items] rest := by
  have flat := count.toCount_flat _ _ number
  constructor
  case found =>
    exact instructionAt?_of_code standard here rfl (Opcode.resolve_pack stack number small)
  case single => rfl
  case onStack => exact ⟨rfl, rfl, rfl, few, Nat.zero_le _⟩
  case stack => exact stack
  case stackIn => rfl
  case stackOut => rfl
  case fewer =>
    dsimp only [Opcode.asking]
    omega
  case ran =>
    show (Behaviour.belowCount machine.config.limits.integerSize (count :: items) >>= _) = _
    rw [Behaviour.belowCount_of_toCount number]
    rfl
  case same =>
    simp only [List.length_cons, List.length_nil, Item.nestedCountAll_cons,
      Item.nestedCountAll_nil, Item.nestedCount_array]
    omega

theorem exchanges_unpack (standard : machine.table = {}) {x : Item}
    (here : frame.code.drop frame.pc = Opcode.UNPACK.code :: following)
    (stack : frame.stack = x :: rest) (elements : x = .array items ∨ x = .struct items)
    (small : items.length ≤ signedMax) :
    machine.Exchanges invocation frame world (Opcode.UNPACK.asking
        { stackIn := 1, stackOut := items.length + 1, growth := -items.length })
      [x] (.integer items.length :: items) rest := by
  constructor
  case found =>
    exact instructionAt?_of_code standard here rfl (Opcode.resolve_unpack stack elements small)
  case single => rfl
  case onStack => exact ⟨rfl, rfl, rfl, Nat.zero_le _, Nat.zero_le _⟩
  case stack => exact stack
  case stackIn => rfl
  case stackOut => rfl
  case fewer =>
    dsimp only [Opcode.asking]
    omega
  case ran => rcases elements with rfl | rfl <;> rfl
  case same =>
    have flat : (Item.integer items.length).nestedCount = 0 := rfl
    rcases elements with rfl | rfl
    all_goals
      simp only [List.length_cons, List.length_nil, Item.nestedCountAll_cons,
        Item.nestedCountAll_nil, Item.nestedCount_array, Item.nestedCount_struct, flat]
      omega

/-! ## Sizes -/

/-- Whatever is packed or unpacked takes up as much before and after. -/
theorem Acts.totalSize_eq (standard : machine.table = {}) {instruction : Instruction}
    {results : Results} (acts : machine.Acts invocation frame world instruction results)
    (packs : instruction.opcode ∈ [Opcode.PACK, Opcode.UNPACK]) (counted : frame.Counted) :
    (frame.completed instruction results).totalSize = frame.totalSize := by
  have size := counted.totalSize_completed instruction results
  have same : results.count + results.nested =
      (frame.argumentsOf instruction).count + (frame.argumentsOf instruction).nested := by
    have behaviour := behaviour_of_standard standard acts.found
    have fed := fed_of_found standard acts.found acts.admitted.altIn
    have ran := acts.ran
    generalize frame.argumentsOf instruction = arguments at fed ran ⊢
    refine Behaviour.run_same_size ?_ fed results ran
    rw [behaviour]
    rcases List.mem_pair.1 packs with packs | unpacks
    · rw [packs]
      exact List.mem_cons_self
    · rw [unpacks]
      exact List.mem_cons_of_mem _ List.mem_cons_self
  omega

/-! ## There and back

The two sequences of two instructions each. What they leave differs from the start in the position
and the gas, and for a struct or a count in bytes in that these come back as an array and as an
integer. -/

/-- Packing and unpacking undo each other, whatever room there is, and keep the size. A vector never
has more than `signedMax` elements. -/
structure PacksAndUnpacks (machine : Machine) (invocation : Invocation) (frame : Frame)
    (world : World) : Prop where
  /-- The items under a count come back, with their number on top of them. -/
  packUnpack : ∀ (count : Item) (n : Nat) (others : List Item) (following : Bytes),
    frame.RunsWithin machine.config.limits →
      frame.code.drop frame.pc = Opcode.PACK.code :: Opcode.UNPACK.code :: following →
        frame.stack = count :: others → frame.stack.length ≤ signedMax →
          count.toCount machine.config.limits.integerSize = .ok n → n ≤ others.length →
            n ≤ machine.config.limits.arraySize →
              machine.ComesTo invocation frame world 2 (Opcode.PACK.price + Opcode.UNPACK.price)
                (.integer n :: others)
  /-- An array comes back, and in the place of a struct the array of its items. -/
  unpackPack : ∀ (x : Item) (items rest : List Item) (following : Bytes),
    frame.RunsWithin machine.config.limits →
      frame.code.drop frame.pc = Opcode.UNPACK.code :: Opcode.PACK.code :: following →
        frame.stack = x :: rest → x = .array items ∨ x = .struct items →
          items.length ≤ signedMax → items.length ≤ machine.config.limits.arraySize →
            machine.ComesTo invocation frame world 2 (Opcode.UNPACK.price + Opcode.PACK.price)
              (.array items :: rest)
  /-- A map too comes apart without taking up more or less. -/
  size : ∀ instruction : Instruction, frame.Counted →
    machine.instructionAt? invocation frame = some instruction →
      instruction.opcode ∈ [Opcode.PACK, Opcode.UNPACK] →
        (machine.step invocation frame world).1.isRunning = true →
          (machine.step invocation frame world).1.totalSize = frame.totalSize

theorem packsAndUnpacks (machine : Machine) (standard : machine.table = {})
    (invocation : Invocation) (frame : Frame) (world : World) :
    machine.PacksAndUnpacks invocation frame world := by
  have behind {code : UInt8} {following : Bytes}
      (here : frame.code.drop frame.pc = code :: following) :
      frame.code.drop (frame.pc + 1) = following := by
    rw [← List.drop_drop, here]
    rfl
  constructor
  case packUnpack =>
    intro count n others following within here stack memory number enough few
    obtain ⟨items, rest, rfl, rfl⟩ : ∃ items rest, others = items ++ rest ∧ n = items.length :=
      ⟨_, _, (List.take_append_drop n others).symm, (List.length_take_of_le enough).symm⟩
    have small : items.length ≤ signedMax := by
      rw [stack, List.length_cons, List.length_append] at memory
      omega
    exact (exchanges_pack standard here stack number few small).append within
      (exchanges_unpack standard (behind here) rfl (.inl rfl) small)
  case unpackPack =>
    intro x items rest following within here stack elements small few
    have number := Item.toCount_integer machine.config.limits.integerSize
      (small.trans (by decide : signedMax ≤ wordMax))
    exact (exchanges_unpack standard here stack elements small).append within
      (exchanges_pack standard (behind here) rfl number few small)
  case size =>
    intro instruction counted found packs goesOn
    obtain ⟨other, results, acts, after, _⟩ := acts_of_goesOn rfl goesOn
    cases acts.found.symm.trans found
    exact (congrArg Frame.totalSize after).trans (acts.totalSize_eq standard packs counted)

/-- A frame that is about to run some opcodes on a stack. -/
def packingFrame (opcodes : List Opcode) (stack : List Item) : Frame :=
  Launch.start
    { code := opcodes.map Opcode.code
      gas := (opcodes.map Opcode.price).sum
      depth := 1
      entry := Hash.zero
      calling := none
      residue := { stack } }

/-- With stacks that are full: there and back from a count in bytes, from a struct, and one way from
a map. -/
theorem packsAndUnpacks_full :
    let full : Machine := standard { limits := { stackSize := 5, arraySize := 2 } }
    let counted : List Item := [.byteString [2], .null, .array [.null], .boolean true]
    let struct : List Item := [.struct [.null, .struct [.null]], .null]
    let map : List Item := [.map [(.integer 1, .array [.null])], .null]
    ((packingFrame [.PACK, .UNPACK] counted).totalSize = 5 ∧
      (full.stepFor {} 2 (packingFrame [.PACK, .UNPACK] counted) {}).1.stack =
        [.integer 2, .null, .array [.null], .boolean true]) ∧
    ((packingFrame [.UNPACK, .PACK] struct).totalSize = 5 ∧
      (full.stepFor {} 2 (packingFrame [.UNPACK, .PACK] struct) {}).1.stack =
        [.array [.null, .struct [.null]], .null]) ∧
    (packingFrame [.UNPACK] map).totalSize = 5 ∧
      (full.step {} (packingFrame [.UNPACK] map) {}).1.totalSize = 5 := by
  intro full counted struct map
  have listed := (packsAndUnpacks full rfl {} (packingFrame [.PACK, .UNPACK] counted) {}).packUnpack
    _ 2 _ _ ⟨rfl, rfl, by decide +kernel, by decide⟩ rfl rfl (by decide) (by decide +kernel)
    (by decide) (by decide)
  have taken := (packsAndUnpacks full rfl {} (packingFrame [.UNPACK, .PACK] struct) {}).unpackPack
    _ _ _ _ ⟨rfl, rfl, by decide +kernel, by decide⟩ rfl rfl (.inr rfl) (by decide) (by decide)
  have kept := (packsAndUnpacks full rfl {} (packingFrame [.UNPACK] map) {}).size _ rfl rfl
    (by decide) (by decide +kernel)
  refine ⟨⟨by decide +kernel, ?_⟩, ⟨by decide +kernel, ?_⟩, by decide +kernel, ?_⟩
  · rw [listed.goesOn (by decide)]
    rfl
  · rw [taken.goesOn (by decide)]
    rfl
  · exact kept.trans (by decide +kernel)

end Machine

end GasMachine
