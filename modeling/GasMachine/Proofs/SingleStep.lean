import GasMachine.Proofs.Assembling
import GasMachine.Proofs.StackSize

/-!
# One instruction at a time

What a step makes of a frame, as an equation, for instructions that have to do with the stack alone.
If the frame is within the ceilings and has the gas, there are four ways to go: the arguments are
not there, the behaviour fails, its results are too many for the stacks, or the frame goes on with
the results in place of the arguments (`Frame.advanced`). A frame that stops keeps all but the gas,
and the arguments if the behaviour has had them (`Frame.stopped`).
-/

set_option autoImplicit false

namespace GasMachine

namespace Frame

/-- A frame that runs and is within the ceilings. -/
structure RunsWithin (frame : Frame) (limits : Limits) : Prop where
  running : frame.isRunning = true
  counted : frame.Counted
  size : frame.totalSize ≤ limits.stackSize
  depth : frame.depth ≤ limits.invocationDepth

/-- The frame after an instruction of a size, with a fee, that has changed the stack. -/
def advanced (frame : Frame) (size fee : Nat) (stack : List Item) : Frame :=
  { frame with
    stack
    pc := frame.pc + size
    nested := Item.nestedCountAll stack + Item.nestedCountAll frame.alt
    gas := frame.gas - fee }

/-- The frame that an instruction with a fee has stopped, with what is left of the stack. -/
def stopped (frame : Frame) (fee : Nat) (stack : List Item) (opcode : Opcode) (fault : Fault) :
    Frame :=
  { frame with
    stack
    nested := Item.nestedCountAll stack + Item.nestedCountAll frame.alt
    gas := frame.gas - fee
    status := .faulted ⟨fault, frame.pc, some opcode⟩ }

variable {frame : Frame}

/-- Another stack changes the size of a frame by what it has more or less on it. -/
theorem Counted.totalSize_advanced (counted : frame.Counted) (size fee : Nat)
    (stack : List Item) :
    (frame.advanced size fee stack).totalSize
        + (frame.stack.length + Item.nestedCountAll frame.stack) =
      frame.totalSize + (stack.length + Item.nestedCountAll stack) := by
  unfold Counted at counted
  unfold advanced Frame.totalSize Frame.ownSize
  dsimp only
  omega

/-- Items in the place of others change it by what they have more or less. -/
theorem Counted.totalSize_exchanged (counted : frame.Counted) {arguments rest : List Item}
    (split : frame.stack = arguments ++ rest) (size fee : Nat) (items : List Item) :
    (frame.advanced size fee (items ++ rest)).totalSize
        + (arguments.length + Item.nestedCountAll arguments) =
      frame.totalSize + (items.length + Item.nestedCountAll items) := by
  have after := counted.totalSize_advanced size fee (items ++ rest)
  rw [split] at after
  simp only [List.length_append, Item.nestedCountAll_append] at after
  omega

/-- A frame that goes on within the ceilings goes on running. -/
theorem RunsWithin.advanced {limits : Limits} {size fee : Nat} {stack : List Item}
    (within : frame.RunsWithin limits)
    (fits : (frame.advanced size fee stack).totalSize ≤ limits.stackSize) :
    (frame.advanced size fee stack).RunsWithin limits :=
  ⟨within.running, rfl, fits, within.depth⟩

/-- Two instructions in a row. -/
theorem advanced_advanced (size fee more further : Nat) (stack others : List Item) :
    (frame.advanced size fee stack).advanced more further others =
      frame.advanced (size + more) (fee + further) others := by
  unfold advanced
  dsimp only
  congr 1
  · exact Nat.add_assoc _ _ _
  · omega

/-- As many items as there are on top are those on top. -/
theorem take_drop_of_split {arguments rest : List Item} {count : Nat}
    (split : frame.stack = arguments ++ rest) (all : count = arguments.length) :
    frame.stack.take count = arguments ∧ frame.stack.drop count = rest ∧
      count ≤ frame.stack.length := by
  rw [split, all, List.length_append]
  exact ⟨List.take_left, List.drop_left, Nat.le_add_right _ _⟩

theorem gas_pay_eq {fee : Nat} (affordable : (fee : Int) ≤ frame.gas) :
    frame.pay fee = { frame with gas := frame.gas - fee } := by
  have gas := gas_pay_of_le affordable
  unfold pay at gas ⊢
  dsimp only at gas
  rw [gas]

end Frame

/-! ## Demands on the stack

Most demands ask for items of the stack alone. For these the check before an instruction comes down
to one comparison, and whether there is room can be told from the sizes of what is taken and what is
given. -/

/-- A demand that has to do with the stack alone, for items that are not too large. -/
structure Demand.OnStack (demand : Demand) (limits : Limits) : Prop where
  altIn : demand.altIn = 0
  altOut : demand.altOut = 0
  invocation : demand.invocation = 0
  arraySize : demand.arraySize ≤ limits.arraySize
  itemSize : demand.itemSize ≤ limits.itemSize

namespace Demand.OnStack

variable {frame : Frame} {limits : Limits}

/-- There is room beforehand for results that are no more than the arguments. -/
theorem room_of_fewer {demand : Demand} (onStack : demand.OnStack limits)
    (fits : frame.totalSize ≤ limits.stackSize)
    (fewer : (demand.stackOut : Int) + demand.growth ≤ demand.stackIn) :
    frame.sizeAfter demand ≤ limits.stackSize := by
  unfold Frame.sizeAfter
  rw [onStack.altIn, onStack.altOut]
  omega

theorem admits {instruction : Instruction} (onStack : instruction.demand.OnStack limits)
    (within : frame.RunsWithin limits)
    (enough : instruction.demand.stackIn ≤ frame.stack.length)
    (room : frame.sizeAfter instruction.demand ≤ limits.stackSize) :
    limits.Admits frame instruction := by
  have depth := within.depth
  constructor
  case stackIn => exact enough
  case altIn => rw [onStack.altIn]; exact Nat.zero_le _
  case size => exact room
  case depth => rw [onStack.invocation]; omega
  case arraySize => exact onStack.arraySize
  case itemSize => exact onStack.itemSize

end Demand.OnStack

/-- An instruction without an operand, with a demand on the stack alone. -/
def Opcode.plain (opcode : Opcode) (stackIn stackOut : Nat) (growth : Int) : Instruction :=
  { opcode.withOperand ⟨[], 0⟩ with demand := { stackIn, stackOut, growth } }

namespace Machine

/-- A frame has come to an instruction that has to do with the stack alone, and can pay for it. -/
structure Poised (machine : Machine) (invocation : Invocation) (frame : Frame)
    (instruction : Instruction) : Prop where
  within : frame.RunsWithin machine.config.limits
  found : machine.instructionAt? invocation frame = some instruction
  affordable : (instruction.fee : Int) ≤ frame.gas
  onStack : instruction.demand.OnStack machine.config.limits

variable {machine : Machine} {invocation : Invocation} {frame : Frame} {world : World}
  {instruction : Instruction}

theorem step_of_found (running : frame.isRunning = true)
    (found : machine.instructionAt? invocation frame = some instruction) :
    machine.step invocation frame world = machine.perform invocation instruction frame world := by
  obtain ⟨byte, following, here, prepared⟩ := prepare_of_instructionAt? found
  unfold step
  rw [if_pos running, here]
  dsimp only
  rw [prepared]

/-- Nothing is wrong with an instruction but that there is too little gas for it. -/
theorem step_of_poor (running : frame.isRunning = true)
    (found : machine.instructionAt? invocation frame = some instruction)
    (admitted : machine.config.limits.Admits frame instruction)
    (poor : frame.gas < instruction.fee) :
    machine.step invocation frame world =
      ((frame.pay instruction.fee).fail instruction.opcode (.outOfGas instruction.fee frame.gas),
        world) := by
  rw [step_of_found running found]
  unfold perform
  dsimp only
  rw [Limits.check_of_admits admitted]
  exact if_pos poor

/-- The behaviour of an instruction that has been paid for fails. -/
theorem execute_of_error {fault : Fault}
    (failed : instruction.behaviour.run (machine.host invocation) instruction
      (frame.charged instruction) world (frame.argumentsOf instruction) = .error fault) :
    machine.execute invocation instruction (frame.pay instruction.fee) world =
      ((frame.charged instruction).fail instruction.opcode fault, world) := by
  unfold Frame.charged Frame.argumentsOf at failed
  unfold execute
  dsimp only [Frame.pay] at failed ⊢
  rw [failed]
  rfl

/-- The results of an instruction that has been paid for are too many. -/
theorem execute_of_large {results : Results}
    (ran : instruction.behaviour.run (machine.host invocation) instruction
      (frame.charged instruction) world (frame.argumentsOf instruction) = .ok results)
    (counts : results.stack.length = instruction.demand.stackOut ∧
      results.alt.length = instruction.demand.altOut)
    (large : machine.config.limits.stackSize < (frame.completed instruction results).totalSize) :
    machine.execute invocation instruction (frame.pay instruction.fee) world =
      ((frame.completed instruction results).failAt frame.pc instruction.opcode
        (.stackOverflow (frame.completed instruction results).totalSize
          machine.config.limits.stackSize), results.world) := by
  unfold Frame.charged Frame.argumentsOf at ran
  unfold execute
  dsimp only [Frame.pay] at ran ⊢
  rw [ran]
  dsimp only
  rw [if_pos counts]
  exact if_pos large

/-- What stands in the code and can be resolved is the instruction that is found. -/
theorem instructionAt?_of_code (standard : machine.table = {}) {opcode : Opcode}
    {following : Bytes} {operand : Operand}
    (here : frame.code.drop frame.pc = opcode.code :: following)
    (read : opcode.layout.read following = .ok operand)
    (resolved : (opcode.withOperand operand).resolve (machine.host invocation) frame =
      .ok instruction) :
    machine.instructionAt? invocation frame = some instruction := by
  refine instructionAt?_of_prepare here ?_
  unfold prepare
  rw [standard, Opcode.read_code read]
  exact resolved

/-- An instruction without an operand whose demand is on the stack alone is one to go on with. -/
theorem poised_of_resolved (standard : machine.table = {})
    (within : frame.RunsWithin machine.config.limits) {opcode : Opcode} {following : Bytes}
    (here : frame.code.drop frame.pc = opcode.code :: following)
    (affordable : (instruction.fee : Int) ≤ frame.gas) (bare : opcode.layout = .none)
    (resolved : (opcode.withOperand ⟨[], 0⟩).resolve (machine.host invocation) frame =
      .ok instruction)
    (onStack : instruction.demand.OnStack machine.config.limits) :
    machine.Poised invocation frame instruction where
  within
  found := instructionAt?_of_code standard here (by rw [bare]; rfl) resolved
  affordable
  onStack

theorem poised_of_plain (standard : machine.table = {})
    (within : frame.RunsWithin machine.config.limits) {opcode : Opcode}
    {stackIn stackOut : Nat} {growth : Int} {following : Bytes}
    (here : frame.code.drop frame.pc = opcode.code :: following)
    (affordable : (opcode.price : Int) ≤ frame.gas) (bare : opcode.layout = .none)
    (resolved : (opcode.withOperand ⟨[], 0⟩).resolve (machine.host invocation) frame =
      .ok (opcode.plain stackIn stackOut growth)) :
    machine.Poised invocation frame (opcode.plain stackIn stackOut growth) :=
  poised_of_resolved standard within here affordable bare resolved
    ⟨rfl, rfl, rfl, Nat.zero_le _, Nat.zero_le _⟩

namespace Poised

variable (poised : machine.Poised invocation frame instruction)

include poised

theorem admits (enough : instruction.demand.stackIn ≤ frame.stack.length)
    (room : frame.sizeAfter instruction.demand ≤ machine.config.limits.stackSize) :
    machine.config.limits.Admits frame instruction :=
  poised.onStack.admits poised.within enough room

/-- There is room beforehand for results that are no more than the arguments. -/
theorem room_of_fewer (fewer : (instruction.demand.stackOut : Int) + instruction.demand.growth ≤
    instruction.demand.stackIn) :
    frame.sizeAfter instruction.demand ≤ machine.config.limits.stackSize :=
  poised.onStack.room_of_fewer poised.within.size fewer

/-- There is room beforehand for more results if there is room for them afterwards. -/
theorem room_of_fits {stack : List Item} (size fee : Nat)
    (fits : (frame.advanced size fee stack).totalSize ≤ machine.config.limits.stackSize)
    (told : (instruction.demand.stackOut : Int) + instruction.demand.growth
          + (frame.stack.length + Item.nestedCountAll frame.stack) ≤
        instruction.demand.stackIn + (stack.length + Item.nestedCountAll stack)) :
    frame.sizeAfter instruction.demand ≤ machine.config.limits.stackSize := by
  have onStack := poised.onStack
  have after := poised.within.counted.totalSize_advanced size fee stack
  unfold Frame.sizeAfter
  rw [onStack.altIn, onStack.altOut]
  omega

theorem argumentsOf_eq :
    frame.argumentsOf instruction = ⟨frame.stack.take instruction.demand.stackIn, []⟩ := by
  unfold Frame.argumentsOf
  rw [poised.onStack.altIn]
  rfl

/-- What is left of a frame that has paid and handed over the arguments. -/
theorem charged_eq :
    frame.charged instruction =
      { frame with
        stack := frame.stack.drop instruction.demand.stackIn
        nested := Item.nestedCountAll (frame.stack.drop instruction.demand.stackIn)
          + Item.nestedCountAll frame.alt
        gas := frame.gas - instruction.fee } := by
  have counted : (frame.charged instruction).nested =
      Item.nestedCountAll (frame.stack.drop instruction.demand.stackIn)
        + Item.nestedCountAll (frame.alt.drop instruction.demand.altIn) :=
    poised.within.counted.charged instruction
  have kept : frame.alt.drop instruction.demand.altIn = frame.alt := by
    rw [poised.onStack.altIn]
    rfl
  have gas : (frame.charged instruction).gas = frame.gas - instruction.fee :=
    Frame.gas_pay_of_le poised.affordable
  rw [kept] at counted
  rw [← counted, ← gas]
  unfold Frame.charged Frame.pop
  rw [poised.onStack.altIn]
  rfl

/-- What an instruction leaves behind that gives items in place of its arguments. -/
theorem completed_eq (world : World) (items : List Item) :
    frame.completed instruction (.many items world) =
      frame.advanced instruction.size instruction.fee
        (items ++ frame.stack.drop instruction.demand.stackIn) := by
  unfold Frame.completed Frame.advanced
  rw [poised.charged_eq, Item.nestedCountAll_append]
  unfold Frame.perform Frame.push Results.many
  dsimp only [List.nil_append, Item.nestedCountAll_nil]
  congr 1
  omega

/-! ## The ways a step can go

One equation for each, and together they leave nothing out. Where the results are too many, it
depends on the demand whether this is found out before or after the behaviour has run. Only the
fault is claimed then, because the stacks that are left differ. -/

/-- The arguments are not there. -/
theorem step_of_few (few : frame.stack.length < instruction.demand.stackIn) :
    machine.step invocation frame world =
      (frame.stopped instruction.fee frame.stack instruction.opcode
        (.stackUnderflow instruction.opcode instruction.demand.stackIn frame.stack.length),
        world) := by
  have refused : machine.config.limits.check frame instruction = .error (.stackUnderflow
      instruction.opcode instruction.demand.stackIn frame.stack.length) := if_pos few
  rw [step_of_found poised.within.running poised.found]
  unfold perform
  dsimp only
  rw [refused, Frame.gas_pay_eq poised.affordable]
  dsimp only [Frame.fail, Frame.failAt, Frame.stopped]
  rw [poised.within.counted]
  rfl

/-- Nothing is wrong before the instruction acts. -/
theorem step_eq_execute (enough : instruction.demand.stackIn ≤ frame.stack.length)
    (room : frame.sizeAfter instruction.demand ≤ machine.config.limits.stackSize) :
    machine.step invocation frame world =
      machine.execute invocation instruction (frame.pay instruction.fee) world := by
  rw [step_of_found poised.within.running poised.found]
  unfold perform
  dsimp only
  rw [Limits.check_of_admits (poised.admits enough room)]
  exact if_neg (Int.not_lt.2 poised.affordable)

/-- The behaviour fails, and the arguments are gone. -/
theorem step_of_failure (enough : instruction.demand.stackIn ≤ frame.stack.length)
    (room : frame.sizeAfter instruction.demand ≤ machine.config.limits.stackSize) {fault : Fault}
    (failed : instruction.behaviour.run (machine.host invocation) instruction
      (frame.charged instruction) world ⟨frame.stack.take instruction.demand.stackIn, []⟩ =
        .error fault)
    (told : fault.isCrash = false) :
    machine.step invocation frame world =
      (frame.stopped instruction.fee (frame.stack.drop instruction.demand.stackIn)
        instruction.opcode fault, world) := by
  rw [← poised.argumentsOf_eq] at failed
  rw [poised.step_eq_execute enough room, execute_of_error failed, poised.charged_eq]
  unfold Frame.fail Frame.failAt Frame.stopped
  rw [told]
  rfl

/-- The results take the place of the arguments. -/
theorem step_of_results (enough : instruction.demand.stackIn ≤ frame.stack.length)
    (room : frame.sizeAfter instruction.demand ≤ machine.config.limits.stackSize)
    {items : List Item}
    (ran : instruction.behaviour.run (machine.host invocation) instruction
      (frame.charged instruction) world ⟨frame.stack.take instruction.demand.stackIn, []⟩ =
        .ok (.many items world))
    (count : items.length = instruction.demand.stackOut)
    (fits : (frame.advanced instruction.size instruction.fee
      (items ++ frame.stack.drop instruction.demand.stackIn)).totalSize ≤
        machine.config.limits.stackSize) :
    machine.step invocation frame world =
      (frame.advanced instruction.size instruction.fee
        (items ++ frame.stack.drop instruction.demand.stackIn), world) := by
  have completed := poised.completed_eq world items
  rw [← poised.argumentsOf_eq] at ran
  have acts : machine.Acts invocation frame world instruction (.many items world) :=
    ⟨poised.found, poised.admits enough room, poised.affordable, ran, count,
      poised.onStack.altOut.symm⟩
  rw [← completed] at fits ⊢
  exact step_of_acts poised.within.running acts fits

section Exchange

variable {arguments rest : List Item} (split : frame.stack = arguments ++ rest)
  (stackIn : instruction.demand.stackIn = arguments.length)
  (fewer : (instruction.demand.stackOut : Int) + instruction.demand.growth ≤
    instruction.demand.stackIn)

include split stackIn fewer

/-- Results that are no larger than the items on top of the stack take their place. -/
theorem step_of_exchange {items : List Item}
    (ran : instruction.behaviour.run (machine.host invocation) instruction
      (frame.charged instruction) world ⟨arguments, []⟩ = .ok (.many items world))
    (count : items.length = instruction.demand.stackOut)
    (small : items.length + Item.nestedCountAll items ≤
      arguments.length + Item.nestedCountAll arguments) :
    machine.step invocation frame world =
      (frame.advanced instruction.size instruction.fee (items ++ rest), world) := by
  obtain ⟨taken, left, enough⟩ := Frame.take_drop_of_split split stackIn
  have before := poised.within.size
  have after := poised.within.counted.totalSize_exchanged split instruction.size instruction.fee
    items
  have fits : (frame.advanced instruction.size instruction.fee (items ++ rest)).totalSize ≤
      machine.config.limits.stackSize := by omega
  rw [← taken] at ran
  rw [← left] at fits ⊢
  exact poised.step_of_results enough (poised.room_of_fewer fewer) ran count fits

/-- The behaviour fails, and the items are gone. -/
theorem step_of_loss {fault : Fault}
    (failed : instruction.behaviour.run (machine.host invocation) instruction
      (frame.charged instruction) world ⟨arguments, []⟩ = .error fault)
    (told : fault.isCrash = false) :
    machine.step invocation frame world =
      (frame.stopped instruction.fee rest instruction.opcode fault, world) := by
  obtain ⟨taken, left, enough⟩ := Frame.take_drop_of_split split stackIn
  rw [← taken] at failed
  rw [← left]
  exact poised.step_of_failure enough (poised.room_of_fewer fewer) failed told

end Exchange

/-- The results are too many for the stacks, and this is found out before or afterwards. -/
theorem step_of_overflow (enough : instruction.demand.stackIn ≤ frame.stack.length)
    {items : List Item}
    (ran : instruction.behaviour.run (machine.host invocation) instruction
      (frame.charged instruction) world ⟨frame.stack.take instruction.demand.stackIn, []⟩ =
        .ok (.many items world))
    (count : items.length = instruction.demand.stackOut)
    (large : machine.config.limits.stackSize < (frame.advanced instruction.size instruction.fee
      (items ++ frame.stack.drop instruction.demand.stackIn)).totalSize) :
    ∃ size, (machine.step invocation frame world).1.status =
      .faulted ⟨.stackOverflow size machine.config.limits.stackSize, frame.pc,
        some instruction.opcode⟩ := by
  by_cases room : frame.sizeAfter instruction.demand ≤ machine.config.limits.stackSize
  · rw [← poised.completed_eq world items] at large
    rw [← poised.argumentsOf_eq] at ran
    rw [poised.step_eq_execute enough room,
      execute_of_large ran ⟨count, poised.onStack.altOut.symm⟩ large]
    exact ⟨_, rfl⟩
  · have noAlt : instruction.demand.altIn ≤ frame.alt.length :=
      poised.onStack.altIn ▸ Nat.zero_le _
    have refused := Limits.check_of_size_lt enough noAlt (Int.not_le.1 room)
    rw [step_of_found poised.within.running poised.found]
    unfold perform
    dsimp only
    rw [refused]
    exact ⟨_, rfl⟩

end Poised

end Machine

end GasMachine
