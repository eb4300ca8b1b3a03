import Mathlib
import GasMachine.Machine.Charge

/-!
# The ways a step can go

A step of a running frame halts, fails before it acts, fails while it acts, or does what the
instruction is for; a frame that has ended rests. `Machine.stepTo_step` says so once, with all that
is known in each case, so that no later proof opens the step function. The fields that a kind of
step leaves alone are simp lemmas.
-/

set_option autoImplicit false

namespace GasMachine

namespace Machine

/-- The instruction at the position of a frame, if there is one that can be read and whose demand
can be resolved. -/
def instructionAt? (machine : Machine) (invocation : Invocation) (frame : Frame) :
    Option Instruction :=
  match frame.code.drop frame.pc with
  | [] => none
  | byte :: following => (machine.prepare invocation frame byte following).toOption

end Machine

namespace Frame

/-- The frame that has paid for an instruction and handed over its arguments. -/
def charged (frame : Frame) (instruction : Instruction) : Frame :=
  (frame.pay instruction.fee).pop instruction.demand.stackIn instruction.demand.altIn

/-- The arguments of an instruction. -/
def argumentsOf (frame : Frame) (instruction : Instruction) : Arguments :=
  ⟨frame.stack.take instruction.demand.stackIn, frame.alt.take instruction.demand.altIn⟩

/-- The frame in which an instruction has left its results. -/
def completed (frame : Frame) (instruction : Instruction) (results : Results) : Frame :=
  ((frame.charged instruction).perform instruction.size results.effect).push
    results.stack results.alt

/-! ## What the parts of a step leave alone

Simp lemmas for the fields, so that a later proof about one field never opens `perform` or
`completed`. -/

section Fields

variable (frame : Frame)

@[simp] theorem nested_perform (size : Nat) (effect : Effect) :
    (frame.perform size effect).nested = frame.nested := by
  cases effect <;> rfl

@[simp] theorem stack_perform (size : Nat) (effect : Effect) :
    (frame.perform size effect).stack = frame.stack := by
  cases effect <;> rfl

@[simp] theorem alt_perform (size : Nat) (effect : Effect) :
    (frame.perform size effect).alt = frame.alt := by
  cases effect <;> rfl

@[simp] theorem callerStack_perform (size : Nat) (effect : Effect) :
    (frame.perform size effect).callerStack = frame.callerStack := by
  cases effect <;> rfl

@[simp] theorem callerAlt_perform (size : Nat) (effect : Effect) :
    (frame.perform size effect).callerAlt = frame.callerAlt := by
  cases effect <;> rfl

variable (instruction : Instruction) (results : Results)

@[simp] theorem gas_completed :
    (frame.completed instruction results).gas = (frame.pay instruction.fee).gas :=
  gas_perform _ _ _

@[simp] theorem stack_completed : (frame.completed instruction results).stack =
    results.stack ++ frame.stack.drop instruction.demand.stackIn :=
  congrArg (results.stack ++ ·) (stack_perform _ _ _)

@[simp] theorem alt_completed : (frame.completed instruction results).alt =
    results.alt ++ frame.alt.drop instruction.demand.altIn :=
  congrArg (results.alt ++ ·) (alt_perform _ _ _)

@[simp] theorem nested_completed : (frame.completed instruction results).nested =
    (frame.charged instruction).nested
      + (Item.nestedCountAll results.stack + Item.nestedCountAll results.alt) :=
  congrArg (· + _) (nested_perform _ _ _)

@[simp] theorem callerStack_completed :
    (frame.completed instruction results).callerStack = frame.callerStack :=
  callerStack_perform _ _ _

@[simp] theorem callerAlt_completed :
    (frame.completed instruction results).callerAlt = frame.callerAlt :=
  callerAlt_perform _ _ _

@[simp] theorem isRunning_completed :
    (frame.completed instruction results).isRunning = frame.isRunning := by
  unfold completed
  cases results.effect <;> rfl

end Fields

end Frame

/-! ## The checks before an instruction acts

`Admits` names the conditions that the check asks for one by one, and the two are equivalent. What
the check reports where one of them fails is told for the size of the stacks only, where it matters.
-/

/-- A frame has what an instruction demands, and what it makes stays below the ceilings. -/
structure Limits.Admits (limits : Limits) (frame : Frame) (instruction : Instruction) : Prop where
  stackIn : instruction.demand.stackIn ≤ frame.stack.length
  altIn : instruction.demand.altIn ≤ frame.alt.length
  size : frame.sizeAfter instruction.demand ≤ limits.stackSize
  depth : (frame.depth : Int) + instruction.demand.invocation ≤ limits.invocationDepth
  arraySize : instruction.demand.arraySize ≤ limits.arraySize
  itemSize : instruction.demand.itemSize ≤ limits.itemSize

theorem Limits.admits_of_check {limits : Limits} {frame : Frame} {instruction : Instruction}
    (passed : limits.check frame instruction = .ok ()) : limits.Admits frame instruction := by
  unfold check at passed
  dsimp only at passed
  repeat' split at passed
  all_goals cases passed
  constructor <;> omega

theorem Limits.check_of_admits {limits : Limits} {frame : Frame} {instruction : Instruction}
    (admitted : limits.Admits frame instruction) : limits.check frame instruction = .ok () := by
  obtain ⟨stackIn, altIn, size, depth, arraySize, itemSize⟩ := admitted
  unfold check
  dsimp only
  rw [if_neg (by omega), if_neg (by omega), if_neg (by omega), if_neg (by omega),
    if_neg (by omega), if_neg (by omega)]

section Size

variable {limits : Limits} {frame : Frame} {instruction : Instruction}

theorem Limits.check_of_size_lt (stackIn : instruction.demand.stackIn ≤ frame.stack.length)
    (altIn : instruction.demand.altIn ≤ frame.alt.length)
    (large : limits.stackSize < frame.sizeAfter instruction.demand) :
    limits.check frame instruction =
      .error
        (.stackOverflow (shownSize (frame.sizeAfter instruction.demand)) limits.stackSize) := by
  unfold check
  dsimp only
  rw [if_neg (Nat.not_lt.2 stackIn), if_neg (Nat.not_lt.2 altIn), if_pos large]

theorem Limits.size_lt_of_check {size limit : Nat}
    (refused : limits.check frame instruction = .error (.stackOverflow size limit)) :
    limits.stackSize < frame.sizeAfter instruction.demand := by
  unfold check at refused
  dsimp only at refused
  repeat' split at refused
  all_goals first
    | assumption
    | cases refused

end Size

/-! ## The cases

The inversion of a step: every way it can go, with all that is known then, the guards included. All
invariants are proved by cases on `StepTo`, and where a step goes on, by `Acts` alone. -/

/-- An instruction has passed every check before it acts, and its behaviour has given results that
are as many as declared. -/
structure Machine.Acts (machine : Machine) (invocation : Invocation) (frame : Frame)
    (world : World) (instruction : Instruction) (results : Results) : Prop where
  found : machine.instructionAt? invocation frame = some instruction
  admitted : machine.config.limits.Admits frame instruction
  affordable : (instruction.fee : Int) ≤ frame.gas
  ran : instruction.behaviour.run (machine.host invocation) instruction (frame.charged instruction)
    world (frame.argumentsOf instruction) = .ok results
  stackOut : results.stack.length = instruction.demand.stackOut
  altOut : results.alt.length = instruction.demand.altOut

/-- Why an instruction fails that has passed every check before it acts: its behaviour does, or the
results are not as many as declared. -/
inductive Machine.FailsWith (machine : Machine) (invocation : Invocation) (frame : Frame)
    (world : World) (instruction : Instruction) : Fault → Prop where
  | behaviour (fault : Fault) (failed : instruction.behaviour.run (machine.host invocation)
      instruction (frame.charged instruction) world (frame.argumentsOf instruction) =
        .error fault) :
    FailsWith machine invocation frame world instruction fault
  | resultCount (results : Results) (ran : instruction.behaviour.run (machine.host invocation)
      instruction (frame.charged instruction) world (frame.argumentsOf instruction) =
        .ok results)
    (miscounted : ¬(results.stack.length = instruction.demand.stackOut ∧
      results.alt.length = instruction.demand.altOut)) :
    FailsWith machine invocation frame world instruction
      (.internal (.resultCount instruction.opcode results.stack.length results.alt.length
        instruction.demand.stackOut instruction.demand.altOut))

/-- The ways a step can go. -/
inductive Machine.StepTo (machine : Machine) (invocation : Invocation) (frame : Frame)
    (world : World) : Frame × World → Prop where
  /-- The frame has ended before. -/
  | rests (ended : frame.isRunning = false) :
    StepTo machine invocation frame world (frame, world)
  /-- The code is at its end. -/
  | ended (running : frame.isRunning = true) (here : frame.code.drop frame.pc = []) :
    StepTo machine invocation frame world (frame.halt, world)
  /-- There is no instruction, or its demand cannot be resolved. -/
  | unreadable (byte : UInt8) (following : Bytes) (fault : Fault)
    (here : frame.code.drop frame.pc = byte :: following)
    (refused : machine.prepare invocation frame byte following = .error fault) :
    StepTo machine invocation frame world (frame.fail (Opcode.ofByte? byte) fault, world)
  /-- A check fails, the one of the gas among them. -/
  | refused (instruction : Instruction) (fault : Fault)
    (found : machine.instructionAt? invocation frame = some instruction)
    (cause : machine.config.limits.check frame instruction = .error fault ∨
      machine.config.limits.check frame instruction = .ok () ∧ frame.gas < instruction.fee ∧
        fault = .outOfGas instruction.fee frame.gas) :
    StepTo machine invocation frame world
      ((frame.pay instruction.fee).fail instruction.opcode fault, world)
  /-- The behaviour fails, or gives another number of results than declared. -/
  | failed (instruction : Instruction) (fault : Fault)
    (found : machine.instructionAt? invocation frame = some instruction)
    (affordable : (instruction.fee : Int) ≤ frame.gas)
    (admitted : machine.config.limits.Admits frame instruction)
    (cause : machine.FailsWith invocation frame world instruction fault) :
    StepTo machine invocation frame world
      ((frame.charged instruction).fail instruction.opcode fault, world)
  /-- The results are too many for the stacks. -/
  | overflowed (instruction : Instruction) (results : Results)
    (acts : machine.Acts invocation frame world instruction results) (fault : Fault)
    (cause : fault = .stackOverflow (frame.completed instruction results).totalSize
      machine.config.limits.stackSize)
    (large : machine.config.limits.stackSize < (frame.completed instruction results).totalSize) :
    StepTo machine invocation frame world
      ((frame.completed instruction results).failAt frame.pc instruction.opcode fault,
        results.world)
  /-- The instruction has done its work. -/
  | acted (instruction : Instruction) (results : Results)
    (acts : machine.Acts invocation frame world instruction results)
    (fits : (frame.completed instruction results).totalSize ≤ machine.config.limits.stackSize) :
    StepTo machine invocation frame world (frame.completed instruction results, results.world)

namespace Machine

variable (machine : Machine) (invocation : Invocation) (world : World)

theorem instructionAt?_of_prepare {machine : Machine} {invocation : Invocation} {frame : Frame}
    {byte : UInt8} {following : Bytes} {instruction : Instruction}
    (here : frame.code.drop frame.pc = byte :: following)
    (prepared : machine.prepare invocation frame byte following = .ok instruction) :
    machine.instructionAt? invocation frame = some instruction := by
  rw [instructionAt?, here]
  simp only [prepared, Except.toOption]

theorem stepTo_execute {frame : Frame} {instruction : Instruction}
    (found : machine.instructionAt? invocation frame = some instruction)
    (admitted : machine.config.limits.Admits frame instruction)
    (affordable : (instruction.fee : Int) ≤ frame.gas) :
    machine.StepTo invocation frame world
      (machine.execute invocation instruction (frame.pay instruction.fee) world) := by
  unfold execute
  dsimp only
  split
  · rename_i fault failed
    exact .failed instruction fault found affordable admitted (.behaviour fault failed)
  · rename_i results ran
    split
    · rename_i counts
      have acts : machine.Acts invocation frame world instruction results :=
        ⟨found, admitted, affordable, ran, counts.1, counts.2⟩
      split
      · rename_i large
        exact .overflowed instruction results acts _ rfl large
      · rename_i room
        exact .acted instruction results acts (Nat.le_of_not_lt room)
    · rename_i miscounted
      exact .failed instruction _ found affordable admitted (.resultCount results ran miscounted)

/-- A step goes one of these ways. -/
theorem stepTo_step (frame : Frame) :
    machine.StepTo invocation frame world (machine.step invocation frame world) := by
  unfold step
  split
  · rename_i running
    split
    · rename_i here
      exact .ended running here
    · rename_i byte following here
      split
      · rename_i fault refused
        exact .unreadable byte following fault here refused
      · rename_i instruction prepared
        have found := instructionAt?_of_prepare here prepared
        unfold perform
        dsimp only
        split
        · rename_i fault stopped
          exact .refused instruction fault found (.inl stopped)
        · rename_i passed
          split
          · rename_i poor
            exact .refused instruction _ found (.inr ⟨passed, poor, rfl⟩)
          · rename_i affordable
            exact stepTo_execute machine invocation world found (Limits.admits_of_check passed)
              (Int.not_lt.1 affordable)
  · rename_i ended
    exact .rests (Bool.eq_false_iff.2 ended)

/-- Only an instruction that acts can change the world. -/
theorem world_step (frame : Frame) :
    (machine.step invocation frame world).2 = world ∨
      ∃ instruction results, machine.Acts invocation frame world instruction results ∧
        (machine.step invocation frame world).2 = results.world := by
  have went := machine.stepTo_step invocation world frame
  generalize machine.step invocation frame world = next at went ⊢
  cases went with
  | overflowed instruction results acts _ => exact Or.inr ⟨instruction, results, acts, rfl⟩
  | acted instruction results acts _ => exact Or.inr ⟨instruction, results, acts, rfl⟩
  | _ => exact Or.inl rfl

/-! ## Steps as equations

The other direction, for proofs that follow a run instead of taking it apart. -/

theorem step_of_end {frame : Frame} (running : frame.isRunning = true)
    (here : frame.code.drop frame.pc = []) :
    machine.step invocation frame world = (frame.halt, world) := by
  unfold step
  rw [if_pos running, here]

theorem prepare_of_instructionAt? {machine : Machine} {invocation : Invocation} {frame : Frame}
    {instruction : Instruction}
    (found : machine.instructionAt? invocation frame = some instruction) :
    ∃ byte following, frame.code.drop frame.pc = byte :: following ∧
      machine.prepare invocation frame byte following = .ok instruction := by
  unfold instructionAt? at found
  split at found
  · cases found
  · rename_i byte following here
    refine ⟨byte, following, here, ?_⟩
    cases prepared : machine.prepare invocation frame byte following with
    | error fault =>
      rw [prepared] at found
      cases found
    | ok other =>
      rw [prepared] at found
      cases found
      rfl

/-- An instruction that acts and whose results fit has done its work. -/
theorem step_of_acts {machine : Machine} {invocation : Invocation} {frame : Frame} {world : World}
    {instruction : Instruction} {results : Results} (running : frame.isRunning = true)
    (acts : machine.Acts invocation frame world instruction results)
    (fits : (frame.completed instruction results).totalSize ≤ machine.config.limits.stackSize) :
    machine.step invocation frame world = (frame.completed instruction results, results.world) := by
  obtain ⟨byte, following, here, prepared⟩ := prepare_of_instructionAt? acts.found
  unfold step perform execute
  rw [if_pos running, here]
  dsimp only
  rw [prepared]
  dsimp only
  rw [Limits.check_of_admits acts.admitted]
  dsimp only
  have ran := acts.ran
  unfold Frame.charged Frame.argumentsOf at ran
  rw [if_neg (Int.not_lt.2 acts.affordable)]
  have taken : (frame.pay instruction.fee).stack = frame.stack ∧
      (frame.pay instruction.fee).alt = frame.alt := ⟨rfl, rfl⟩
  rw [taken.1, taken.2, ran]
  dsimp only
  rw [if_pos ⟨acts.stackOut, acts.altOut⟩]
  exact if_neg (Nat.not_lt.2 fits)

/-- A frame that runs on after a step has carried out an instruction. -/
theorem acts_of_goesOn {machine : Machine} {invocation : Invocation} {frame after : Frame}
    {world next : World} (step : machine.step invocation frame world = (after, next))
    (goesOn : after.isRunning = true) :
    ∃ instruction results, machine.Acts invocation frame world instruction results ∧
      after = frame.completed instruction results ∧ next = results.world := by
  have went := machine.stepTo_step invocation world frame
  rw [step] at went
  cases went with
  | rests ended => cases ended.symm.trans goesOn
  | ended _ _ => cases goesOn
  | unreadable _ _ _ _ _ => cases goesOn
  | refused _ _ _ => cases goesOn
  | failed _ _ _ _ => cases goesOn
  | overflowed _ _ _ _ => cases goesOn
  | acted instruction results acts fits => exact ⟨instruction, results, acts, rfl, rfl⟩

end Machine

end GasMachine
