import GasMachine.Proofs.Declared
import GasMachine.Proofs.Journal
import GasMachine.Proofs.Settlement

/-!
# No internal faults

With the standard table and the standard services no frame faults internally: no behaviour gets
other arguments than it takes apart, is run for an opcode that it does not know, reaches beyond the
end of something or gives other results than declared. There are two provisos. A copy from the depth
of the stack with a count of the two largest words breaks off, because the place is worked out as a
word (`Machine.step_of_picksTooDeep`); and memory has to be there for the stack and for what an
instruction makes.
-/

set_option autoImplicit false

namespace GasMachine

open TwosComplement (signedMax wordMax)

/-! ## Frames without internal faults

A caller takes over the fault of its contract with the cause inside, so what is excluded has to be
excluded for causes at any depth. -/

namespace Frame

/-- If the frame has faulted, then for a reason of the script's own. -/
def Blameless (frame : Frame) : Prop :=
  ∀ record, frame.fault? = some record → record.fault.isInternal = false

theorem blameless_of_isRunning {frame : Frame} (running : frame.isRunning = true) :
    frame.Blameless := by
  intro record faulted
  rw [fault?_eq_none_of_isRunning running] at faulted
  cases faulted

theorem blameless_failAt (frame : Frame) (pc : Nat) (opcode : Option Opcode) {fault : Fault}
    (own : fault.isInternal = false) : (frame.failAt pc opcode fault).Blameless := by
  intro record faulted
  cases faulted
  exact own

/-- A caller takes over the fault of its contract, and with it the blame. -/
theorem Blameless.resume {caller callee : Frame} (own : caller.Blameless)
    (called : callee.Blameless) (callPc : Nat) : (caller.resume callee callPc).Blameless := by
  intro record faulted
  unfold Frame.resume at faulted
  dsimp only at faulted
  split at faulted
  · exact own record faulted
  · rename_i cause broke
    cases faulted
    rw [cause.isInternal_asContractFault]
    exact called cause broke

end Frame

/-! ## The provisos

Both are about a stage, and each is needed: the first one fails at the very stage it names
(`step_of_picksTooDeep`). Ceilings of the usual size leave nothing of the second but the length of
the stack. -/

/-- The opcode at the position of a frame. -/
def Frame.opcode? (frame : Frame) : Option Opcode :=
  (frame.code.drop frame.pc).head?.bind Opcode.ofByte?

/-- A frame is to execute `PICK` with a count of the two largest words. -/
def Frame.PicksTooDeep (frame : Frame) (limits : Limits) : Prop :=
  frame.opcode? = some .PICK ∧ (frame.peekCount? limits 0 = some (2 ^ 64 - 2) ∨
    frame.peekCount? limits 0 = some (2 ^ 64 - 1))

instance (frame : Frame) (limits : Limits) : Decidable (frame.PicksTooDeep limits) :=
  inferInstanceAs (Decidable (_ ∧ _))

/-- Memory is there for the stack of a frame, and for the item that the instruction at its position
makes if it passes the checks. -/
structure Machine.HasMemory (machine : Machine) (invocation : Invocation) (frame : Frame) :
    Prop where
  stack : Behaviour.elementWidth * frame.stack.length ≤ signedMax
  made : ∀ instruction, machine.instructionAt? invocation frame = some instruction →
    machine.config.limits.check frame instruction = .ok () →
      instruction.demand.itemSize ≤ signedMax ∧
        Behaviour.elementWidth * instruction.demand.arraySize ≤ signedMax

/-- Ceilings that memory can hold leave nothing but the stack to be asked for. -/
theorem Machine.hasMemory_of_limits {machine : Machine} {invocation : Invocation} {frame : Frame}
    (itemSize : machine.config.limits.itemSize ≤ signedMax)
    (arraySize : Behaviour.elementWidth * machine.config.limits.arraySize ≤ signedMax)
    (stack : Behaviour.elementWidth * frame.stack.length ≤ signedMax) :
    machine.HasMemory invocation frame := by
  refine ⟨stack, fun instruction _ passed => ?_⟩
  have admitted := Limits.admits_of_check passed
  have fewer := Nat.mul_le_mul_left Behaviour.elementWidth admitted.arraySize
  exact ⟨admitted.itemSize.trans itemSize, fewer.trans arraySize⟩

/-! ## Reading and checking

Before the instruction acts nothing can go wrong but the first proviso: the refinement reads a place
below the count, and only for this instruction is the place one further than the count. -/

theorem Limits.check_sound {given : Prop} (limits : Limits) (frame : Frame)
    (instruction : Instruction) : Sound given (fun _ => True) (limits.check frame instruction) := by
  unfold check
  dsimp only
  repeat' split
  all_goals first
    | exact Sound.ok trivial
    | exact Sound.error rfl

theorem Opcode.eq_PICK_of_copyAt {opcode : Opcode}
    (h : opcode.standardEntry.refinement = some .copyAt) : opcode = .PICK := by
  cases opcode <;> first
    | rfl
    | cases h

theorem Instruction.read_opcode (table : InstructionTable) (byte : UInt8) (following : Bytes) :
    Ensures (fun base => Opcode.ofByte? byte = some base.opcode) (read table byte following) := by
  unfold read
  split
  · exact Ensures.error _
  · rename_i opcode known
    split
    · exact Ensures.error _
    · rename_i entry _
      refine (ofEntry_ensures opcode entry following).mono fun base read => ?_
      rw [read.1, known]

theorem Frame.peekCount?_le {frame : Frame} {limits : Limits} {place n : Nat}
    (counted : frame.peekCount? limits place = some n) : n ≤ wordMax := by
  unfold peekCount? at counted
  cases top : frame.peek? place with
  | none =>
    rw [top] at counted
    cases counted
  | some item =>
    rw [top] at counted
    dsimp only [Option.bind_eq_bind, Option.bind_some] at counted
    split at counted
    · rename_i count read
      cases counted
      exact (item.toCount_sound _ : Sound True _ _).ensures n read
    · cases counted

theorem Instruction.resolve_sound {given : Prop} (instruction : Instruction) (host : Host)
    (frame : Frame) (near : given → instruction.refinement = some .copyAt →
      ∀ n, frame.peekCount? host.limits 0 = some n → n + 1 < wordMax) :
    Sound given (fun _ => True) (instruction.resolve host frame) := by
  unfold resolve
  split
  · exact Sound.ok trivial
  · rename_i refinement refined
    have resolved := Refinement.resolve_sound host frame instruction fun holds copies =>
      near holds (refined.trans (congrArg some copies))
    exact resolved.bind fun _ _ => Sound.pure trivial

namespace Machine

variable {machine : Machine} {invocation : Invocation} {frame : Frame} {instruction : Instruction}

theorem prepare_sound {given : Prop} (standard : given → machine.table = {})
    (near : given → ¬frame.PicksTooDeep machine.config.limits) {byte : UInt8} {following : Bytes}
    (here : given → frame.code.drop frame.pc = byte :: following) :
    Sound given (fun _ => True) (machine.prepare invocation frame byte following) := by
  refine (Instruction.read_sound machine.table byte following).self.bind fun base read => ?_
  refine base.resolve_sound _ _ fun holds copies n counted => ?_
  obtain ⟨entry, inTable, readWith⟩ := Instruction.read_ensures _ _ _ base read
  rw [standard holds] at inTable
  cases inTable
  have pick : base.opcode = .PICK := Opcode.eq_PICK_of_copyAt (readWith.refinement ▸ copies)
  have known : frame.opcode? = some .PICK := by
    unfold Frame.opcode?
    rw [here holds, ← pick]
    exact Instruction.read_opcode _ _ _ base read
  -- A count is a word, so only the two largest are too large for the place to be one as well.
  by_contra far
  have most := Frame.peekCount?_le counted
  have one : n = 2 ^ 64 - 2 ∨ n = 2 ^ 64 - 1 := by
    unfold wordMax at far most
    omega
  rcases one with rfl | rfl
  · exact near holds ⟨known, .inl counted⟩
  · exact near holds ⟨known, .inr counted⟩

/-! ## Steps

An instruction that is found and passes the check gets what it declares, and memory is there for
what it makes. So nothing that is asked for is missing, and it gives results or fails for a reason
of the script's own (`Sound True`). -/

/-- An instruction is handled as it declares: its behaviour gets the arguments that are declared,
and gives the results that are declared or fails for a reason of the script's own. -/
structure Handles (machine : Machine) (invocation : Invocation) (frame : Frame) (world : World)
    (instruction : Instruction) : Prop where
  stackIn : (frame.argumentsOf instruction).stack.length = instruction.demand.stackIn
  altIn : (frame.argumentsOf instruction).alt.length = instruction.demand.altIn
  outcome : Sound True (fun results => results.stack.length = instruction.demand.stackOut ∧
      results.alt.length = instruction.demand.altOut)
    (instruction.behaviour.run (machine.host invocation) instruction (frame.charged instruction)
      world (frame.argumentsOf instruction))

theorem handles_of_found (standard : machine.table = {})
    (memory : machine.HasMemory invocation frame)
    (found : machine.instructionAt? invocation frame = some instruction)
    (passed : machine.config.limits.check frame instruction = .ok ()) (world : World) :
    machine.Handles invocation frame world instruction := by
  have admitted := Limits.admits_of_check passed
  obtain ⟨itemSize, arraySize⟩ := memory.made instruction found passed
  have small : frame.stack.length < wordMax := by
    have stack := memory.stack
    unfold Behaviour.elementWidth signedMax at stack
    unfold wordMax
    omega
  exact ⟨List.length_take_of_le admitted.stackIn, List.length_take_of_le admitted.altIn,
    run_sound standard found admitted small itemSize arraySize world⟩

/-- A step of a running frame does not end in an internal fault. -/
theorem step_blameless (standard : machine.table = {})
    (near : ¬frame.PicksTooDeep machine.config.limits) (memory : machine.HasMemory invocation frame)
    (running : frame.isRunning = true) (world : World) :
    (machine.step invocation frame world).1.Blameless := by
  have went := machine.stepTo_step invocation world frame
  generalize machine.step invocation frame world = next at went ⊢
  cases went with
  | rests _ => exact Frame.blameless_of_isRunning running
  | ended _ _ =>
    intro record faulted
    cases faulted
  | unreadable byte following fault here refused =>
    have read : Sound True (fun _ => True) (machine.prepare invocation frame byte following) :=
      prepare_sound (fun _ => standard) (fun _ => near) fun _ => here
    exact frame.blameless_failAt _ _ (read.not_isInternal refused)
  | refused instruction fault found cause =>
    -- Either a ceiling is in the way or the gas does not reach.
    rcases cause with stopped | ⟨_, _, rfl⟩
    · have check : Sound True (fun _ => True) (machine.config.limits.check frame instruction) :=
        machine.config.limits.check_sound frame instruction
      exact Frame.blameless_failAt _ _ _ (check.not_isInternal stopped)
    · exact Frame.blameless_failAt _ _ _ rfl
  | failed instruction fault found affordable admitted cause =>
    have handles := handles_of_found standard memory found (Limits.check_of_admits admitted) world
    have outcome := handles.outcome
    cases cause with
    | behaviour _ failed =>
      exact Frame.blameless_failAt _ _ _ (outcome.not_isInternal failed)
    | resultCount results ran miscounted => exact absurd (outcome.ensures results ran) miscounted
  | overflowed instruction results acts fault cause =>
    subst cause
    exact Frame.blameless_failAt _ _ _ rfl
  | acted instruction results acts fits =>
    have goesOn := (frame.isRunning_completed instruction results).trans running
    exact Frame.blameless_of_isRunning goesOn

/-- The first proviso is needed: such a copy breaks off before anything is checked or paid. -/
theorem step_of_picksTooDeep (standard : machine.table = {})
    (deep : frame.PicksTooDeep machine.config.limits) (running : frame.isRunning = true)
    (world : World) :
    machine.step invocation frame world =
      (frame.fail (some .PICK) (.internal .overflow), world) := by
  obtain ⟨known, counts⟩ := deep
  obtain ⟨n, counted, far⟩ : ∃ n, frame.peekCount? machine.config.limits 0 = some n ∧
      ¬n + 1 < wordMax := by
    rcases counts with counted | counted
    · exact ⟨_, counted, by decide⟩
    · exact ⟨_, counted, by decide⟩
  unfold Frame.opcode? at known
  unfold step
  rw [if_pos running]
  cases here : frame.code.drop frame.pc with
  | nil =>
    rw [here] at known
    cases known
  | cons byte following =>
    rw [here] at known
    dsimp only [List.head?_cons, Option.bind_some] at known ⊢
    have prepared : machine.prepare invocation frame byte following =
        .error (.internal .overflow) := by
      unfold prepare Instruction.read
      rw [known, standard]
      have resolved (base : Instruction) :
          Refinement.copyAt.resolve (machine.host invocation) frame base =
            .error (.internal .overflow) := by
        dsimp only [Refinement.resolve]
        rw [host, counted]
        exact if_neg far
      show (Refinement.copyAt.resolve (machine.host invocation) frame _ >>= fun _ => _) = _
      rw [resolved]
      rfl
    rw [prepared, known]

end Machine

/-! ## Runs

The provisos are asked at each stage from which a step is taken, so they are the guard of the
invariant; the claim itself is about the frame on top and all that wait, since a fault is handed on.
-/

namespace Execution

variable {machine : Machine} {invocation : Invocation}

/-- The provisos hold for the step that is taken from a stage, if one is. -/
def Provided (machine : Machine) (invocation : Invocation) (execution : Execution) : Prop :=
  execution.frame.isRunning = true → ¬execution.frame.PicksTooDeep machine.config.limits ∧
    machine.HasMemory invocation execution.frame

/-- No frame has faulted internally, neither the one on top nor those that wait. -/
structure Blameless (execution : Execution) : Prop where
  frame : execution.frame.Blameless
  callers : ∀ caller ∈ execution.callers, caller.frame.Blameless

/-- A tick of an execution without internal faults leaves none. -/
theorem Blameless.tick {execution : Execution} (standard : machine.table = {})
    (provided : execution.Provided machine invocation) (unfinished : execution.isFinished = false)
    (blameless : execution.Blameless) : (execution.tick machine invocation).Blameless := by
  have move := tickTo_tick machine invocation unfinished
  generalize execution.tick machine invocation = next at move ⊢
  cases move with
  | stays running after world step calm =>
    obtain ⟨near, memory⟩ := provided running
    have stepped := Machine.step_blameless standard near memory running execution.world
    rw [step] at stepped
    exact ⟨stepped, blameless.callers⟩
  | calls running after world launch step pending goesOn =>
    have waits : after.settled.Blameless := Frame.blameless_of_isRunning goesOn
    exact ⟨Frame.blameless_of_isRunning rfl, List.forall_mem_cons.2 ⟨waits, blameless.callers⟩⟩
  | returns ended caller rest callers =>
    have waiting := blameless.callers
    rw [callers] at waiting
    obtain ⟨first, others⟩ := List.forall_mem_cons.1 waiting
    exact ⟨first.resume blameless.frame caller.callPc, others⟩

end Execution

namespace Machine

theorem blameless_invariant {machine : Machine} (standard : machine.table = {})
    (invocation : Invocation) :
    GuardedInvariant machine invocation (Execution.Provided machine invocation)
      Execution.Blameless
      (fun progress => ∀ record, progress.fault = some record → record.fault.isInternal = false)
    where
  opening _ _ _ _ _ _ := ⟨Frame.blameless_of_isRunning rfl, List.forall_mem_nil _⟩
  tick _ provided unfinished blameless := blameless.tick standard provided unfinished
  closing _ _ _ blameless := blameless.frame

/-- A chain without internal faults. -/
structure NeverInternal (machine : Machine) (invocation : Invocation) (snapshot : Snapshot)
    (gas : Int) (scripts : List Script) : Prop where
  /-- Whatever is on its stacks, a frame has an instruction handled as it declares. -/
  handles : ∀ frame world instruction, machine.HasMemory invocation frame →
    machine.instructionAt? invocation frame = some instruction →
      machine.config.limits.check frame instruction = .ok () →
        machine.Handles invocation frame world instruction
  /-- No step ends in an internal fault. -/
  steps : ∀ stage ∈ machine.steps invocation snapshot gas scripts,
    (machine.step invocation stage.frame stage.world).1.Blameless
  /-- No frame, called or calling, has faulted internally at any time. -/
  stages : ∀ stage ∈ machine.stages invocation snapshot gas scripts, stage.Blameless
  /-- The receipt tells of no internal fault. -/
  receipt : ∀ record,
    (machine.executeChain invocation snapshot gas scripts).receipt.fault = some record →
      record.fault.isInternal = false

theorem neverInternal_executeChain (config : Config) (invocation : Invocation)
    (snapshot : Snapshot) (gas : Int) (scripts : List Script)
    (near : ∀ stage ∈ (standard config).steps invocation snapshot gas scripts,
      ¬stage.frame.PicksTooDeep config.limits)
    (memory : ∀ stage ∈ (standard config).steps invocation snapshot gas scripts,
      (standard config).HasMemory invocation stage.frame) :
    (standard config).NeverInternal invocation snapshot gas scripts := by
  have provided : ∀ stage ∈ (standard config).stages invocation snapshot gas scripts,
      stage.Provided (standard config) invocation := by
    intro stage member running
    have steps : stage ∈ (standard config).steps invocation snapshot gas scripts :=
      List.mem_filter.2 ⟨member, running⟩
    exact ⟨near stage steps, memory stage steps⟩
  have invariant := blameless_invariant (rfl : (standard config).table = {}) invocation
  obtain ⟨stages, final⟩ :=
    invariant.chain snapshot gas (fun _ none => nomatch none) scripts provided
  refine ⟨?handles, ?steps, stages, ?receipt⟩
  case handles =>
    intro frame world instruction memory found passed
    exact handles_of_found rfl memory found passed world
  case steps =>
    intro stage member
    have running := (List.mem_filter.1 member).2
    exact step_blameless rfl (near stage member) (memory stage member) running stage.world
  case receipt =>
    intro record faulted
    cases scripts with
    | nil => cases faulted
    | cons first rest =>
      rw [((standard config).executeChain_settle invocation snapshot gas first rest).1] at faulted
      unfold Progress.settle at faulted
      split at faulted
      · rename_i before ending
        cases faulted
        exact final record ending
      · obtain ⟨cause, _, rfl⟩ := Option.map_eq_some_iff.1 faulted
        rfl

/-- A contract that drops the item at a depth that is no number. -/
def brokenContract : Bytes := [Opcode.NEWMAP.code, Opcode.XDROP.code]

/-- A script that copies an item from the depth of the stack, makes a buffer and an array, takes the
array apart and calls the contract with the hash of zeros. -/
def busyPicker : Script :=
  { code := [Opcode.PUSH7.code, Opcode.PUSH8.code, Opcode.PUSH1.code, Opcode.PICK.code,
        Opcode.PUSH3.code, Opcode.NEWBUFFER.code, Opcode.PUSH2.code, Opcode.PACK.code,
        Opcode.UNPACK.code, Opcode.PUSHNULL.code]
      ++ (Opcode.PUSHDATA1.code :: 20 :: List.replicate 20 0)
      ++ Opcode.SYSCALL.code :: Bytes.ofNat 4 Service.contractCall.id }

/-- The count is refused for what it is, in the contract and through it in the script that called
it. -/
theorem neverInternal_busyPicker :
    let contracts := Std.ExtTreeMap.empty.insert Hash.zero brokenContract
    let snapshot : Snapshot := { contents := { contracts } }
    let steps := (standard {}).steps {} snapshot 100_000_000 [busyPicker]
    (((standard {}).executeChain {} snapshot 100_000_000 [busyPicker]).receipt.fault.map
        FaultRecord.fault =
      some (.contractFault 2 (.invalidConversion .map .integer) 1 (some .XDROP)) ∧
      steps.length = 14) ∧
      (∀ stage ∈ steps, ¬stage.frame.PicksTooDeep {}) ∧
      (∀ stage ∈ steps, (standard {}).HasMemory {} stage.frame) ∧
      (standard {}).NeverInternal {} snapshot 100_000_000 [busyPicker] := by
  intro contracts snapshot steps
  have near : ∀ stage ∈ steps, ¬stage.frame.PicksTooDeep {} := by decide +kernel
  have small : ∀ stage ∈ steps,
      Behaviour.elementWidth * stage.frame.stack.length ≤ signedMax := by decide +kernel
  have memory : ∀ stage ∈ steps, (standard {}).HasMemory {} stage.frame := fun stage member =>
    hasMemory_of_limits (by decide) (by decide) (small stage member)
  refine ⟨⟨by decide +kernel, by decide +kernel⟩, near, memory, ?_⟩
  exact neverInternal_executeChain {} {} snapshot 100_000_000 [busyPicker] near memory

end Machine

end GasMachine
