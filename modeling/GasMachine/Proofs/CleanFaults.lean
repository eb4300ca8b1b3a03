import GasMachine.Proofs.Routines
import GasMachine.Proofs.SizeCheck
import GasMachine.Proofs.StackCeiling

/-!
# What a fault leaves

A step that faults has changed nothing but the gas and, if its instruction came to act, the
arguments that it had taken by then (`Machine.FaultsCleanly`). So there is nothing to be undone
afterwards, not even for a machine that works on the frame and the world directly.

Two things could go wrong at the end of an instruction, when all of its work has been done: its
results could be too many for the stacks, or not as many as declared. With the standard table the
first does not happen, because the check before an instruction foresees the size of what it leaves.
It does so even where a growth is too much for a word, because then the size is beyond every ceiling
(`Acts.fits`). The second is of no harm, because what counts its arguments does nothing but give
results (`delivers_of_found`).
-/

set_option autoImplicit false

namespace GasMachine

open TwosComplement (signedMax wordMax)

/-! ## Where a fault comes from

`Breaks` tells apart how far an instruction had come, because this decides what is missing from the
stacks: before it acts nothing is, and when it acts its arguments are. -/

/-- What makes a step fault, with the number of items that have been taken off both stacks by then.
-/
inductive Machine.Breaks (machine : Machine) (invocation : Invocation) (frame : Frame)
    (world : World) : Fault → Nat → Nat → Prop where
  /-- No instruction can be read, or its demand cannot be resolved. -/
  | reading (byte : UInt8) (following : Bytes) (fault : Fault)
    (here : frame.code.drop frame.pc = byte :: following)
    (refused : machine.prepare invocation frame byte following = .error fault) :
    Breaks machine invocation frame world fault 0 0
  /-- There is too little on the stacks, or a limit is in the way. -/
  | limit (instruction : Instruction) (fault : Fault)
    (found : machine.instructionAt? invocation frame = some instruction)
    (refused : machine.config.limits.check frame instruction = .error fault) :
    Breaks machine invocation frame world fault 0 0
  /-- There is too little gas. -/
  | gas (instruction : Instruction)
    (found : machine.instructionAt? invocation frame = some instruction)
    (passed : machine.config.limits.check frame instruction = .ok ())
    (poor : frame.gas < instruction.fee) :
    Breaks machine invocation frame world (.outOfGas instruction.fee frame.gas) 0 0
  /-- The instruction acts and does not get through. -/
  | acting (instruction : Instruction) (fault : Fault)
    (found : machine.instructionAt? invocation frame = some instruction)
    (passed : machine.config.limits.check frame instruction = .ok ())
    (affordable : (instruction.fee : Int) ≤ frame.gas)
    (cause : machine.FailsWith invocation frame world instruction fault) :
    Breaks machine invocation frame world fault instruction.demand.stackIn
      instruction.demand.altIn

/-- What a step leaves that has taken a frame and a world and ends in a fault. -/
structure Machine.FaultsCleanly (machine : Machine) (invocation : Invocation) (frame : Frame)
    (world : World) (record : FaultRecord) (after : Frame) (next : World) : Prop where
  /-- The stacks are those before without the arguments, if the instruction came to take them. -/
  taken : ∃ stackIn altIn, machine.Breaks invocation frame world record.fault stackIn altIn ∧
    stackIn ≤ frame.stack.length ∧ altIn ≤ frame.alt.length ∧
      after.stack = frame.stack.drop stackIn ∧ after.alt = frame.alt.drop altIn
  pc : after.pc = frame.pc
  depth : after.depth = frame.depth
  returnStack : after.returnStack = frame.returnStack
  created : after.created = frame.created
  notifications : after.notifications = frame.notifications
  logs : after.logs = frame.logs
  pending : after.pending = none
  unchanged : next = world
  /-- The rest of the frame is as it was, too. -/
  rest : after = { frame with
    stack := after.stack
    alt := after.alt
    nested := after.nested
    gas := after.gas
    status := .faulted record }
  /-- Working on the frame and the world directly comes to the same. -/
  inPlace : machine.stepInPlace invocation ⟨frame, none, world⟩ = ⟨after, none, next⟩

/-! ## Steps

The machine that works in place agrees with the one that computes results (`stepInPlace_eq`), so it
leaves the same things behind. For this every return address has to lie inside the code, which a
chain keeps (`ReturnsInside`), and the counter of nested items has to be right, or the size before
an instruction would say nothing about the size after it. -/

namespace Machine

variable {machine : Machine} {invocation : Invocation} {frame : Frame} {world : World}

/-- With the standard table the check before an instruction has foreseen the size of what it leaves.
-/
theorem Acts.fits (standard : machine.table = {}) {instruction : Instruction} {results : Results}
    (acts : machine.Acts invocation frame world instruction results) (counted : frame.Counted)
    (word : machine.config.limits.stackSize ≤ wordMax)
    (below : frame.totalSize ≤ machine.config.limits.stackSize) :
    (frame.completed instruction results).totalSize ≤ machine.config.limits.stackSize := by
  obtain ⟨found, admitted, _, ran, stackOut, altOut⟩ := acts
  have room := admitted.size
  have given := counted.arguments_le instruction
  have size := counted.totalSize_completed instruction results
  have taken := Frame.count_argumentsOf admitted.stackIn admitted.altIn
  have made : results.count = instruction.demand.stackOut + instruction.demand.altOut :=
    congrArg₂ (· + ·) stackOut altOut
  unfold Frame.sizeAfter at room
  obtain ⟨needed, ⟨nested, tight⟩, rfl | beyond⟩ :=
    grows_or_beyond_of_run standard found admitted.stackIn admitted.altIn ran stackOut altOut
  · omega
  -- Where less is left than was needed, that is no more than what was there before.
  rcases tight with all | fewer
  · cases beyond with
    | copy full more inside =>
      -- The copy is as large as what it is a copy of, and both are more than half of all words.
      have some_ : 0 < results.count := results.count_pos_of_nested (by omega)
      unfold signedMax at full more
      unfold wordMax at word
      omega
    | pack packs more few =>
      have one : results.count = 1 := by
        rw [packs] at ran
        exact Behaviour.count_of_pack _ _ _ results ran
      omega
    | unpack less inside => omega
  · omega

/-- An instruction of the standard table gives as many results as it declares, or it counts its
arguments and gives nothing but results. -/
theorem delivers_of_found (standard : machine.table = {}) {instruction : Instruction}
    (found : machine.instructionAt? invocation frame = some instruction)
    (enough : instruction.demand.stackIn ≤ frame.stack.length) :
    machine.Delivers invocation frame world instruction := by
  intro results ran
  by_cases computes : instruction.behaviour.computes = true
  · exact .inl (counts_of_run standard found enough (few_of_computes standard found computes) ran)
  by_cases straight : instruction.behaviour.isStraight = true
  · exact .inr (Behaviour.run_straight _ _ _ _ _ straight results ran)
  cases behaviour : instruction.behaviour
  all_goals rw [behaviour] at computes straight ran
  case pushPointer =>
    obtain ⟨effect, same⟩ := Behaviour.run_pushPointer _ _ _ _ _ results ran
    exact .inr ⟨effect, same⟩
  case systemCall =>
    have opcode := opcode_of_systemCall standard found behaviour
    obtain ⟨service, named, demand⟩ := demand_of_SYSCALL standard found opcode
    have given : (frame.argumentsOf instruction).stack.length = service.arity := by
      rw [demand] at enough
      rw [Frame.argumentsOf, demand]
      exact List.length_take_of_le enough
    rw [demand]
    have sound := Behaviour.run_systemCall_sound named (frame.charged instruction) world
      fun _ : True => given
    exact .inl (sound.ensures results ran)
  all_goals first
    | exact absurd rfl computes
    | exact absurd rfl straight

/-- A frame that has paid, or has handed over its arguments as well, and fails then. -/
theorem Breaks.faultsCleanly {fault : Fault} {stackIn altIn : Nat}
    (breaks : machine.Breaks invocation frame world fault stackIn altIn)
    (enough : stackIn ≤ frame.stack.length) (altEnough : altIn ≤ frame.alt.length)
    (calm : frame.pending = none) {left : Frame}
    (rest : left = { frame with
      stack := frame.stack.drop stackIn
      alt := frame.alt.drop altIn
      nested := left.nested
      gas := left.gas }) {opcode : Option Opcode} {record : FaultRecord}
    (faulted : (left.fail opcode fault).fault? = some record)
    (inPlace : machine.stepInPlace invocation ⟨frame, none, world⟩ =
      ⟨left.fail opcode fault, none, world⟩) :
    machine.FaultsCleanly invocation frame world record (left.fail opcode fault) world := by
  cases faulted
  constructor
  case taken =>
    refine ⟨stackIn, altIn, breaks, enough, altEnough, ?_, ?_⟩
    · exact congrArg (fun other => other.stack) rest
    · exact congrArg (fun other => other.alt) rest
  case pending => exact (congrArg Frame.pending rest : left.pending = _).trans calm
  case pc => exact (congrArg Frame.pc rest : left.pc = _)
  case depth => exact (congrArg Frame.depth rest : left.depth = _)
  case returnStack => exact (congrArg Frame.returnStack rest : left.returnStack = _)
  case created => exact congrArg (fun other => other.created) rest
  case notifications => exact congrArg (fun other => other.notifications) rest
  case logs => exact congrArg (fun other => other.logs) rest
  case unchanged => rfl
  case rest =>
    rw [rest]
    rfl
  case inPlace => exact inPlace

/-- A step that faults has kept all but the gas and the arguments. -/
theorem faultsCleanly_of_step (standard : machine.table = {}) (calm : frame.pending = none)
    (returns : frame.ReturnsInside) (counted : frame.Counted)
    (word : machine.config.limits.stackSize ≤ wordMax)
    (below : frame.totalSize ≤ machine.config.limits.stackSize)
    (running : frame.isRunning = true) {after : Frame} {next : World} {record : FaultRecord}
    (step : machine.step invocation frame world = (after, next))
    (faulted : after.fault? = some record) :
    machine.FaultsCleanly invocation frame world record after next := by
  have inPlace : machine.stepInPlace invocation ⟨frame, none, world⟩ = ⟨after, none, next⟩ := by
    rw [stepInPlace_eq returns, step]
    intro instruction found admitted
    exact delivers_of_found standard found admitted.stackIn
  have none := Nat.zero_le frame.stack.length
  have noAlt := Nat.zero_le frame.alt.length
  have went := machine.stepTo_step invocation world frame
  rw [step] at went
  cases went with
  | rests ended => cases ended.symm.trans running
  | ended _ here => cases faulted
  | unreadable byte following fault here refused =>
    have breaks : machine.Breaks invocation frame world fault 0 0 :=
      .reading byte following fault here refused
    exact breaks.faultsCleanly none noAlt calm rfl faulted inPlace
  | refused instruction fault found cause =>
    rcases cause with refused | ⟨passed, poor, rfl⟩
    · have breaks : machine.Breaks invocation frame world fault 0 0 :=
        .limit instruction fault found refused
      exact breaks.faultsCleanly none noAlt calm rfl faulted inPlace
    · have breaks : machine.Breaks invocation frame world _ 0 0 :=
        .gas instruction found passed poor
      exact breaks.faultsCleanly none noAlt calm rfl faulted inPlace
  | failed instruction fault found affordable admitted cause =>
    have passed := Limits.check_of_admits admitted
    have breaks := Breaks.acting instruction fault found passed affordable cause
    exact breaks.faultsCleanly admitted.stackIn admitted.altIn calm rfl faulted inPlace
  | overflowed instruction results acts fault cause large =>
    -- Here all of the work would have been done already.
    exact absurd (acts.fits standard counted word below) (Nat.not_le.2 large)
  | acted instruction results acts fits =>
    cases (Frame.fault?_completed running instruction results).symm.trans faulted

/-- At every stage of a chain of the standard machine, whatever world it goes on in: a step that
faults has changed nothing but the gas and the arguments. -/
theorem faultsCleanly_of_mem_stages (config : Config) (invocation : Invocation)
    (snapshot : Snapshot) (gas : Int) (scripts : List Script) (stage : Execution)
    (member : stage ∈ (standard config).stages invocation snapshot gas scripts)
    (word : config.limits.stackSize ≤ wordMax) (running : stage.frame.isRunning = true)
    (other : Invocation) (world : World) {after : Frame} {next : World} {record : FaultRecord}
    (step : (standard config).step other stage.frame world = (after, next))
    (faulted : after.fault? = some record) :
    (standard config).FaultsCleanly other stage.frame world record after next := by
  have between : Between config.limits.stackSize ((standard config).opening snapshot gas) :=
    ⟨rfl, rfl, fun _ => Nat.zero_le _⟩
  obtain ⟨calm, sized⟩ := (sized_invariant rfl).chain snapshot gas between scripts stage member
  rw [stages_eq_flatMap] at member
  obtain ⟨opening, opens, here⟩ := List.mem_flatMap.1 member
  obtain ⟨launch, start, rfl⟩ := start_of_mem_openings opens
  obtain ⟨before, later, split⟩ := List.append_of_mem here
  have charted := Execution.Charted.of_split (rfl : (standard config).table = {}) split
  have below := sized.fits (Frame.fault?_eq_none_of_isRunning running)
  exact faultsCleanly_of_step rfl calm charted.orderly.top.returns sized.counted word below running
    step faulted

/-- A routine that jumps out of the code. -/
def missedJump : Script :=
  { code := [Opcode.CALL.code, 3, Opcode.RET.code, Opcode.PUSH7.code, Opcode.PUSH1.code,
      Opcode.JMPIF.code, 100] }

/-- The jump has taken its condition. The item below is still there, and the routine is still open.
-/
theorem faultsCleanly_missedJump :
    ∃ stage ∈ (standard {}).stages {} {} 100_000 [missedJump], ∃ after next record,
      (stage.frame.isRunning = true ∧ (standard {}).step {} stage.frame {} = (after, next) ∧
        after.fault? = some record) ∧
      (stage.frame.way = ⟨5, 2, [2]⟩ ∧ stage.frame.stack.length = 2 ∧
        record.fault = .invalidJump 105 ∧ after.way = ⟨5, 2, [2]⟩ ∧ after.stack.length = 1) ∧
      (standard {}).FaultsCleanly {} stage.frame {} record after next := by
  have reached : ((standard {}).stages {} {} 100_000 [missedJump]).any fun stage =>
      stage.frame.isRunning = true ∧
        stage.frame.way = ⟨5, 2, [2]⟩ ∧ stage.frame.stack.length = 2 ∧
        ((standard {}).step {} stage.frame {}).1.fault? =
          some ⟨.invalidJump 105, 5, some .JMPIF⟩ ∧
        ((standard {}).step {} stage.frame {}).1.way = ⟨5, 2, [2]⟩ ∧
        ((standard {}).step {} stage.frame {}).1.stack.length = 1 := by
    decide +kernel
  obtain ⟨stage, member, facts⟩ := List.any_eq_true.1 reached
  obtain ⟨running, way, two, faulted, kept, one⟩ := of_decide_eq_true facts
  exact ⟨stage, member, _, _, _, ⟨running, rfl, faulted⟩, ⟨way, two, rfl, kept, one⟩,
    faultsCleanly_of_mem_stages {} {} {} 100_000 [missedJump] stage member (by decide) running {} {}
      rfl faulted⟩

end Machine

end GasMachine
