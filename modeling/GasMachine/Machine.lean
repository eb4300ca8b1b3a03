import GasMachine.Instruction.Run

/-!
# The machine

A step is a fixed sequence of checks: the end of the code, the instruction and its demand, the
items it takes, the size of the stacks, the depth, the sizes it makes, the gas, and then the
behaviour. The first check that fails decides the fault. Gas is paid once the demand is known,
also by an instruction that fails a later check. An instruction that faults leaves the frame as it
was but for the gas and the items it took, and the world as it was.
-/

set_option autoImplicit false

namespace GasMachine

open TwosComplement (wordMax)

/-- What is fixed while scripts run. -/
structure Machine where
  config : Config := {}
  table : InstructionTable := {}
  services : ServiceRegistry := {}

/-! ## Checks -/

/-- The size of the stacks if an instruction does what it declares. -/
def Frame.sizeAfter (frame : Frame) (demand : Demand) : Int :=
  frame.totalSize + demand.stackOut + demand.altOut + demand.growth
    - demand.stackIn - demand.altIn

def shownSize (size : Int) : Nat := saturate size.toNat

/-- Check what can be checked before anything is taken from the stacks. -/
def Limits.check (limits : Limits) (frame : Frame) (instruction : Instruction) :
    Except Fault Unit :=
  let demand := instruction.demand
  let opcode := instruction.opcode
  let size := frame.sizeAfter demand
  let depth := frame.depth + demand.invocation
  if frame.stack.length < demand.stackIn then
    .error (.stackUnderflow opcode demand.stackIn frame.stack.length)
  else if frame.alt.length < demand.altIn then
    .error (.altStackUnderflow opcode demand.altIn frame.alt.length)
  else if limits.stackSize < size then
    .error (.stackOverflow (shownSize size) limits.stackSize)
  else if limits.invocationDepth < depth then
    .error (.invocationStackOverflow (shownSize depth) limits.invocationDepth)
  else if limits.arraySize < demand.arraySize then
    .error (.arrayOverflow demand.arraySize limits.arraySize)
  else if limits.itemSize < demand.itemSize then
    .error (.itemOverflow demand.itemSize limits.itemSize)
  else .ok ()

namespace Machine

def host (machine : Machine) (invocation : Invocation) : Host :=
  { limits := machine.config.limits, services := machine.services, invocation }

def prepare (machine : Machine) (invocation : Invocation) (frame : Frame) (byte : UInt8)
    (following : Bytes) : Except Fault Instruction := do
  let instruction ← Instruction.read machine.table byte following
  instruction.resolve (machine.host invocation) frame

/-! ## Acting -/

/-- Take the arguments, run the behaviour, put the results and move on. The results have to be as
many as declared, and the stacks no larger than allowed. -/
def execute (machine : Machine) (invocation : Invocation) (instruction : Instruction)
    (frame : Frame) (world : World) : Frame × World :=
  let demand := instruction.demand
  let opcode := instruction.opcode
  let arguments : Arguments :=
    ⟨frame.stack.take demand.stackIn, frame.alt.take demand.altIn⟩
  let popped := frame.pop demand.stackIn demand.altIn
  let host := machine.host invocation
  match instruction.behaviour.run host instruction popped world arguments with
  | .error fault => (popped.fail opcode fault, world)
  | .ok results =>
    if results.stack.length = demand.stackOut ∧ results.alt.length = demand.altOut then
      let after := (popped.perform instruction.size results.effect).push results.stack results.alt
      let limit := machine.config.limits.stackSize
      if limit < after.totalSize then
        (after.failAt frame.pc opcode (.stackOverflow after.totalSize limit), results.world)
      else (after, results.world)
    else
      let defect := Defect.resultCount opcode results.stack.length results.alt.length
        demand.stackOut demand.altOut
      (popped.fail opcode (.internal defect), world)

def perform (machine : Machine) (invocation : Invocation) (instruction : Instruction)
    (frame : Frame) (world : World) : Frame × World :=
  let paid := frame.pay instruction.fee
  match machine.config.limits.check frame instruction with
  | .error fault => (paid.fail instruction.opcode fault, world)
  | .ok () =>
    if frame.gas < instruction.fee then
      (paid.fail instruction.opcode (.outOfGas instruction.fee frame.gas), world)
    else machine.execute invocation instruction paid world

/-- Advance a frame by one instruction. A frame at the end of its code halts, and one that has
ended stays as it is. A contract called by the instruction is left pending. -/
def step (machine : Machine) (invocation : Invocation) (frame : Frame) (world : World) :
    Frame × World :=
  if frame.isRunning then
    match frame.code.drop frame.pc with
    | [] => (frame.halt, world)
    | byte :: following =>
      match machine.prepare invocation frame byte following with
      | .error fault => (frame.fail (Opcode.ofByte? byte) fault, world)
      | .ok instruction => machine.perform invocation instruction frame world
  else (frame, world)

end Machine

end GasMachine
