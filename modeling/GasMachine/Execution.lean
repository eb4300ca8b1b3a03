import GasMachine.Machine

/-!
# Executions

A script may call contracts, and these may call others. An execution is the frame that is running
together with the callers that wait for it. One tick is a step of that frame; if the step left a
contract pending and the frame still runs, the frame becomes a caller and the contract starts. When
a frame has ended, a tick gives its result to the caller that waits for it.

An execution always ends, because every instruction costs gas and all frames pay from one purse.
The number of ticks is bounded by a weight that is read off the execution at its start.
-/

set_option autoImplicit false

namespace GasMachine

/-- A caller that waits for a contract. -/
structure Suspended where
  frame : Frame
  callPc : Nat

/-- A running frame with the callers that wait for it, innermost first. -/
structure Execution where
  frame : Frame
  callers : List Suspended := []
  world : World := {}
  steps : Nat := 0
  scripts : Nat := 1

namespace Execution

def isFinished (execution : Execution) : Bool :=
  !execution.frame.isRunning && execution.callers.isEmpty

/-- Start a contract, if one is pending and its caller still runs. -/
def takePending (execution : Execution) (callPc : Nat) : Execution :=
  match execution.frame.pending with
  | none => execution
  | some launch =>
    let caller := { execution.frame with pending := none }
    if caller.isRunning then
      { execution with
        frame := launch.start
        callers := ⟨caller, callPc⟩ :: execution.callers
        scripts := execution.scripts + 1 }
    else { execution with frame := caller }

def advance (execution : Execution) (machine : Machine) (invocation : Invocation) : Execution :=
  let (frame, world) := machine.step invocation execution.frame execution.world
  { execution with frame, world, steps := execution.steps + 1 }

def returnToCaller (execution : Execution) : Execution :=
  match execution.callers with
  | [] => execution
  | caller :: rest =>
    { execution with
      frame := caller.frame.resume execution.frame caller.callPc
      callers := rest }

/-- The smallest move of an execution. -/
def tick (execution : Execution) (machine : Machine) (invocation : Invocation) : Execution :=
  if execution.frame.isRunning then
    (execution.advance machine invocation).takePending execution.frame.pc
  else execution.returnToCaller

/-! ## Running to the end -/

/-- The gas that a pending contract brings with it. -/
def pendingGas (frame : Frame) : Int :=
  match frame.pending with
  | some launch => launch.gas
  | none => 0

/-- A bound on the ticks that are left. Gas counts threefold, so that an instruction that starts a
contract still lowers the weight. -/
def weight (execution : Execution) : Nat :=
  3 * (max execution.frame.gas (pendingGas execution.frame)).toNat
    + 3 * (if execution.frame.pending.isSome then 1 else 0)
    + 2 * execution.callers.length
    + (if execution.frame.isRunning then 1 else 0)

/-- A number of ticks, or fewer if nothing is left to do. -/
def runFor (machine : Machine) (invocation : Invocation) : Nat → Execution → Execution
  | 0, execution => execution
  | ticks + 1, execution =>
    if execution.isFinished then execution
    else runFor machine invocation ticks (execution.tick machine invocation)

def run (execution : Execution) (machine : Machine) (invocation : Invocation) : Execution :=
  runFor machine invocation execution.weight execution

end Execution

end GasMachine
