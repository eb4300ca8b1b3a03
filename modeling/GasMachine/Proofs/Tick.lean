import GasMachine.Execution
import GasMachine.Proofs.Step

/-!
# The ways an execution can move

A tick of an execution that is not finished is a step after which the same frame is still on top, a
step after which a contract starts, or a return to the caller that waits. Whatever it is, no
contract is left pending on the frame that comes out on top.
-/

set_option autoImplicit false

namespace GasMachine

namespace Frame

/-- The frame without a contract that has not started. -/
def settled (frame : Frame) : Frame := { frame with pending := none }

@[simp] theorem gas_settled (frame : Frame) : frame.settled.gas = frame.gas := rfl

@[simp] theorem isRunning_settled (frame : Frame) :
    frame.settled.isRunning = frame.isRunning := rfl

theorem settled_of_pending_eq_none {frame : Frame} (calm : frame.pending = none) :
    frame.settled = frame := by
  unfold settled
  rw [← calm]

theorem fault?_eq_none_of_isRunning {frame : Frame} (running : frame.isRunning = true) :
    frame.fault? = none := by
  unfold isRunning at running
  unfold fault?
  rw [of_decide_eq_true running]

theorem isRunning_eq_false_of_fault? {frame : Frame} {record : FaultRecord}
    (faulted : frame.fault? = some record) : frame.isRunning = false := by
  cases running : frame.isRunning with
  | false => rfl
  | true => cases (fault?_eq_none_of_isRunning running).symm.trans faulted

theorem fault?_completed {frame : Frame} (running : frame.isRunning = true)
    (instruction : Instruction) (results : Results) :
    (frame.completed instruction results).fault? = none :=
  fault?_eq_none_of_isRunning ((frame.isRunning_completed instruction results).trans running)

end Frame

namespace Execution

/-- The ways an unfinished execution can move. -/
inductive TickTo (machine : Machine) (invocation : Invocation) (execution : Execution) :
    Execution → Prop where
  /-- The frame takes a step and stays on top. -/
  | stays (running : execution.frame.isRunning = true) (after : Frame) (world : World)
    (step : machine.step invocation execution.frame execution.world = (after, world))
    (calm : after.pending = none ∨ after.isRunning = false) :
    TickTo machine invocation execution
      { execution with frame := after.settled, world, steps := execution.steps + 1 }
  /-- The frame takes a step and waits for a contract. -/
  | calls (running : execution.frame.isRunning = true) (after : Frame) (world : World)
    (launch : Launch)
    (step : machine.step invocation execution.frame execution.world = (after, world))
    (pending : after.pending = some launch) (goesOn : after.isRunning = true) :
    TickTo machine invocation execution
      { frame := launch.start
        callers := ⟨after.settled, execution.frame.pc⟩ :: execution.callers
        world
        steps := execution.steps + 1
        scripts := execution.scripts + 1 }
  /-- The frame has ended and gives its result to its caller. -/
  | returns (ended : execution.frame.isRunning = false) (caller : Suspended)
    (rest : List Suspended) (callers : execution.callers = caller :: rest) :
    TickTo machine invocation execution
      { execution with
        frame := caller.frame.resume execution.frame caller.callPc
        callers := rest }

theorem tickTo_tick {execution : Execution} (machine : Machine) (invocation : Invocation)
    (unfinished : execution.isFinished = false) :
    TickTo machine invocation execution (execution.tick machine invocation) := by
  unfold tick
  split
  · rename_i running
    cases step : machine.step invocation execution.frame execution.world with
    | mk after world =>
      unfold takePending advance
      rw [step]
      dsimp only
      split
      · rename_i calm
        have stays := TickTo.stays running after world step (Or.inl calm)
        rw [Frame.settled_of_pending_eq_none calm] at stays
        exact stays
      · rename_i launch pending
        split
        · rename_i goesOn
          exact .calls running after world launch step pending goesOn
        · rename_i ended
          exact .stays running after world step (Or.inr (Bool.eq_false_iff.2 ended))
  · rename_i ended
    unfold returnToCaller
    split
    · rename_i callers
      simp [isFinished, ended, callers] at unfinished
    · rename_i caller rest callers
      exact .returns (Bool.eq_false_iff.2 ended) caller rest callers

/-! ## Ticks as equations

Each way once more as an equation, for a run that is followed forwards. -/

/-- A step after which the frame stays on top. -/
theorem tick_of_calm {execution : Execution} {machine : Machine} {invocation : Invocation}
    {after : Frame} {world : World} (running : execution.frame.isRunning = true)
    (step : machine.step invocation execution.frame execution.world = (after, world))
    (calm : after.pending = none ∨ after.isRunning = false) :
    execution.tick machine invocation =
      { execution with frame := after.settled, world, steps := execution.steps + 1 } := by
  unfold tick advance takePending
  rw [if_pos running, step]
  dsimp only
  split
  · rename_i none
    rw [Frame.settled_of_pending_eq_none none]
  · rename_i launch pending
    have ended : after.isRunning = false := by
      rcases calm with none | ended
      · cases none.symm.trans pending
      · exact ended
    exact if_neg (Bool.not_eq_true _ ▸ ended)

/-- A step after which a contract starts. -/
theorem tick_of_pending {execution : Execution} {machine : Machine} {invocation : Invocation}
    {after : Frame} {world : World} {launch : Launch}
    (running : execution.frame.isRunning = true)
    (step : machine.step invocation execution.frame execution.world = (after, world))
    (pending : after.pending = some launch) (goesOn : after.isRunning = true) :
    execution.tick machine invocation =
      { frame := launch.start
        callers := ⟨after.settled, execution.frame.pc⟩ :: execution.callers
        world
        steps := execution.steps + 1
        scripts := execution.scripts + 1 } := by
  unfold tick advance takePending
  rw [if_pos running, step]
  dsimp only
  rw [pending]
  exact if_pos goesOn

/-- A return. -/
theorem tick_of_ended {frame : Frame} (machine : Machine) (invocation : Invocation)
    (ended : frame.isRunning = false) (caller : Suspended) (rest : List Suspended) (world : World)
    (steps scripts : Nat) :
    tick ⟨frame, caller :: rest, world, steps, scripts⟩ machine invocation =
      ⟨caller.frame.resume frame caller.callPc, rest, world, steps, scripts⟩ := by
  unfold tick returnToCaller
  rw [ended]
  rfl

/-! ## What ticks leave

Whatever a tick does, the frame that comes out on top has nothing pending. Most proofs about runs
carry this along: what a frame has given to a contract that has not started would count twice. -/

/-- Only a step can change the world. -/
theorem world_tick {execution : Execution} (machine : Machine) (invocation : Invocation)
    (unfinished : execution.isFinished = false) :
    (execution.tick machine invocation).world = execution.world ∨
      (execution.tick machine invocation).world =
        (machine.step invocation execution.frame execution.world).2 := by
  have move := tickTo_tick machine invocation unfinished
  generalize execution.tick machine invocation = next at move ⊢
  cases move with
  | stays running after world step calm => exact Or.inr (by rw [step])
  | calls running after world launch step pending goesOn => exact Or.inr (by rw [step])
  | returns ended caller rest callers => exact Or.inl rfl

@[simp] theorem pending_resume (caller callee : Frame) (callPc : Nat) :
    (caller.resume callee callPc).pending = none := by
  unfold Frame.resume
  dsimp only
  split <;> rfl

@[simp] theorem gas_start (launch : Launch) : launch.start.gas = launch.gas := rfl

/-- The caller goes on with the gas that the contract has left. -/
@[simp] theorem gas_resume (caller callee : Frame) (callPc : Nat) :
    (caller.resume callee callPc).gas = callee.gas := by
  unfold Frame.resume
  dsimp only
  split <;> rfl

/-- After a tick nothing is pending on the frame on top. -/
theorem pending_tick {execution : Execution} (machine : Machine) (invocation : Invocation)
    (unfinished : execution.isFinished = false) :
    (execution.tick machine invocation).frame.pending = none := by
  have move := tickTo_tick machine invocation unfinished
  generalize execution.tick machine invocation = next at move ⊢
  cases move with
  | stays running after world step calm => rfl
  | calls running after world launch step pending goesOn => rfl
  | returns ended caller rest callers => exact pending_resume _ _ _

end Execution

end GasMachine
