import GasMachine.Execution
import GasMachine.Machine.Charge

/-!
# Executions end

Every tick lowers the weight of an execution. A tick in which the frame runs on takes 30 or more
from the gas, which pays for the caller that it may leave behind; any other tick ends the frame or
returns to a caller. So the ticks that a run is given are enough: a run ends with nothing left to
do.
-/

set_option autoImplicit false

namespace GasMachine.Execution

/-! ## One tick -/

/-- Returning to a caller lowers the weight: the caller no longer waits. -/
theorem weight_returnToCaller_lt {execution : Execution} (ended : execution.frame.isRunning = false)
    (waiting : execution.callers ≠ []) : execution.returnToCaller.weight < execution.weight := by
  unfold returnToCaller
  split
  · contradiction
  · rename_i caller rest callers
    have gas : (caller.frame.resume execution.frame caller.callPc).gas = execution.frame.gas := by
      unfold Frame.resume
      dsimp only
      split <;> rfl
    have pending : (caller.frame.resume execution.frame caller.callPc).pending = none := by
      unfold Frame.resume
      dsimp only
      split <;> rfl
    simp only [weight, pendingGas, gas, pending, callers, ended]
    generalize (caller.frame.resume execution.frame caller.callPc).isRunning = running
    cases running <;> simp <;> omega

/-- Advancing a running frame and taking up what it left pending lowers the weight. -/
theorem weight_advance_lt {execution : Execution} (machine : Machine) (invocation : Invocation)
    (callPc : Nat) (running : execution.frame.isRunning = true) :
    ((execution.advance machine invocation).takePending callPc).weight < execution.weight := by
  have less := machine.step_gas_le invocation execution.frame execution.world
  have goesOn := machine.step_goesOn invocation execution.frame execution.world
  simp only [advance]
  generalize (machine.step invocation execution.frame execution.world).1 = after at less goesOn ⊢
  unfold takePending
  dsimp only
  split
  · rename_i none
    cases alive : after.isRunning with
    | false =>
      simp only [weight, pendingGas, none, running, alive]
      simp
      omega
    | true =>
      have paid := (goesOn alive).paid
      have nonneg := (goesOn alive).nonneg
      simp only [weight, pendingGas, none, running, alive]
      simp
      omega
  · rename_i launch pending
    split
    · rename_i alive
      have alive : after.isRunning = true := alive
      have paid := (goesOn alive).paid
      have nonneg := (goesOn alive).nonneg
      have started : launch.start.isRunning = true := rfl
      have fresh : launch.start.pending = none := rfl
      have given : launch.start.gas = launch.gas := rfl
      rcases (goesOn alive).pending with same | ⟨other, new, gas⟩
      · rw [pending] at same
        simp only [weight, pendingGas, started, fresh, given, running, ← same]
        simp
        omega
      · rw [pending, Option.some.injEq] at new
        subst new
        simp only [weight, pendingGas, started, fresh, given, running, gas]
        simp
        omega
    · rename_i ended
      have ended : ({ after with pending := none } : Frame).isRunning = false :=
        Bool.eq_false_iff.2 ended
      simp only [weight, pendingGas, running, ended]
      simp
      omega

theorem weight_tick_lt {execution : Execution} (machine : Machine) (invocation : Invocation)
    (unfinished : execution.isFinished = false) :
    (execution.tick machine invocation).weight < execution.weight := by
  unfold tick
  split
  · rename_i running
    exact weight_advance_lt machine invocation _ running
  · rename_i ended
    have ended : execution.frame.isRunning = false := by simpa using ended
    refine weight_returnToCaller_lt ended ?_
    intro callers
    simp [isFinished, ended, callers] at unfinished

/-! ## Runs -/

theorem isFinished_runFor {machine : Machine} {invocation : Invocation} {ticks : Nat}
    {execution : Execution} (enough : execution.weight ≤ ticks) :
    (runFor machine invocation ticks execution).isFinished = true := by
  induction ticks generalizing execution with
  | zero =>
    rw [runFor]
    cases finished : execution.isFinished with
    | true => rfl
    | false =>
      have := weight_tick_lt machine invocation finished
      omega
  | succ ticks ih =>
    rw [runFor]
    split
    · assumption
    · rename_i unfinished
      have := weight_tick_lt machine invocation (by simpa using unfinished)
      exact ih (by omega)

theorem isFinished_run (execution : Execution) (machine : Machine) (invocation : Invocation) :
    (execution.run machine invocation).isFinished = true :=
  isFinished_runFor (Nat.le_refl _)

end GasMachine.Execution
