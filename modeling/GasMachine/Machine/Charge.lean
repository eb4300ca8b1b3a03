import GasMachine.Machine

/-!
# What a step costs

Only paying changes the gas of a frame, and a frame that still runs after a step has paid for an
instruction: 30 or more, which it had. A contract left pending by the step gets exactly the gas
that is left.
-/

set_option autoImplicit false

namespace GasMachine

namespace Frame

/-! ## Gas -/

@[simp] theorem gas_halt (frame : Frame) : frame.halt.gas = frame.gas := rfl

@[simp] theorem gas_failAt (frame : Frame) (pc : Nat) (opcode : Option Opcode) (fault : Fault) :
    (frame.failAt pc opcode fault).gas = frame.gas := rfl

@[simp] theorem gas_fail (frame : Frame) (opcode : Option Opcode) (fault : Fault) :
    (frame.fail opcode fault).gas = frame.gas := rfl

@[simp] theorem gas_pop (frame : Frame) (stackIn altIn : Nat) :
    (frame.pop stackIn altIn).gas = frame.gas := rfl

@[simp] theorem gas_push (frame : Frame) (stack alt : List Item) :
    (frame.push stack alt).gas = frame.gas := rfl

@[simp] theorem gas_perform (frame : Frame) (size : Nat) (effect : Effect) :
    (frame.perform size effect).gas = frame.gas := by
  cases effect <;> rfl

theorem gas_pay_le (frame : Frame) (fee : Nat) : (frame.pay fee).gas ≤ frame.gas := by
  simp only [pay]
  omega

theorem gas_pay_of_le {frame : Frame} {fee : Nat} (h : (fee : Int) ≤ frame.gas) :
    (frame.pay fee).gas = frame.gas - fee := by
  simp only [pay]
  omega

/-! ## Ending -/

@[simp] theorem isRunning_halt (frame : Frame) : frame.halt.isRunning = false := rfl

@[simp] theorem isRunning_failAt (frame : Frame) (pc : Nat) (opcode : Option Opcode)
    (fault : Fault) : (frame.failAt pc opcode fault).isRunning = false := rfl

@[simp] theorem isRunning_fail (frame : Frame) (opcode : Option Opcode) (fault : Fault) :
    (frame.fail opcode fault).isRunning = false := rfl

/-! ## Pending contracts -/

/-- A pending contract is the one that was pending before, or a new one with the frame's gas. -/
def PendingFrom (before after : Frame) : Prop :=
  after.pending = before.pending ∨ ∃ launch, after.pending = some launch ∧ launch.gas = after.gas

theorem pendingFrom_perform (frame : Frame) (size : Nat) (effect : Effect) (stack alt : List Item) :
    PendingFrom frame ((frame.perform size effect).push stack alt) := by
  cases effect with
  | call code arguments => exact Or.inr ⟨frame.launch code arguments, rfl, rfl⟩
  | _ => exact Or.inl rfl

end Frame

namespace Machine

/-- A frame that has gone on after an instruction: it had the fee and paid it. -/
structure GoesOn (before after : Frame) : Prop where
  paid : after.gas + 30 ≤ before.gas
  nonneg : 0 ≤ after.gas
  pending : Frame.PendingFrom before after

theorem execute_gas (machine : Machine) (invocation : Invocation) (instruction : Instruction)
    (frame : Frame) (world : World) :
    (machine.execute invocation instruction frame world).1.gas = frame.gas := by
  unfold execute
  dsimp only
  repeat' split
  all_goals simp

theorem execute_pending (machine : Machine) (invocation : Invocation) (instruction : Instruction)
    (frame : Frame) (world : World)
    (running : (machine.execute invocation instruction frame world).1.isRunning = true) :
    Frame.PendingFrom frame (machine.execute invocation instruction frame world).1 := by
  unfold execute at running ⊢
  dsimp only at running ⊢
  split at running
  · simp at running
  · split at running
    · split at running
      · simp at running
      · rename_i results _ counts fits
        rw [if_pos counts, if_neg fits]
        exact Frame.pendingFrom_perform (frame.pop _ _) _ _ _ _
    · simp at running

theorem perform_gas_le (machine : Machine) (invocation : Invocation) (instruction : Instruction)
    (frame : Frame) (world : World) :
    (machine.perform invocation instruction frame world).1.gas ≤ frame.gas := by
  have paid := frame.gas_pay_le instruction.fee
  unfold perform
  dsimp only
  repeat' split
  all_goals simpa [execute_gas] using paid

theorem perform_goesOn (machine : Machine) (invocation : Invocation) (instruction : Instruction)
    (frame : Frame) (world : World)
    (running : (machine.perform invocation instruction frame world).1.isRunning = true) :
    GoesOn frame (machine.perform invocation instruction frame world).1 := by
  unfold perform at running ⊢
  dsimp only at running ⊢
  split at running
  · simp at running
  · split at running
    · simp at running
    · rename_i poor
      have fee := instruction.le_fee
      have paid := Frame.gas_pay_of_le (Int.not_lt.1 poor)
      have same := machine.execute_gas invocation instruction (frame.pay instruction.fee) world
      rw [if_neg poor]
      exact ⟨by omega, by omega, machine.execute_pending _ _ _ _ running⟩

theorem step_gas_le (machine : Machine) (invocation : Invocation) (frame : Frame) (world : World) :
    (machine.step invocation frame world).1.gas ≤ frame.gas := by
  unfold step
  repeat' split
  all_goals first
    | exact machine.perform_gas_le _ _ _ _
    | simp

/-- A frame that runs on after a step has paid for it. -/
theorem step_goesOn (machine : Machine) (invocation : Invocation) (frame : Frame) (world : World)
    (running : (machine.step invocation frame world).1.isRunning = true) :
    GoesOn frame (machine.step invocation frame world).1 := by
  unfold step at running ⊢
  split at running
  · rename_i before
    rw [if_pos before]
    split at running
    · simp at running
    · split at running
      · simp at running
      · exact machine.perform_goesOn _ _ _ _ running
  · rename_i before
    exact absurd running before

end Machine

end GasMachine
