import GasMachine.Proofs.Demand
import GasMachine.Proofs.Tick

/-!
# Calls of contracts

With the standard table a contract is left pending only by a system call that names the call of a
contract. Such a step has paid the fee of the call and has taken two items off the stack; the
contract gets the gas, and the items of the caller count as items of its callers.
-/

set_option autoImplicit false

namespace GasMachine

namespace Machine

/-- What is known of a step that leaves a contract pending. -/
structure Calls (before after : Frame) (launch : Launch) : Prop where
  /-- The prices of the system call and of the service have been paid. -/
  paid : after.gas + 1_000_030 = before.gas
  nonneg : 0 ≤ after.gas
  /-- The two arguments are gone, and the contract has what the second one held. -/
  stack : ∃ hash parameters, before.stack = hash :: parameters :: after.stack ∧
    Service.readCallArguments parameters = .ok launch.residue.stack
  alt : after.alt = before.alt
  callerStack : after.callerStack = before.callerStack
  callerAlt : after.callerAlt = before.callerAlt
  gas : launch.gas = after.gas
  launchAlt : launch.residue.alt = []
  launchCallerStack : launch.residue.callerStack = after.ownSize + after.callerStack
  launchCallerAlt : launch.residue.callerAlt = after.callerAlt

/-- A frame on which nothing was pending has a contract pending after an instruction only if the
instruction asked for it. -/
theorem effect_of_pending {frame : Frame} {instruction : Instruction} {results : Results}
    {launch : Launch} (calm : frame.pending = none)
    (pending : (frame.completed instruction results).pending = some launch) :
    ∃ code items, results.effect = .call code items ∧
      launch = (frame.charged instruction).launch code items := by
  unfold Frame.completed at pending
  cases effect : results.effect with
  | call code items =>
    rw [effect] at pending
    exact ⟨code, items, rfl, (Option.some.inj pending).symm⟩
  | _ =>
    rw [effect] at pending
    exact absurd (calm.symm.trans pending) (by simp)

theorem demand_contractCall : Service.contractCall.demand =
    { stackIn := 2, growth := 1, invocation := 1, surcharge := 1_000_000 } := rfl

theorem ownSize_completed {frame : Frame} {instruction : Instruction} {results : Results}
    (noStack : results.stack = []) (noAlt : results.alt = []) :
    (frame.completed instruction results).ownSize = (frame.charged instruction).ownSize := by
  unfold Frame.ownSize
  rw [Frame.stack_completed, Frame.alt_completed, Frame.nested_completed, noStack, noAlt]
  rfl

/-- An instruction of the standard table that asks for a contract to be run is the call of a
contract. -/
theorem calls_of_effect {machine : Machine} (standard : machine.table = {})
    {invocation : Invocation} {frame : Frame} {world : World} {instruction : Instruction}
    {results : Results} (acts : machine.Acts invocation frame world instruction results)
    {code : Bytes} {items : List Item} (effect : results.effect = .call code items) :
    instruction.opcode = .SYSCALL ∧ results.world = world ∧
      Calls frame (frame.completed instruction results)
        ((frame.charged instruction).launch code items) := by
  obtain ⟨system, service, named, calls⟩ :=
    Behaviour.run_call _ _ _ _ _ _ results acts.ran code items effect
  have opcode := opcode_of_systemCall standard acts.found system
  obtain ⟨other, alsoNamed, demand⟩ := demand_of_SYSCALL standard acts.found opcode
  cases named.symm.trans alsoNamed
  cases calls.service
  rw [demand_contractCall] at demand
  obtain ⟨hash, parameters, two, read⟩ := calls.arguments
  have fee : instruction.fee = 1_000_030 := by
    rw [Instruction.fee, demand, opcode]
    rfl
  have affordable := acts.affordable
  have gas : (frame.completed instruction results).gas = frame.gas - instruction.fee := by
    rw [Frame.gas_completed]
    exact Frame.gas_pay_of_le affordable
  have stack : (frame.completed instruction results).stack = frame.stack.drop 2 := by
    rw [Frame.stack_completed, calls.stack, demand]
    rfl
  have taken : frame.stack.take 2 = [hash, parameters] := by
    rw [Frame.argumentsOf, demand] at two
    exact two
  have own : (frame.completed instruction results).ownSize =
      (frame.charged instruction).ownSize := ownSize_completed calls.stack calls.alt
  refine ⟨opcode, calls.world, ?_⟩
  constructor
  case paid => omega
  case nonneg => omega
  case stack =>
    refine ⟨hash, parameters, ?_, read⟩
    rw [stack]
    exact (List.take_append_drop 2 frame.stack).symm.trans (congrArg (· ++ _) taken)
  case alt =>
    rw [Frame.alt_completed, calls.alt, demand]
    rfl
  case callerStack => exact Frame.callerStack_completed _ _ _
  case callerAlt => exact Frame.callerAlt_completed _ _ _
  case gas => exact (Frame.gas_completed _ _ _).symm
  case launchAlt => rfl
  case launchCallerStack =>
    rw [own, Frame.callerStack_completed]
    rfl
  case launchCallerAlt =>
    rw [Frame.callerAlt_completed]
    rfl

/-- A step of the standard table that leaves a contract pending is the call of a contract. -/
theorem calls_of_pending {machine : Machine} (standard : machine.table = {})
    {invocation : Invocation} {frame after : Frame} {world next : World} {launch : Launch}
    (calm : frame.pending = none) (step : machine.step invocation frame world = (after, next))
    (pending : after.pending = some launch) (goesOn : after.isRunning = true) :
    Calls frame after launch := by
  obtain ⟨instruction, results, acts, rfl, _⟩ := acts_of_goesOn step goesOn
  obtain ⟨code, items, effect, rfl⟩ := effect_of_pending calm pending
  exact (calls_of_effect standard acts effect).2.2

end Machine

end GasMachine
