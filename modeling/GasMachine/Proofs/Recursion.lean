import GasMachine.Proofs.StepBound

/-!
# Calls as recursion

The machine keeps the callers that wait on a list and swaps frames in place. A caller sees less of
this: a contract that it calls is run to its end, and then it goes on with one more item on its
stack. `Machine.Evaluates` is this view, a recursion over the calls. Both views give the same, since
whatever a contract does, the callers below it are left alone until it has ended.
-/

set_option autoImplicit false

namespace GasMachine

/-! ## Evaluation by recursion

`Evaluates` is the specification. It has no list of callers: a contract is evaluated by the same
relation, and its result is given to the caller in one go. The loop follows it with any callers
below, which is what the induction on the evaluation needs. -/

/-- Running a frame to its end by recursion. Each rule takes one step; a contract that the step has
left pending is evaluated in full before its caller goes on. What comes out is told as an execution
in which nobody waits, with the steps and frames of the contracts counted in. -/
inductive Machine.Evaluates (machine : Machine) (invocation : Invocation) :
    Frame → World → Execution → Prop where
  | ended {frame : Frame} {world : World} (ended : frame.isRunning = false) :
    Evaluates machine invocation frame world { frame, world }
  | step {frame after : Frame} {world next : World} {rest : Execution}
    (running : frame.isRunning = true)
    (step : machine.step invocation frame world = (after, next))
    (calm : after.pending = none ∨ after.isRunning = false)
    (later : Evaluates machine invocation after.settled next rest) :
    Evaluates machine invocation frame world { rest with steps := 1 + rest.steps }
  | call {frame after : Frame} {world next : World} {launch : Launch} {contract rest : Execution}
    (running : frame.isRunning = true)
    (step : machine.step invocation frame world = (after, next))
    (pending : after.pending = some launch) (goesOn : after.isRunning = true)
    (inner : Evaluates machine invocation launch.start next contract)
    (later : Evaluates machine invocation (after.settled.resume contract.frame frame.pc)
      contract.world rest) :
    Evaluates machine invocation frame world
      { rest with
        steps := 1 + contract.steps + rest.steps
        scripts := contract.scripts + rest.scripts }

namespace Machine.Evaluates

variable {machine : Machine} {invocation : Invocation} {frame : Frame} {world : World}
  {result : Execution}

theorem isRunning_result (evaluates : machine.Evaluates invocation frame world result) :
    result.frame.isRunning = false := by
  induction evaluates with
  | ended ended => exact ended
  | step _ _ _ _ ih => exact ih
  | call _ _ _ _ _ _ _ ih => exact ih

theorem callers_result (evaluates : machine.Evaluates invocation frame world result) :
    result.callers = [] := by
  induction evaluates with
  | ended _ => rfl
  | step _ _ _ _ ih => exact ih
  | call _ _ _ _ _ _ _ ih => exact ih

/-- The loop does with a frame what the recursion does, whoever waits for it: from the result it
goes on as if the frame had been replaced at once. -/
theorem ends (evaluates : machine.Evaluates invocation frame world result)
    (callers : List Suspended) (steps others : Nat) {final : Execution}
    (later : Execution.Ends machine invocation
      ⟨result.frame, callers, result.world, steps + result.steps, others + result.scripts⟩ final) :
    Execution.Ends machine invocation ⟨frame, callers, world, steps, others + 1⟩ final := by
  induction evaluates generalizing callers steps others with
  | ended _ => exact later
  | @step frame after world next rest running step calm _ ih =>
    refine .tick (by simp [Execution.isFinished, running]) ?_
    rw [Execution.tick_of_calm running step calm]
    refine ih callers (steps + 1) others ?_
    rw [Nat.add_assoc]
    exact later
  | @call frame after world next launch contract rest running step pending goesOn inner _ ihInner
      ihLater =>
    refine .tick (by simp [Execution.isFinished, running]) ?_
    rw [Execution.tick_of_pending running step pending goesOn]
    -- The contract runs above its caller, and then the caller is resumed.
    refine ihInner (⟨after.settled, frame.pc⟩ :: callers) (steps + 1) (others + 1) ?_
    refine .tick (by simp [Execution.isFinished]) ?_
    rw [Execution.tick_of_ended machine invocation inner.isRunning_result]
    have first := ihLater callers (steps + 1 + contract.steps) (others + contract.scripts)
    rw [Nat.add_right_comm others contract.scripts 1] at first
    refine first ?_
    have counted : steps + 1 + contract.steps + rest.steps =
        steps + (1 + contract.steps + rest.steps) := by omega
    rw [counted, Nat.add_assoc others]
    exact later

/-- The run of a frame gives what the recursion gives. -/
theorem run_eq (evaluates : machine.Evaluates invocation frame world result) :
    Execution.run { frame, world } machine invocation = result := by
  have alone := evaluates.callers_result
  have finished : result.isFinished = true := by
    rw [Execution.isFinished, evaluates.isRunning_result, alone]
    rfl
  refine Execution.Ends.run_eq (evaluates.ends [] 0 0 ?_)
  rw [Nat.zero_add, Nat.zero_add, ← alone]
  exact .done finished

end Machine.Evaluates

/-! ## The recursion comes to an end

A relation might hold of nothing. That there is a result for every frame is shown by the weight that
bounds the loop: it falls with every step, it falls when a contract is entered, and the caller that
goes on afterwards has no more than the contract has left. -/

/-- A caller that has been resumed weighs no more than the gas that the contract has left, and its
next step. -/
theorem Execution.weight_resume_le (caller callee : Frame) (callPc : Nat) (world : World) :
    weight { frame := caller.resume callee callPc, world } ≤ 3 * callee.gas.toNat + 1 := by
  simp only [weight, pendingGas, pending_resume, gas_resume, Option.isSome_none, List.length_nil,
    if_neg Bool.false_ne_true]
  split <;> omega

namespace Machine

variable (machine : Machine) (invocation : Invocation)

/-- Every frame has a result by recursion. The weight that bounds the loop falls along the
recursion as well: a contract leaves no more gas than it was given, and its call has been paid. -/
theorem exists_evaluates (frame : Frame) (world : World) :
    ∃ result, machine.Evaluates invocation frame world result ∧
      3 * result.frame.gas.toNat ≤ Execution.weight { frame, world } := by
  induction measured : Execution.weight { frame, world } using Nat.strongRecOn
    generalizing frame world with
  | ind weight ih =>
    subst measured
    cases running : frame.isRunning with
    | false =>
      refine ⟨_, .ended running, ?_⟩
      simp only [Execution.weight]
      omega
    | true =>
      have unfinished : Execution.isFinished { frame, world } = false := by
        simp [Execution.isFinished, running]
      have less := Execution.weight_tick_lt machine invocation unfinished
      cases step : machine.step invocation frame world with
      | mk after next =>
        by_cases calm : after.pending = none ∨ after.isRunning = false
        · rw [Execution.tick_of_calm running step calm] at less
          obtain ⟨rest, evaluates, left⟩ := ih _ less after.settled next rfl
          exact ⟨_, .step running step calm evaluates, Nat.le_of_lt (Nat.lt_of_le_of_lt left less)⟩
        · rw [not_or, Bool.not_eq_false] at calm
          obtain ⟨launch, pending⟩ := Option.ne_none_iff_exists'.1 calm.1
          rw [Execution.tick_of_pending running step pending calm.2] at less
          have started : Execution.weight { frame := launch.start, world := next } + 2 <
              Execution.weight { frame, world } := less
          obtain ⟨contract, inner, left⟩ := ih _ (by omega) launch.start next rfl
          have resumed := Execution.weight_resume_le after.settled contract.frame frame.pc
            contract.world
          obtain ⟨rest, later, least⟩ := ih _ (by omega)
            (after.settled.resume contract.frame frame.pc) contract.world rfl
          exact ⟨_, .call running step pending calm.2 inner later, by dsimp only; omega⟩

/-- The loop gives what the recursion gives. -/
theorem evaluates_run (frame : Frame) (world : World) :
    machine.Evaluates invocation frame world
      (Execution.run { frame, world } machine invocation) := by
  obtain ⟨result, evaluates, _⟩ := machine.exists_evaluates invocation frame world
  rw [evaluates.run_eq]
  exact evaluates

end Machine

/-! ## Where a caller goes on

What the step of a call leaves is known exactly, so a caller can be told in terms of the frame
before the call and the result of the contract. -/

/-- A caller that goes on after a contract has halted: behind the system call, with one item in the
place of the two arguments of the call, and otherwise as it was. -/
structure Frame.GoesOnAfter (caller callee resumed : Frame) : Prop where
  running : resumed.isRunning = true
  pc : resumed.pc = caller.pc + 5
  stack : ∃ hash parameters rest, caller.stack = hash :: parameters :: rest ∧
    resumed.stack = callee.stack.headD .null :: rest
  alt : resumed.alt = caller.alt
  returnStack : resumed.returnStack = caller.returnStack
  depth : resumed.depth = caller.depth
  /-- The contract hands back the gas, the contracts made and the events. -/
  gas : resumed.gas = callee.gas
  created : resumed.created = callee.created
  notifications : resumed.notifications = callee.notifications
  logs : resumed.logs = callee.logs
  pending : resumed.pending = none

namespace Machine

variable {machine : Machine} {invocation : Invocation}

/-- A step that calls a contract and goes through leaves it pending, and its caller goes on as said
once the contract has halted. -/
theorem goesOnAfter_of_step (standard : machine.table = {}) {frame after : Frame}
    {world next : World}
    (called : machine.serviceAt? invocation frame = some .contractCall)
    (step : machine.step invocation frame world = (after, next))
    (goesOn : after.isRunning = true) :
    ∃ launch, after.pending = some launch ∧ ∀ callee : Frame, callee.fault? = none →
      frame.GoesOnAfter callee (after.settled.resume callee frame.pc) := by
  obtain ⟨instruction, results, acts, rfl, _⟩ := acts_of_goesOn step goesOn
  obtain ⟨system, demand, served⟩ := acts.serves standard called
  obtain ⟨code, items, effect⟩ := Service.contractCall_effect _ _ _ _ results served
  obtain ⟨_, _, calls⟩ := calls_of_effect standard acts effect
  have layout : instruction.opcode.layout = .fixed 4 := by
    rw [system]
    rfl
  have size : instruction.size = 5 := (fixed_of_found acts.found layout).1
  obtain ⟨hash, parameters, stack, _⟩ := calls.stack
  -- Beside the stacks, the gas and the events, a call only moves the position.
  have moved : frame.completed instruction results =
      ((frame.charged instruction).perform 5 (.call code items)).push
        results.stack results.alt := by
    rw [Frame.completed, size, effect]
  refine ⟨(frame.charged instruction).launch code items, by rw [moved]; rfl, ?_⟩
  intro callee halted
  have resumed : (frame.completed instruction results).settled.resume callee frame.pc =
      Frame.push
        { frame.completed instruction results with
          gas := callee.gas
          created := callee.created
          notifications := callee.notifications
          logs := callee.logs
          pending := none }
        [callee.stack.headD .null] [] := by
    unfold Frame.resume
    rw [halted]
    rfl
  rw [resumed]
  constructor
  case running => exact goesOn
  case pc => rw [moved]; rfl
  case stack => exact ⟨hash, parameters, _, stack, rfl⟩
  case alt => exact calls.alt
  case returnStack => rw [moved]; rfl
  case depth => rw [moved]; rfl
  all_goals rfl

/-- Nothing but the call of a contract leaves a contract pending. -/
theorem serviceAt?_of_pending (standard : machine.table = {}) {frame after : Frame}
    {world next : World} (calm : frame.pending = none)
    (step : machine.step invocation frame world = (after, next))
    (pending : after.pending.isSome = true) (goesOn : after.isRunning = true) :
    machine.serviceAt? invocation frame = some .contractCall := by
  obtain ⟨instruction, results, acts, rfl, _⟩ := acts_of_goesOn step goesOn
  obtain ⟨launch, left⟩ := Option.isSome_iff_exists.1 pending
  obtain ⟨code, items, effect, _⟩ := effect_of_pending calm left
  obtain ⟨system, service, named, calls⟩ :=
    Behaviour.run_call _ _ _ _ _ _ results acts.ran code items effect
  have opcode := opcode_of_systemCall standard acts.found system
  exact serviceAt?_eq_some_iff.2 ⟨instruction, acts.found, opcode, calls.service ▸ named⟩

/-! ## The loop and the recursion

The recursion has one result for each frame, because it is that of the loop; and it has one, because
it comes to an end. So the two are the same function. -/

/-- The call of a contract in the run of its caller: the contract is run to its end, and then the
caller goes on with what the contract has left. -/
structure CallReturns (machine : Machine) (invocation : Invocation) (frame after : Frame)
    (world next : World) (contract : Execution) : Prop where
  launched : ∃ launch, after.pending = some launch ∧
    Execution.run { frame := launch.start, world := next } machine invocation = contract
  run :
    let resumed := after.settled.resume contract.frame frame.pc
    let rest := Execution.run { frame := resumed, world := contract.world } machine invocation
    Execution.run { frame, world } machine invocation =
      { rest with
        steps := 1 + contract.steps + rest.steps
        scripts := contract.scripts + rest.scripts }
  goesOn : contract.frame.fault? = none →
    frame.GoesOnAfter contract.frame (after.settled.resume contract.frame frame.pc)

/-- The loop with its list of callers gives the same as the recursion in which every contract is
run to its end before its caller goes on, for every frame and in every world. A contract is left
pending by a system call that names the call of a contract and by nothing else, and a caller whose
contract has halted goes on behind this call with exactly one new item. -/
theorem run_eq_recursion (config : Config) (invocation : Invocation) (frame : Frame)
    (world : World) :
    (∀ result, (standard config).Evaluates invocation frame world result ↔
      Execution.run { frame, world } (standard config) invocation = result) ∧
    ∀ (after : Frame) (next : World), frame.isRunning = true →
      (standard config).step invocation frame world = (after, next) → after.isRunning = true →
        (frame.pending = none → after.pending.isSome = true →
          (standard config).serviceAt? invocation frame = some .contractCall) ∧
        ((standard config).serviceAt? invocation frame = some .contractCall →
          ∃ contract,
            CallReturns (standard config) invocation frame after world next contract) := by
  constructor
  · intro result
    refine ⟨Evaluates.run_eq, ?_⟩
    rintro rfl
    exact (standard config).evaluates_run invocation frame world
  · intro after next running step goesOn
    refine ⟨fun calm pending => serviceAt?_of_pending rfl calm step pending goesOn, ?_⟩
    intro called
    obtain ⟨launch, pending, resumed⟩ := goesOnAfter_of_step rfl called step goesOn
    have inner := (standard config).evaluates_run invocation launch.start next
    generalize ran : Execution.run _ _ _ = contract at inner
    have later := (standard config).evaluates_run invocation
      (after.settled.resume contract.frame frame.pc) contract.world
    have whole := (Evaluates.call running step pending goesOn inner later).run_eq
    exact ⟨contract, ⟨launch, pending, ran⟩, whole, resumed contract.frame⟩

/-- A contract that leaves three items on its stack and one on its alt stack. -/
def busyContract : Bytes :=
  [Opcode.PUSH1.code, Opcode.PUSH2.code, Opcode.PUSH3.code, Opcode.PUSH4.code,
    Opcode.TOALTSTACK.code]

/-- A world in which the contract is stored under the hash of zeros. -/
def busyWorld : World :=
  let contents : Contents := { contracts := Std.ExtTreeMap.empty.insert Hash.zero busyContract }
  { store := LayeredStore.begin { base := { contents } } }

/-- A frame that is about to call the contract without arguments. -/
def busyCaller : Frame :=
  Launch.start
    { code := Opcode.SYSCALL.code :: Bytes.ofNat 4 Service.contractCall.id
      gas := 2_000_000
      depth := 1
      entry := Hash.zero
      calling := none
      residue := { stack := [Service.hashItem Hash.zero, .null, .integer 7] } }

theorem run_busyCaller :
    let machine := standard {}
    let step := machine.step {} busyCaller busyWorld
    let run := Execution.run { frame := busyCaller, world := busyWorld } machine {}
    (busyCaller.isRunning = true ∧ machine.serviceAt? {} busyCaller = some .contractCall ∧
      step.1.isRunning = true) ∧
    (run.frame.stack = [.integer 3, .integer 7] ∧ run.steps = 8 ∧ run.scripts = 2) ∧
    machine.Evaluates {} busyCaller busyWorld run ∧
    ∃ contract, CallReturns machine {} busyCaller step.1 busyWorld step.2 contract := by
  have called : busyCaller.isRunning = true ∧
      (standard {}).serviceAt? {} busyCaller = some .contractCall ∧
      ((standard {}).step {} busyCaller busyWorld).1.isRunning = true := by
    decide +kernel
  have recursion := run_eq_recursion {} {} busyCaller busyWorld
  refine ⟨called, by decide +kernel, (recursion.1 _).2 rfl, ?_⟩
  exact (recursion.2 _ _ called.1 rfl called.2.2).2 called.2.1

end Machine

end GasMachine
