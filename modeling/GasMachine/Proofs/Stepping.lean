import GasMachine.Proofs.NeverInternal
import GasMachine.Proofs.Recursion

/-!
# Steps and runs

A frame can be stepped by hand and then be run. As long as the steps leave no contract pending, the
run ends as it would have without them (`Machine.runFrame_stepFor`). A contract that the last step
has left pending is taken up too late: the run begins with a step, so the next instruction of the
caller comes before the contract, and if this ends the caller, the contract is never run.
-/

set_option autoImplicit false

namespace GasMachine

namespace Machine

/-- The frame and the world after a number of steps. What a step leaves pending is not run. -/
def stepFor (machine : Machine) (invocation : Invocation) : Nat → Frame → World → Frame × World
  | 0, frame, world => (frame, world)
  | steps + 1, frame, world =>
    let (after, next) := machine.step invocation frame world
    stepFor machine invocation steps after next

/-- The frame and the world at the end of a run. -/
def runFrame (machine : Machine) (invocation : Invocation) (frame : Frame) (world : World) :
    Frame × World :=
  let final := Execution.run { frame, world } machine invocation
  (final.frame, final.world)

/-- A contract is run to its end, and then its caller goes on with what the contract has left. -/
def runCall (machine : Machine) (invocation : Invocation) (launch : Launch) (caller : Frame)
    (callPc : Nat) (world : World) : Frame × World :=
  let (contract, next) := machine.runFrame invocation launch.start world
  machine.runFrame invocation (caller.settled.resume contract callPc) next

variable {machine : Machine} {invocation : Invocation} {frame after : Frame} {world next : World}

/-! ## Runs as equations

The rules of the recursion, read as equations for the run of a frame: what a run is depends on what
its first step leaves. -/

theorem runFrame_of_evaluates {result : Execution}
    (evaluates : machine.Evaluates invocation frame world result) :
    machine.runFrame invocation frame world = (result.frame, result.world) := by
  unfold runFrame
  rw [evaluates.run_eq]

theorem runFrame_of_ended (ended : frame.isRunning = false) :
    machine.runFrame invocation frame world = (frame, world) :=
  runFrame_of_evaluates (.ended ended)

/-- A step that leaves nothing pending is the first one of the run. -/
theorem runFrame_of_calm (running : frame.isRunning = true)
    (step : machine.step invocation frame world = (after, next))
    (calm : after.pending = none ∨ after.isRunning = false) :
    machine.runFrame invocation frame world = machine.runFrame invocation after.settled next := by
  have later := machine.evaluates_run invocation after.settled next
  exact (runFrame_of_evaluates (.step running step calm later)).trans rfl

/-- A contract that a step of the run leaves pending is run before anything else. -/
theorem runFrame_of_pending {launch : Launch} (running : frame.isRunning = true)
    (step : machine.step invocation frame world = (after, next))
    (pending : after.pending = some launch) (goesOn : after.isRunning = true) :
    machine.runFrame invocation frame world =
      machine.runCall invocation launch after frame.pc next := by
  have inner := machine.evaluates_run invocation launch.start next
  have later := machine.evaluates_run invocation
    (after.settled.resume (machine.runFrame invocation launch.start next).1 frame.pc)
    (machine.runFrame invocation launch.start next).2
  exact (runFrame_of_evaluates (.call running step pending goesOn inner later)).trans rfl

/-! ## Steps

By induction on the number of steps, from the last one: if it leaves nothing pending, it is the
first step of the run from where the others have come to. -/

theorem step_of_ended (ended : frame.isRunning = false) :
    machine.step invocation frame world = (frame, world) := by
  unfold step
  rw [ended]
  rfl

theorem stepFor_succ (steps : Nat) :
    machine.stepFor invocation (steps + 1) frame world =
      machine.step invocation (machine.stepFor invocation steps frame world).1
        (machine.stepFor invocation steps frame world).2 := by
  induction steps generalizing frame world with
  | zero => rfl
  | succ steps ih =>
    exact @ih (machine.step invocation frame world).1 (machine.step invocation frame world).2

theorem stepFor_add (steps more : Nat) :
    machine.stepFor invocation (steps + more) frame world =
      machine.stepFor invocation more (machine.stepFor invocation steps frame world).1
        (machine.stepFor invocation steps frame world).2 := by
  induction more with
  | zero => rfl
  | succ more ih => rw [← Nat.add_assoc, stepFor_succ, stepFor_succ, ih]

theorem stepFor_of_ended (ended : frame.isRunning = false) (steps : Nat) :
    machine.stepFor invocation steps frame world = (frame, world) := by
  induction steps with
  | zero => rfl
  | succ steps ih => rw [stepFor_succ, ih, step_of_ended ended]

/-- Steps that leave nothing pending can be left to the run. -/
theorem runFrame_stepFor (steps : Nat)
    (calm : ∀ taken ≤ steps, (machine.stepFor invocation taken frame world).1.pending = none) :
    machine.runFrame invocation (machine.stepFor invocation steps frame world).1
        (machine.stepFor invocation steps frame world).2 =
      machine.runFrame invocation frame world := by
  induction steps with
  | zero => rfl
  | succ steps ih =>
    rw [← ih fun taken few => calm taken (Nat.le_succ_of_le few)]
    have last := calm (steps + 1) (Nat.le_refl _)
    rw [stepFor_succ] at last ⊢
    generalize machine.stepFor invocation steps frame world = before at last ⊢
    cases running : before.1.isRunning with
    | false => rw [step_of_ended running]
    | true =>
      cases step : machine.step invocation before.1 before.2 with
      | mk after next =>
        rw [step] at last
        rw [runFrame_of_calm running step (.inl last), Frame.settled_of_pending_eq_none last]

/-! ## Steps that call

A step that leaves a contract pending cannot have ended its frame, because such an instruction gives
nothing and takes two items. So a frame with something pending is one that runs. -/

/-- The call of a contract leaves room: it takes two items off the stack and puts none there. -/
theorem fits_of_call (standard : machine.table = {}) {instruction : Instruction}
    {results : Results} (acts : machine.Acts invocation frame world instruction results)
    {code : Bytes} {items : List Item} (effect : results.effect = .call code items) :
    (frame.completed instruction results).totalSize ≤ machine.config.limits.stackSize := by
  obtain ⟨system, service, named, calls⟩ :=
    Behaviour.run_call _ _ _ _ _ _ results acts.ran code items effect
  have opcode := opcode_of_systemCall standard acts.found system
  obtain ⟨other, alsoNamed, demand⟩ := demand_of_SYSCALL standard acts.found opcode
  cases named.symm.trans alsoNamed
  cases calls.service
  have asked := acts.admitted.size
  have own : (frame.completed instruction results).ownSize =
      (frame.charged instruction).ownSize := ownSize_completed calls.stack calls.alt
  have taken : (frame.charged instruction).ownSize + 2 ≤ frame.ownSize := by
    have two := acts.admitted.stackIn
    rw [demand, demand_contractCall] at two
    dsimp only at two
    unfold Frame.charged Frame.pop Frame.ownSize
    rw [demand, demand_contractCall]
    simp only [Frame.pay, List.length_drop]
    omega
  rw [Frame.sizeAfter, demand, demand_contractCall] at asked
  unfold Frame.totalSize at asked ⊢
  rw [own, Frame.callerStack_completed, Frame.callerAlt_completed]
  dsimp only at asked
  omega

/-- A step that leaves a contract pending never ends its caller. -/
theorem isRunning_of_pending (standard : machine.table = {}) {launch : Launch}
    (calm : frame.pending = none) (step : machine.step invocation frame world = (after, next))
    (pending : after.pending = some launch) :
    frame.isRunning = true ∧ after.isRunning = true := by
  cases running : frame.isRunning with
  | false =>
    rw [step_of_ended running] at step
    cases step
    cases calm.symm.trans pending
  | true =>
    have went := machine.stepTo_step invocation world frame
    rw [step] at went
    cases went with
    | overflowed instruction results acts fault cause =>
      obtain ⟨code, items, effect, _⟩ := effect_of_pending calm pending
      -- The results of a call fit, so the step went another way.
      rw [step_of_acts running acts (fits_of_call standard acts effect)] at step
      exact ⟨rfl, (congrArg (fun ended => ended.1.isRunning) step).symm.trans
        ((Frame.isRunning_completed _ _ _).trans running)⟩
    | acted instruction results acts fits =>
      exact ⟨rfl, (Frame.isRunning_completed _ _ _).trans running⟩
    | _ => cases calm.symm.trans pending

/-! ## Contracts taken up late

What happens then is described case by case along what the next instruction does: it may end the
caller, leave the contract as it is, or call another one in its place. -/

/-- What is pending after an instruction was pending before, unless the instruction calls. -/
theorem pending_completed {instruction : Instruction} {results : Results}
    (idle : results.effect.service? ≠ some .contractCall) :
    (frame.completed instruction results).pending = frame.pending := by
  unfold Frame.completed
  cases effect : results.effect with
  | call _ _ =>
    rw [effect] at idle
    exact absurd rfl idle
  | _ => rfl

theorem exists_pending_completed {instruction : Instruction} {results : Results} {launch : Launch}
    (pending : frame.pending = some launch) :
    ∃ other, (frame.completed instruction results).pending = some other := by
  unfold Frame.completed
  cases results.effect with
  | call code items => exact ⟨(frame.charged instruction).launch code items, rfl⟩
  | _ => exact ⟨launch, pending⟩

/-- A run of a caller that has a contract pending already. The instruction after the call comes
first. If it ends the caller, the contract is never run. Otherwise a contract is run then, and
its caller is told the position of this instruction for that of the call; the contract is the one
that was pending, unless the instruction calls another one in its place. -/
structure TakenUpLate (machine : Machine) (invocation : Invocation) (launch : Launch)
    (caller : Frame) (world : World) : Prop where
  running : caller.isRunning = true
  dropped : ∀ after next, machine.step invocation caller world = (after, next) →
    after.isRunning = false → machine.runFrame invocation caller world = (after.settled, next)
  delayed : ∀ after next, machine.step invocation caller world = (after, next) →
    after.isRunning = true → ∃ other, after.pending = some other ∧
      machine.runFrame invocation caller world =
        machine.runCall invocation other after caller.pc next ∧
      (machine.serviceAt? invocation caller ≠ some .contractCall → other = launch)

theorem takenUpLate_of_pending (standard : machine.table = {}) {launch : Launch}
    (running : frame.isRunning = true) (pending : frame.pending = some launch) :
    machine.TakenUpLate invocation launch frame world := by
  constructor
  case running => exact running
  case dropped =>
    intro after next step ended
    rw [runFrame_of_calm running step (.inr ended)]
    exact runFrame_of_ended ended
  case delayed =>
    intro after next step goesOn
    obtain ⟨instruction, results, acts, rfl, rfl⟩ := acts_of_goesOn step goesOn
    obtain ⟨other, waits⟩ := exists_pending_completed pending
    refine ⟨other, waits, runFrame_of_pending running step waits goesOn, ?_⟩
    intro ordinary
    have idle : results.effect.service? ≠ some .contractCall := fun calls =>
      ordinary (acts.serviceAt?_of_effect standard calls)
    rw [pending_completed idle, pending] at waits
    exact (Option.some.inj waits).symm

/-- Steps and a run after them give what the run alone gives, if the steps leave no contract
pending. If the last of them does, then the run alone goes into the contract at once and resumes
the caller behind the call, while the run after the steps takes the contract up too late. -/
theorem runFrame_of_steps (config : Config) (invocation : Invocation) (frame : Frame)
    (world : World) (steps : Nat)
    (calm : ∀ taken < steps,
      ((standard config).stepFor invocation taken frame world).1.pending = none) :
    let stepped := (standard config).stepFor invocation steps frame world
    (stepped.1.pending = none →
      (standard config).runFrame invocation stepped.1 stepped.2 =
        (standard config).runFrame invocation frame world) ∧
    ∀ taken launch, steps = taken + 1 → stepped.1.pending = some launch →
      let before := (standard config).stepFor invocation taken frame world
      (standard config).runFrame invocation frame world =
          (standard config).runCall invocation launch stepped.1 before.1.pc stepped.2 ∧
        (standard config).TakenUpLate invocation launch stepped.1 stepped.2 := by
  dsimp only
  constructor
  · intro last
    refine runFrame_stepFor steps fun taken few => ?_
    rcases Nat.lt_or_eq_of_le few with fewer | rfl
    · exact calm taken fewer
    · exact last
  · rintro taken launch rfl pending
    have quiet := calm taken (Nat.lt_succ_self taken)
    rw [stepFor_succ] at pending ⊢
    rw [← runFrame_stepFor taken fun fewer few => calm fewer (Nat.lt_succ_of_le few)]
    generalize (standard config).stepFor invocation taken frame world = before at pending quiet ⊢
    cases step : (standard config).step invocation before.1 before.2 with
    | mk after next =>
      rw [step] at pending
      obtain ⟨running, goesOn⟩ := isRunning_of_pending rfl quiet step pending
      exact ⟨runFrame_of_pending running step pending goesOn,
        takenUpLate_of_pending rfl goesOn pending⟩

/-- A frame that puts an item aside, calls a contract and then pushes another item. -/
def lateCaller : Frame :=
  { busyCaller with
    code := [Opcode.PUSH5.code, Opcode.TOALTSTACK.code] ++ busyCaller.code ++
      [Opcode.PUSH9.code] }

/-- The run alone pushes the item on the result of the contract. After three steps the contract is
pending, and the run pushes the item first. -/
theorem runFrame_lateCaller :
    let machine := standard {}
    let before := machine.stepFor {} 2 lateCaller busyWorld
    let stepped := machine.stepFor {} 3 lateCaller busyWorld
    ((machine.runFrame {} lateCaller busyWorld).1.stack =
        [.integer 9, .integer 3, .integer 7] ∧
      (machine.runFrame {} stepped.1 stepped.2).1.stack =
        [.integer 3, .integer 9, .integer 7]) ∧
    ∃ launch, stepped.1.pending = some launch ∧
      machine.runFrame {} lateCaller busyWorld =
        machine.runCall {} launch stepped.1 before.1.pc stepped.2 ∧
      machine.TakenUpLate {} launch stepped.1 stepped.2 := by
  have calm : ∀ taken < 3,
      ((standard {}).stepFor {} taken lateCaller busyWorld).1.pending = none := by
    intro taken few
    have quiet : ∀ taken < 3,
        ((standard {}).stepFor {} taken lateCaller busyWorld).1.pending.isNone = true := by
      decide +kernel
    exact Option.isNone_iff_eq_none.1 (quiet taken few)
  have waits :
      ((standard {}).stepFor {} 3 lateCaller busyWorld).1.pending.isSome = true := by
    decide +kernel
  obtain ⟨launch, pending⟩ := Option.isSome_iff_exists.1 waits
  have parts := (runFrame_of_steps {} {} lateCaller busyWorld 3 calm).2 2 launch rfl pending
  exact ⟨by decide +kernel, launch, pending, parts⟩

/-- So the run after steps of which only the last leaves a contract pending need not give what the
run alone gives, even if both end without a fault. -/
theorem not_runFrame_of_step_pending :
    ¬∀ (config : Config) (invocation : Invocation) (frame : Frame) (world : World) (steps : Nat),
      frame.isRunning = true → frame.pending = none →
      (∀ taken < steps,
        ((standard config).stepFor invocation taken frame world).1.pending = none) →
      let stepped := (standard config).stepFor invocation steps frame world
      ((standard config).runFrame invocation frame world).1.fault? = none →
      ((standard config).runFrame invocation stepped.1 stepped.2).1.fault? = none →
        (standard config).runFrame invocation stepped.1 stepped.2 =
          (standard config).runFrame invocation frame world := by
  intro compose
  have calm : ∀ taken < 1,
      ((standard {}).stepFor {} taken busyCaller busyWorld).1.pending = none := by
    intro taken few
    cases Nat.lt_one_iff.1 few
    rfl
  have same := compose {} {} busyCaller busyWorld 1 (by decide +kernel) rfl calm
    (Option.isNone_iff_eq_none.1 (by decide +kernel))
    (Option.isNone_iff_eq_none.1 (by decide +kernel))
  have results : ((standard {}).runFrame {} busyCaller busyWorld).1.stack =
      [.integer 3, .integer 7] := by
    decide +kernel
  have dropped : ((standard {}).runFrame {} ((standard {}).stepFor {} 1 busyCaller busyWorld).1
      ((standard {}).stepFor {} 1 busyCaller busyWorld).2).1.stack = [.integer 7] := by
    decide +kernel
  rw [same, results] at dropped
  cases dropped

end Machine

end GasMachine
