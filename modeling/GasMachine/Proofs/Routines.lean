import GasMachine.Proofs.ControlFlow
import GasMachine.Proofs.Past

/-!
# Calls and their returns

For every routine that is open there is a stage of the past at which it was called: the frame was
the same, the address is that behind the call, and everything since has happened inside the routine
(`Opened`). A routine is closed by the return that takes its address, so the frame then goes on
where it called, at the depth it had (`controlFlow_standard`).
-/

set_option autoImplicit false

namespace GasMachine

/-! ## Open routines

The invariant speaks of the past. Where an address stands on the list of a frame there is an earlier
stage at which it was put there, with the same callers and the same addresses below it; and since
that stage the execution has been inside the routine, which is the part that makes the matching
unique. -/

/-- A stage is inside a routine of the frame above given callers: in a contract that the frame has
called, or in the frame itself with more routines open. -/
def Execution.Within (callers : List Suspended) (routines : Nat) (stage : Execution) : Prop :=
  callers.length < stage.callers.length ∨
    stage.callers = callers ∧ routines < stage.frame.returnStack.length

/-- A stage at which a frame calls a routine that returns to an address. -/
structure CallSite (machine : Machine) (invocation : Invocation) (callers : List Suspended)
    (code : Bytes) (initial address : Nat) (rest : List Nat) (site : Execution) : Prop where
  running : site.frame.isRunning = true
  callers : site.callers = callers
  code : site.frame.code = code
  calls : ∃ instruction, machine.instructionAt? invocation site.frame = some instruction ∧
    instruction.opcode.isCall = true ∧ address = site.frame.pc + instruction.size
  depth : site.frame.depth = initial + rest.length
  returnStack : site.frame.returnStack = rest

/-- Every open routine of a frame has been called at a stage of the past, and nothing has left it
since. -/
def Frame.Opened (machine : Machine) (invocation : Invocation) (initial : Nat)
    (past : List Execution) (callers : List Suspended) (frame : Frame) : Prop :=
  ∀ above address rest, frame.returnStack = above ++ address :: rest →
    ∃ earlier site between, past = earlier ++ site :: between ∧
      CallSite machine invocation callers frame.code initial address rest site ∧
        ∀ stage ∈ between, stage.Within callers rest.length

namespace Frame.Opened

variable {machine : Machine} {invocation : Invocation} {initial : Nat} {past : List Execution}
  {callers : List Suspended} {frame after : Frame} {execution : Execution}

theorem nil (fresh : frame.returnStack = []) :
    frame.Opened machine invocation initial past callers := by
  intro above address rest split
  rw [fresh] at split
  exact absurd split.symm (List.append_ne_nil_of_right_ne_nil _ (List.cons_ne_nil _ _))

theorem congr (opened : frame.Opened machine invocation initial past callers)
    (code : after.code = frame.code) (returnStack : after.returnStack = frame.returnStack) :
    after.Opened machine invocation initial past callers := by
  intro above address rest split
  rw [returnStack] at split
  rw [code]
  exact opened above address rest split

/-- One stage more makes no difference if it belongs to the frame or to a contract that it has
called. -/
theorem later (opened : frame.Opened machine invocation initial past callers)
    (above : callers.length < execution.callers.length ∨
      execution.callers = callers ∧ execution.frame.returnStack = frame.returnStack) :
    frame.Opened machine invocation initial (past ++ [execution]) callers := by
  intro inner address rest split
  obtain ⟨earlier, site, between, rfl, calls, within⟩ := opened inner address rest split
  refine ⟨earlier, site, between ++ [execution], by simp, calls, ?_⟩
  intro stage member
  rcases List.mem_append.1 member with before | last
  · exact within stage before
  · cases List.mem_singleton.1 last
    refine above.imp_right fun ⟨same, returnStack⟩ => ⟨same, ?_⟩
    rw [returnStack, split, List.length_append, List.length_cons]
    omega

/-- A step closes the innermost routine, or opens one, or leaves them all open. -/
theorem step (standard : machine.table = {})
    (orderly : execution.frame.Orderly initial)
    (opened : execution.frame.Opened machine invocation initial past execution.callers)
    (running : execution.frame.isRunning = true) {world : World}
    (step : machine.step invocation execution.frame execution.world = (after, world)) :
    after.Opened machine invocation initial (past ++ [execution]) execution.callers := by
  have still := opened.later (.inr ⟨rfl, rfl⟩)
  obtain ⟨code, same | ⟨instruction, results, acts, moves⟩⟩ :=
    Machine.way_step standard invocation _ _ step
  · exact still.congr code (congrArg Way.returnStack same)
  · intro above address rest split
    have returnStack : after.way.returnStack = above ++ address :: rest := split
    rw [code]
    generalize after.way = way at moves returnStack
    cases moves with
    | stays pc inside outermost => exact still above address rest returnStack
    | enters target inside isCall =>
      cases above with
      | nil =>
        -- This is the routine that is being called.
        obtain ⟨rfl, rfl⟩ := List.cons_eq_cons.1 returnStack
        exact ⟨past, execution, [], rfl,
          ⟨running, rfl, rfl, ⟨instruction, acts.found, isCall, rfl⟩, orderly.depth, rfl⟩,
          List.forall_mem_nil _⟩
      | cons innermost above =>
        exact still above address rest (List.cons_eq_cons.1 returnStack).2
    | leaves target others inside isReturn innermost =>
      refine still (target :: above) address rest ?_
      rw [innermost]
      exact congrArg (target :: ·) returnStack

end Frame.Opened

/-! ## Stages with their past

By induction along the run with its history (`forall_splits`). The frame on top and each frame that
waits have their own list of addresses. A step changes the list on top by one at most, a call starts
an empty one, and after a return the list of the caller is as it was, so that the stages since then
belong to what it had called. -/

/-- What holds of a stage with the stages before it, if a run began with a frame. -/
structure Execution.Charted (machine : Machine) (invocation : Invocation) (first : Frame)
    (past : List Execution) (execution : Execution) : Prop where
  calm : execution.frame.pending = none
  orderly : execution.Orderly machine.config.limits.invocationDepth first
  opened : execution.frame.Opened machine invocation
    (initialDepth first.depth execution.callers) past execution.callers
  waiting : ∀ inner caller outer, execution.callers = inner ++ caller :: outer →
    caller.frame.Opened machine invocation (initialDepth first.depth outer) past outer

namespace Execution.Charted

variable {machine : Machine} {invocation : Invocation} {first : Frame} {past : List Execution}
  {execution : Execution}

theorem start (first : Frame) (calm : first.pending = none) (fresh : first.returnStack = [])
    (world : World) : Charted machine invocation first [] { frame := first, world } := by
  constructor
  case calm => exact calm
  case orderly => exact .start first fresh world
  case opened => exact .nil fresh
  case waiting =>
    intro inner caller outer split
    cases inner <;> cases split

theorem tick (standard : machine.table = {})
    (charted : Charted machine invocation first past execution)
    (unfinished : execution.isFinished = false) :
    Charted machine invocation first (past ++ [execution]) (execution.tick machine invocation) := by
  obtain ⟨calm, orderly, opened, waiting⟩ := charted
  -- The callers that wait are below the frame that has moved, and no frame touches them.
  have below : ∀ inner caller outer, execution.callers = inner ++ caller :: outer →
      caller.frame.Opened machine invocation (initialDepth first.depth outer)
        (past ++ [execution]) outer := by
    intro inner caller outer split
    refine (waiting inner caller outer split).later (.inl ?_)
    rw [split, List.length_append, List.length_cons]
    omega
  constructor
  case calm => exact pending_tick machine invocation unfinished
  case orderly => exact orderly.tick standard calm unfinished
  all_goals
    have move := tickTo_tick machine invocation unfinished
    generalize execution.tick machine invocation = next at move ⊢
  case opened =>
    cases move with
    | stays running after world step still =>
      exact (opened.step standard orderly.top running step).congr rfl rfl
    | calls running after world launch step pending goesOn => exact .nil rfl
    | returns ended caller rest callers =>
      have kept : (caller.frame.resume execution.frame caller.callPc).code = caller.frame.code ∧
          (caller.frame.resume execution.frame caller.callPc).returnStack =
            caller.frame.returnStack := by
        unfold Frame.resume
        dsimp only
        split <;> exact ⟨rfl, rfl⟩
      exact (below [] caller rest callers).congr kept.1 kept.2
  case waiting =>
    cases move with
    | stays running after world step still => exact below
    | calls running after world launch step pending goesOn =>
      intro inner caller outer split
      cases inner with
      | nil =>
        cases split
        exact (opened.step standard orderly.top running step).congr rfl rfl
      | cons other inner =>
        obtain ⟨rfl, rest⟩ := List.cons_eq_cons.1 split
        exact below inner caller outer rest
    | returns ended caller rest callers =>
      intro inner other outer split
      refine below (caller :: inner) other outer ?_
      rw [callers]
      exact congrArg (caller :: ·) split

/-- Every stage of a script has its past charted. -/
theorem of_split (standard : machine.table = {}) {launch : Launch} {world : World}
    {before later : List Execution} {stage : Execution}
    (split : Execution.stages { frame := launch.start, world } machine invocation =
      before ++ stage :: later) :
    Charted machine invocation launch.start before stage :=
  forall_splits (start launch.start rfl rfl world) (fun _ _ unfinished charted =>
    charted.tick standard unfinished) split

end Execution.Charted

/-! ## Control flow

What the charts say is said again without them: in terms of the stage, of the stages before it and
of the frame after a return. -/

/-- A return leads behind the call that belongs to it: the stage is that of the call, the frame is
as deep again as it was there, and in between it has been deeper. -/
structure ReturnsTo (machine : Machine) (invocation : Invocation) (before : List Execution)
    (stage : Execution) (after : Frame) : Prop where
  matched : ∃ earlier site between, before = earlier ++ site :: between ∧
    site.frame.isRunning = true ∧ site.callers = stage.callers ∧
    site.frame.code = stage.frame.code ∧
    (∃ call, machine.instructionAt? invocation site.frame = some call ∧
      call.opcode.isCall = true ∧ after.pc = site.frame.pc + call.size) ∧
    after.depth = site.frame.depth ∧ after.returnStack = site.frame.returnStack ∧
    ∀ other ∈ between, other.Within stage.callers site.frame.returnStack.length

/-- What is said of a frame between two steps, if it has started at a depth. -/
structure Frame.WellFormed (limit initial : Nat) (frame : Frame) : Prop where
  depth : frame.depth = initial + frame.returnStack.length
  /-- A return that takes an address has a depth to take one from. -/
  positive : frame.returnStack ≠ [] → 0 < frame.depth
  returns : ∀ address ∈ frame.returnStack, address ≤ frame.code.length
  routines : frame.returnStack.length ≤ limit - initial

/-- What is said of the control flow at a stage of a script that has started with a frame. -/
structure ControlFlow (machine : Machine) (invocation : Invocation) (first : Frame)
    (before : List Execution) (stage : Execution) : Prop where
  top : stage.frame.WellFormed machine.config.limits.invocationDepth
    (initialDepth first.depth stage.callers)
  waiting : ∀ inner caller outer, stage.callers = inner ++ caller :: outer →
    caller.frame.WellFormed machine.config.limits.invocationDepth
      (initialDepth first.depth outer) ∧ caller.frame.pc ≤ caller.frame.code.length
  inside : stage.frame.pc ≤ stage.frame.code.length ∨
    stage.callers = [] ∧ stage.frame.pc = first.pc
  callers : stage.callers.length ≤ machine.config.limits.invocationDepth - first.depth
  /-- An instruction that goes through leaves no more depth than allowed, and no target. -/
  goesOn : ∀ after next, stage.frame.isRunning = true →
    machine.step invocation stage.frame stage.world = (after, next) → after.isRunning = true →
    after.depth ≤ machine.config.limits.invocationDepth ∧
      machine.stepInPlace invocation ⟨stage.frame, none, stage.world⟩ = ⟨after, none, next⟩
  /-- A return does not fail for its target. -/
  valid : ∀ instruction record, machine.instructionAt? invocation stage.frame = some instruction →
    instruction.opcode = .RET → stage.frame.isRunning = true →
    (machine.step invocation stage.frame stage.world).1.fault? = some record →
    ∀ target, record.fault ≠ .invalidJump target
  matched : ∀ instruction after next, stage.frame.isRunning = true →
    machine.instructionAt? invocation stage.frame = some instruction →
    instruction.opcode = .RET → stage.frame.returnStack ≠ [] →
    machine.step invocation stage.frame stage.world = (after, next) → after.isRunning = true →
    ReturnsTo machine invocation before stage after

theorem Frame.Orderly.wellFormed {limit initial : Nat} {frame : Frame}
    (orderly : frame.Orderly initial) (limited : frame.returnStack ≠ [] → frame.depth ≤ limit) :
    frame.WellFormed limit initial := by
  constructor
  case depth => exact orderly.depth
  case positive =>
    intro more
    have := List.length_pos_iff.2 more
    have := orderly.depth
    omega
  case returns => exact orderly.returns
  case routines => exact orderly.length_le limited

theorem Limits.check_ne_invalidJump {limits : Limits} {frame : Frame} {instruction : Instruction}
    {fault : Fault} (refused : limits.check frame instruction = .error fault) (target : Int) :
    fault ≠ .invalidJump target := by
  unfold check at refused
  dsimp only at refused
  repeat' split at refused
  all_goals
    cases refused
    try exact Fault.noConfusion

theorem Behaviour.leaveEffect_of_returnsInside {frame : Frame} (returns : frame.ReturnsInside) :
    ∃ effect, leaveEffect frame = .ok effect := by
  unfold leaveEffect
  cases addresses : frame.returnStack with
  | nil => exact ⟨_, rfl⟩
  | cons address rest =>
    have inside : address ≤ frame.code.length :=
      returns address (addresses ▸ List.mem_cons_self)
    dsimp only
    rw [Frame.target_of_le inside]
    exact ⟨_, rfl⟩

namespace Machine

variable {machine : Machine} {invocation : Invocation} {frame : Frame} {world : World}
  {instruction : Instruction}

/-- A step whose instruction can be read fails for a target only if the behaviour does. -/
theorem ne_invalidJump_of_run (found : machine.instructionAt? invocation frame = some instruction)
    {target : Int}
    (behaves : ∀ fault, instruction.behaviour.run (machine.host invocation) instruction
      (frame.charged instruction) world (frame.argumentsOf instruction) = .error fault →
        fault ≠ .invalidJump target)
    (running : frame.isRunning = true) {record : FaultRecord}
    (faulted : (machine.step invocation frame world).1.fault? = some record) :
    record.fault ≠ .invalidJump target := by
  have went := machine.stepTo_step invocation world frame
  generalize machine.step invocation frame world = next at went faulted
  cases went with
  | rests ended => cases ended.symm.trans running
  | ended _ here =>
    unfold instructionAt? at found
    rw [here] at found
    cases found
  | unreadable byte following fault here refused =>
    unfold instructionAt? at found
    rw [here] at found
    dsimp only at found
    rw [refused] at found
    cases found
  | refused other fault also cause =>
    cases faulted
    rcases cause with refused | ⟨_, _, rfl⟩
    · exact Limits.check_ne_invalidJump refused target
    · exact Fault.noConfusion
  | failed other fault also affordable admitted cause =>
    cases faulted
    cases also.symm.trans found
    cases cause with
    | behaviour _ failed => exact behaves fault failed
    | resultCount results ran miscounted => exact Fault.noConfusion
  | overflowed other results acts fault cause =>
    cases faulted
    rw [cause]
    exact Fault.noConfusion
  | acted other results acts fits =>
    cases (Frame.fault?_completed running other results).symm.trans faulted

/-- A return whose addresses are all inside the code never fails for its target. -/
theorem valid_of_RET (standard : machine.table = {}) (returns : frame.ReturnsInside)
    (found : machine.instructionAt? invocation frame = some instruction)
    (isReturn : instruction.opcode = .RET) {record : FaultRecord}
    (running : frame.isRunning = true)
    (faulted : (machine.step invocation frame world).1.fault? = some record) (target : Int) :
    record.fault ≠ .invalidJump target := by
  refine ne_invalidJump_of_run found (fun fault failed => ?_) running faulted
  obtain ⟨effect, leaves⟩ := Behaviour.leaveEffect_of_returnsInside returns
  rw [behaviour_of_standard standard found, isReturn] at failed
  have ran : (Behaviour.leaveEffect (frame.charged instruction)).map
      (fun effect => ({ effect, world } : Results)) = .error fault := failed
  have same : Behaviour.leaveEffect (frame.charged instruction) = .ok effect := leaves
  rw [same] at ran
  cases ran

end Machine

namespace Execution.Charted

variable {machine : Machine} {invocation : Invocation} {first : Frame} {before : List Execution}
  {stage : Execution}

/-- The return that belongs to a call: it takes the innermost address, and the past tells where that
one comes from. -/
theorem returnsTo (standard : machine.table = {})
    (charted : Charted machine invocation first before stage) {instruction : Instruction}
    {after : Frame} {next : World}
    (found : machine.instructionAt? invocation stage.frame = some instruction)
    (isReturn : instruction.opcode = .RET) (more : stage.frame.returnStack ≠ [])
    (step : machine.step invocation stage.frame stage.world = (after, next))
    (goesOn : after.isRunning = true) : ReturnsTo machine invocation before stage after := by
  obtain ⟨address, rest, innermost⟩ := List.exists_cons_of_ne_nil more
  obtain ⟨other, results, acts, rfl, _⟩ := Machine.acts_of_goesOn step goesOn
  cases acts.found.symm.trans found
  have way := acts.leaves standard isReturn innermost
  obtain ⟨earlier, site, between, past, calls, within⟩ :=
    charted.opened [] address rest innermost
  obtain ⟨call, there, isCall, behind⟩ := calls.calls
  have depth := charted.orderly.top.depth
  rw [innermost, List.length_cons] at depth
  refine ⟨earlier, site, between, past, calls.running, calls.callers, calls.code,
    ⟨call, there, isCall, ?_⟩, ?_, ?_, ?_⟩
  · exact (congrArg Frame.Way.pc way).trans behind
  · refine (congrArg Frame.Way.depth way).trans ?_
    rw [calls.depth]
    dsimp only
    omega
  · exact (congrArg Frame.Way.returnStack way).trans calls.returnStack.symm
  · rw [calls.returnStack]
    exact within

theorem controlFlow (standard : machine.table = {})
    (charted : Charted machine invocation first before stage) :
    ControlFlow machine invocation first before stage := by
  have orderly := charted.orderly
  constructor
  case top => exact orderly.top.wellFormed orderly.limited
  case waiting =>
    intro inner caller outer split
    have member : caller ∈ stage.callers := by
      rw [split]
      exact List.mem_append_right _ List.mem_cons_self
    refine ⟨(orderly.waiting inner caller outer split).wellFormed fun _ => ?_,
      orderly.waitingInside caller member⟩
    exact Nat.le_of_lt (orderly.room caller member)
  case inside => exact orderly.inside
  case callers => exact orderly.callers_le
  case goesOn =>
    intro after next running step goesOn
    refine ⟨?_, Machine.stepInPlace_of_goesOn orderly.top.returns step goesOn⟩
    obtain ⟨instruction, results, acts, rfl, _⟩ := Machine.acts_of_goesOn step goesOn
    exact acts.depth_le standard (acts.moves standard)
  case valid =>
    intro instruction record found isReturn running faulted target
    exact Machine.valid_of_RET standard orderly.top.returns found isReturn running faulted target
  case matched =>
    intro instruction after next running found isReturn more step goesOn
    exact charted.returnsTo standard found isReturn more step goesOn

end Execution.Charted

/-- In every script of every chain of the standard machine, at every point between two steps: the
frames are well-formed, and each return belongs to a call. -/
theorem controlFlow_standard (config : Config) (invocation : Invocation) (snapshot : Snapshot)
    (gas : Int) (scripts : List Script) :
    (Machine.standard config).stages invocation snapshot gas scripts =
      ((Machine.standard config).openings invocation snapshot gas scripts).flatMap
        (fun opening => opening.stages (Machine.standard config) invocation) ∧
    ∀ opening ∈ (Machine.standard config).openings invocation snapshot gas scripts,
      opening.callers = [] ∧ opening.frame.returnStack = [] ∧
      ∀ before stage later, opening.stages (Machine.standard config) invocation =
        before ++ stage :: later →
          ControlFlow (Machine.standard config) invocation opening.frame before stage := by
  refine ⟨Machine.stages_eq_flatMap scripts, fun opening member => ?_⟩
  obtain ⟨launch, world, rfl⟩ := Machine.start_of_mem_openings member
  refine ⟨rfl, rfl, fun before stage later split => ?_⟩
  exact (Execution.Charted.of_split rfl split).controlFlow rfl

/-- A script that calls a routine, which calls another. -/
def twoRoutines : Script :=
  { code := [Opcode.CALL.code, 3, Opcode.RET.code, Opcode.CALL.code, 3, Opcode.RET.code,
      Opcode.RET.code] }

/-- The return of the outer routine comes back behind the call of that routine, not of the inner
one. -/
theorem controlFlow_twoRoutines :
    ∃ opening ∈ (Machine.standard {}).openings {} {} 100_000 [twoRoutines],
      ∃ before stage later,
        opening.stages (Machine.standard {}) {} = before ++ stage :: later ∧
        before.map (fun other => other.frame.way) =
          [⟨0, 1, []⟩, ⟨3, 2, [2]⟩, ⟨6, 3, [5, 2]⟩] ∧
        stage.frame.way = ⟨5, 2, [2]⟩ ∧
        later.map (fun other => other.frame.way) = [⟨2, 1, []⟩, ⟨7, 1, []⟩, ⟨7, 1, []⟩] ∧
        ControlFlow (Machine.standard {}) {} opening.frame before stage ∧
        ReturnsTo (Machine.standard {}) {} before stage
          ((Machine.standard {}).step {} stage.frame stage.world).1 := by
  obtain ⟨same, flows⟩ := controlFlow_standard {} {} {} 100_000 [twoRoutines]
  have only : (Machine.standard {}).openings {} {} 100_000 [twoRoutines] =
      [((Machine.standard {}).opening {} 100_000).opening twoRoutines.hash twoRoutines 0] := by
    show _ :: (if _ then _ else _) = _
    exact congrArg (_ :: ·) (ite_self _)
  have member := only ▸ List.mem_singleton_self _
  have ways : ((((Machine.standard {}).opening {} 100_000).opening twoRoutines.hash twoRoutines
      0).stages (Machine.standard {}) {}).map (fun stage => stage.frame.way) =
        [⟨0, 1, []⟩, ⟨3, 2, [2]⟩, ⟨6, 3, [5, 2]⟩] ++
          ⟨5, 2, [2]⟩ :: [⟨2, 1, []⟩, ⟨7, 1, []⟩, ⟨7, 1, []⟩] := by
    decide +kernel
  have returns : ∀ stage ∈ (((Machine.standard {}).opening {} 100_000).opening twoRoutines.hash
      twoRoutines 0).stages (Machine.standard {}) {}, stage.frame.way = ⟨5, 2, [2]⟩ →
        stage.frame.isRunning = true ∧
        ((Machine.standard {}).instructionAt? {} stage.frame).map Instruction.opcode = some .RET ∧
        ((Machine.standard {}).step {} stage.frame stage.world).1.isRunning = true := by
    decide +kernel
  obtain ⟨before, rest, split, past, behind⟩ := List.map_eq_append_iff.1 ways
  obtain ⟨stage, later, rfl, here, future⟩ := List.map_eq_cons_iff.1 behind
  have flow := (flows _ member).2.2 before stage later split
  obtain ⟨running, isReturn, goesOn⟩ :=
    returns stage (split ▸ List.mem_append_right _ List.mem_cons_self) here
  obtain ⟨instruction, found, opcode⟩ := Option.map_eq_some_iff.1 isReturn
  have more : stage.frame.returnStack = [2] := congrArg Frame.Way.returnStack here
  exact ⟨_, member, before, stage, later, split, past, here, future, flow,
    flow.matched instruction _ _ running found opcode (more ▸ List.cons_ne_nil _ _) rfl goesOn⟩

end GasMachine
