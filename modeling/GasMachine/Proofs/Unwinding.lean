import GasMachine.Proofs.Past
import GasMachine.Proofs.RaisedFaults
import GasMachine.Proofs.Recursion

/-!
# How a fault reaches the script

When a contract faults, its caller faults too, then the caller of that one, and so on up to the
script. None of them takes another step (`Execution.stages_of_fallen`). Each faults at the call for
which it has been waiting. The cause, the depth and the place are those of the innermost fault,
because a fault that is handed on is told from one that a frame raises itself; the gas and the
events are those of the innermost frame, because every caller takes over what comes back to it
(`Machine.unwinds_of_split`).
-/

set_option autoImplicit false

namespace GasMachine

/-! ## Handing on a fault

A caller that falls looks the same whether the contract it called has raised the fault or has handed
it on: the cause, the depth and the place inside are kept (`resume_fallen`). So the stages of the
fall can be written down at once, by recursion on the callers. -/

/-- A caller when a contract has faulted, be it the one that it has called or one further inside. -/
def Suspended.fallen (caller : Suspended) (innermost : Frame) (fault : Fault) : Frame :=
  { caller.frame with
    gas := innermost.gas
    created := innermost.created
    notifications := innermost.notifications
    logs := innermost.logs
    pending := none
    status := .faulted ⟨fault, caller.callPc, some .SYSCALL⟩ }

/-- What a fault becomes for all frames that wait for the one which has raised it. -/
def FaultRecord.handedOn (record : FaultRecord) (depth : Nat) : Fault :=
  .contractFault depth record.fault record.pc record.opcode

theorem FaultRecord.message_handedOn (record : FaultRecord) (depth : Nat) :
    (record.handedOn depth).message =
      s!"contract call faulted at depth {depth}: {record.message}" :=
  rfl

theorem FaultRecord.asContractFault_of_isOwn {record : FaultRecord}
    (own : record.fault.isOwn = true) (depth : Nat) :
    record.asContractFault depth = record.handedOn depth := by
  unfold asContractFault
  split
  · rename_i same
    rw [same] at own
    cases own
  · rfl

namespace Suspended

variable (caller other : Suspended) (innermost : Frame) {record : FaultRecord}

theorem resume_eq_fallen (faulted : innermost.fault? = some record) :
    caller.frame.resume innermost caller.callPc =
      caller.fallen innermost (record.asContractFault innermost.depth) := by
  unfold Frame.resume
  dsimp only
  rw [faulted]
  rfl

/-- A caller that has fallen makes its own caller fall just like that. -/
theorem resume_fallen (depth : Nat) :
    other.frame.resume (caller.fallen innermost (record.handedOn depth)) other.callPc =
      other.fallen innermost (record.handedOn depth) :=
  rfl

end Suspended

namespace Execution

variable {machine : Machine} {invocation : Invocation}

/-- The stages in which one caller after the other falls. -/
def falling (innermost : Frame) (fault : Fault) (world : World) (steps scripts : Nat) :
    List Suspended → List Execution
  | [] => []
  | caller :: rest =>
    ⟨caller.fallen innermost fault, rest, world, steps, scripts⟩ ::
      falling innermost fault world steps scripts rest

section Falling

variable (innermost : Frame) (fault : Fault) (world : World) (steps scripts : Nat)

/-- Every caller gets its turn. -/
theorem exists_falling_append (inner : List Suspended) (caller : Suspended)
    (outer : List Suspended) :
    ∃ between, falling innermost fault world steps scripts (inner ++ caller :: outer) =
      between ++ ⟨caller.fallen innermost fault, outer, world, steps, scripts⟩ ::
        falling innermost fault world steps scripts outer := by
  induction inner with
  | nil => exact ⟨[], rfl⟩
  | cons other rest ih =>
    obtain ⟨between, same⟩ := ih
    exact ⟨_ :: between, congrArg (_ :: ·) same⟩

end Falling

/-- Nothing is run and nothing is written meanwhile. -/
theorem still_of_mem_falling {innermost : Frame} {fault : Fault} {world : World}
    {steps scripts : Nat} {callers : List Suspended} {stage : Execution}
    (member : stage ∈ falling innermost fault world steps scripts callers) :
    stage.frame.isRunning = false ∧ stage.steps = steps ∧ stage.world = world := by
  induction callers with
  | nil => cases member
  | cons caller rest ih =>
    rcases List.mem_cons.1 member with rfl | later
    · exact ⟨rfl, rfl, rfl⟩
    · exact ih later

/-- Once a frame has ended that makes its caller fall, all callers fall and nothing else happens. -/
theorem stages_of_falling {frame innermost : Frame} {record : FaultRecord} {depth : Nat}
    (ended : frame.isRunning = false) (callers : List Suspended)
    (falls : ∀ caller : Suspended, caller.frame.resume frame caller.callPc =
      caller.fallen innermost (record.handedOn depth)) (world : World) (steps scripts : Nat) :
    stages ⟨frame, callers, world, steps, scripts⟩ machine invocation =
      ⟨frame, callers, world, steps, scripts⟩ ::
        falling innermost (record.handedOn depth) world steps scripts callers := by
  induction callers generalizing frame with
  | nil => exact stages_of_finished (by rw [isFinished, ended]; rfl)
  | cons caller rest ih =>
    rw [stages_tick (by rw [isFinished, ended]; rfl), tick_of_ended machine invocation ended,
      falls caller]
    refine congrArg (_ :: ·) (ih rfl fun other => ?_)
    exact caller.resume_fallen other innermost depth

end Execution

/-! ## Where the callers wait

For each caller there is the stage of the past at which it made its call, and between then and now
it was never on top. That is an invariant of stages with their history, like the one for open
routines. -/

/-- A caller that waits for a contract since a stage: it has called the contract there, and has been
left alone since. -/
structure Suspended.WaitsSince (machine : Machine) (invocation : Invocation) (caller : Suspended)
    (outer : List Suspended) (site : Execution) : Prop where
  running : site.frame.isRunning = true
  callers : site.callers = outer
  pc : site.frame.pc = caller.callPc
  calls : machine.serviceAt? invocation site.frame = some .contractCall
  left : (machine.step invocation site.frame site.world).1.pending.isSome = true ∧
    (machine.step invocation site.frame site.world).1.settled = caller.frame

/-- Every caller has been waiting since a stage of the past. -/
structure Execution.Traced (machine : Machine) (invocation : Invocation) (past : List Execution)
    (execution : Execution) : Prop where
  calm : execution.frame.pending = none
  waiting : ∀ inner caller outer, execution.callers = inner ++ caller :: outer →
    ∃ site ∈ past, caller.WaitsSince machine invocation outer site

namespace Execution.Traced

variable {machine : Machine} {invocation : Invocation} {past : List Execution}
  {execution : Execution}

theorem start (frame : Frame) (calm : frame.pending = none) (world : World) :
    Traced machine invocation [] { frame, world } := by
  refine ⟨calm, ?_⟩
  intro inner caller outer split
  cases inner <;> cases split

theorem tick (standard : machine.table = {}) (traced : Traced machine invocation past execution)
    (unfinished : execution.isFinished = false) :
    Traced machine invocation (past ++ [execution]) (execution.tick machine invocation) := by
  obtain ⟨calm, waiting⟩ := traced
  have still : ∀ inner caller outer, execution.callers = inner ++ caller :: outer →
      ∃ site ∈ past ++ [execution], caller.WaitsSince machine invocation outer site := by
    intro inner caller outer split
    obtain ⟨site, member, waits⟩ := waiting inner caller outer split
    exact ⟨site, List.mem_append_left _ member, waits⟩
  refine ⟨pending_tick machine invocation unfinished, ?_⟩
  have move := tickTo_tick machine invocation unfinished
  generalize execution.tick machine invocation = next at move ⊢
  cases move with
  | stays running after world step ended => exact still
  | calls running after world launch step pending goesOn =>
    intro inner caller outer split
    cases inner with
    | nil =>
      cases split
      have calls := Machine.serviceAt?_of_pending standard calm step
        (Option.isSome_of_eq_some pending) goesOn
      refine ⟨execution, List.mem_append_right _ (List.mem_singleton_self _), running, rfl, rfl,
        calls, ?_⟩
      rw [step]
      exact ⟨Option.isSome_of_eq_some pending, rfl⟩
    | cons other inner =>
      obtain ⟨rfl, below⟩ := List.cons_eq_cons.1 split
      exact still inner caller outer below
  | returns ended caller rest callers =>
    intro inner other outer split
    refine still (caller :: inner) other outer ?_
    rw [callers]
    exact congrArg (caller :: ·) split

end Execution.Traced

/-! ## From the innermost frame to the script

The fault of the innermost frame is its own (`raisesOwn_step`), so it has not been handed on before,
and from there the fall is the list written down above. -/

/-- What happens after a step in a called contract that has ended in a fault. -/
structure Machine.Unwinds (machine : Machine) (invocation : Invocation) (opening : Execution)
    (before : List Execution) (stage : Execution) (later : List Execution) (innermost : Frame)
    (next : World) (record : FaultRecord) : Prop where
  /-- The frame itself is at the front of what follows, and then every caller falls. -/
  falls : later =
    { stage with frame := innermost.settled, world := next, steps := stage.steps + 1 } ::
      Execution.falling innermost (record.handedOn innermost.depth) next (stage.steps + 1)
        stage.scripts stage.callers
  /-- No frame takes another step. -/
  still : ∀ other ∈ later, other.frame.isRunning = false ∧ other.steps = stage.steps + 1 ∧
    other.world = next
  /-- Each caller falls at the call at which it has been waiting. -/
  callers : ∀ inner caller outer, stage.callers = inner ++ caller :: outer →
    (∃ site ∈ before, caller.WaitsSince machine invocation outer site) ∧
    ∃ fallen ∈ later, fallen.callers = outer ∧
      fallen.frame = caller.fallen innermost (record.handedOn innermost.depth)
  /-- The message of all of them is that of the innermost fault, with the depth in front. -/
  text : (record.handedOn innermost.depth).message =
    s!"contract call faulted at depth {innermost.depth}: {record.message}"
  /-- The run ends with the script, which has fallen like all the others. -/
  result : ∀ inner script, stage.callers = inner ++ [script] →
    opening.run machine invocation =
      ⟨script.fallen innermost (record.handedOn innermost.depth), [], next, stage.steps + 1,
        stage.scripts⟩

namespace Machine

/-- If a contract that has been called at any depth of nesting faults, all callers fault with it. -/
theorem unwinds_of_split (config : Config) (invocation : Invocation) (launch : Launch)
    (start : World) {before later : List Execution} {stage : Execution}
    (split : Execution.stages { frame := launch.start, world := start } (standard config)
      invocation = before ++ stage :: later)
    (running : stage.frame.isRunning = true)
    {innermost : Frame} {next : World} {record : FaultRecord}
    (step : (standard config).step invocation stage.frame stage.world = (innermost, next))
    (faulted : innermost.fault? = some record) :
    (standard config).Unwinds invocation { frame := launch.start, world := start } before stage
      later innermost next record := by
  have ended : innermost.settled.isRunning = false :=
    Frame.isRunning_eq_false_of_fault? faulted
  have traced : stage.Traced (standard config) invocation before :=
    Execution.forall_splits (Execution.Traced.start launch.start rfl start)
      (fun _ _ unfinished traced => traced.tick rfl unfinished) split
  have own : record.fault.isOwn = true := by
    apply raisesOwn_step running stage.world
    rw [step]
    exact faulted
  have falls : later =
      { stage with frame := innermost.settled, world := next, steps := stage.steps + 1 } ::
        Execution.falling innermost (record.handedOn innermost.depth) next (stage.steps + 1)
          stage.scripts stage.callers := by
    have whole := Execution.stages_of_split split
    have unfinished : stage.isFinished = false := by
      rw [Execution.isFinished, running]
      rfl
    rw [Execution.stages_tick unfinished, Execution.tick_of_calm running step (.inr ended)] at whole
    rw [← (List.cons_eq_cons.1 whole).2]
    apply Execution.stages_of_falling ended
    intro caller
    have same : innermost.settled.fault? = some record := faulted
    rw [caller.resume_eq_fallen innermost.settled same, FaultRecord.asContractFault_of_isOwn own]
    rfl
  constructor
  case falls => exact falls
  case still =>
    intro other member
    rw [falls] at member
    rcases List.mem_cons.1 member with rfl | below
    · exact ⟨ended, rfl, rfl⟩
    · exact Execution.still_of_mem_falling below
  case callers =>
    intro inner caller outer among
    refine ⟨traced.waiting inner caller outer among, ?_⟩
    obtain ⟨between, turns⟩ := Execution.exists_falling_append innermost
      (record.handedOn innermost.depth) next (stage.steps + 1) stage.scripts inner caller outer
    rw [falls, among, turns]
    refine ⟨_, List.mem_cons_of_mem _ (List.mem_append_right _ List.mem_cons_self), rfl, rfl⟩
  case text => exact record.message_handedOn innermost.depth
  case result =>
    intro inner script among
    obtain ⟨between, turns⟩ := Execution.exists_falling_append innermost
      (record.handedOn innermost.depth) next (stage.steps + 1) stage.scripts inner script []
    have last := Execution.getLast?_stages (standard config) invocation
      { frame := launch.start, world := start }
    have order {α : Type} (first second : List α) (one two three : α) :
        first ++ one :: two :: (second ++ [three]) =
          (first ++ one :: two :: second) ++ [three] := by
      simp
    rw [split, falls, among, turns, Execution.falling, order, List.getLast?_concat] at last
    exact (Option.some.inj last).symm

/-- Code that calls the contract with a hash. -/
def passOn (hash : ScriptHash) : Bytes :=
  Opcode.PUSHNULL.code :: Opcode.PUSHDATA1.code :: 20 :: hash.bytes
    ++ Opcode.SYSCALL.code :: Bytes.ofNat 4 Service.contractCall.id

/-- A world with a contract that logs a letter and aborts, and with another that calls it. -/
def brittleWorld : World :=
  let ones : ScriptHash := ⟨List.replicate 20 1, rfl⟩
  let aborting : Bytes := [Opcode.PUSHDATA1.code, 1, 0x61]
    ++ (Opcode.SYSCALL.code :: Bytes.ofNat 4 Service.log.id) ++ [Opcode.ABORT.code]
  let contracts := (Std.ExtTreeMap.empty.insert ones aborting).insert Hash.zero
    (Opcode.PUSH1.code :: passOn ones)
  { store := { base := { contents := { contracts } } } }

/-- A script that calls the second contract. -/
def trustingScript : Launch :=
  { code := passOn Hash.zero, gas := 100_000_000, depth := 1, entry := Hash.zero, calling := none }

/-- The fault of the first contract goes up through the second one to the script. -/
theorem unwinds_trustingScript :
    let opening : Execution := { frame := trustingScript.start, world := brittleWorld }
    let machine := standard {}
    ∃ before stage later innermost next,
      (opening.stages machine {} = before ++ stage :: later ∧ stage.frame.isRunning = true ∧
        machine.step {} stage.frame stage.world = (innermost, next) ∧
        innermost.fault? = some ⟨.abort, 8, some .ABORT⟩) ∧
      (stage.callers.map Suspended.callPc = [24, 23] ∧ innermost.depth = 3 ∧
        innermost.gas = 96_999_250 ∧ innermost.logs.length = 1) ∧
      ((opening.run machine {}).frame.fault? =
          some ⟨.contractFault 3 .abort 8 (some .ABORT), 23, some .SYSCALL⟩ ∧
        (opening.run machine {}).frame.gas = 96_999_250 ∧
        (opening.run machine {}).frame.logs.length = 1) ∧
      machine.Unwinds {} opening before stage later innermost next ⟨.abort, 8, some .ABORT⟩ := by
  intro opening machine
  have reached : (opening.stages machine {}).any fun stage =>
      stage.frame.isRunning = true ∧
        (machine.step {} stage.frame stage.world).1.fault? = some ⟨.abort, 8, some .ABORT⟩ ∧
        stage.callers.map Suspended.callPc = [24, 23] ∧
        (machine.step {} stage.frame stage.world).1.depth = 3 ∧
        (machine.step {} stage.frame stage.world).1.gas = 96_999_250 ∧
        (machine.step {} stage.frame stage.world).1.logs.length = 1 := by
    decide +kernel
  obtain ⟨stage, member, facts⟩ := List.any_eq_true.1 reached
  obtain ⟨running, faulted, callers, innermost⟩ := of_decide_eq_true facts
  obtain ⟨before, later, split⟩ := List.append_of_mem member
  exact ⟨before, stage, later, _, _, ⟨split, running, rfl, faulted⟩, ⟨callers, innermost⟩,
    by decide +kernel, unwinds_of_split {} {} trustingScript brittleWorld split running rfl faulted⟩

end Machine

end GasMachine
