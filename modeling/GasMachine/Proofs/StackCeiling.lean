import GasMachine.Proofs.History
import GasMachine.Proofs.StackSize

/-!
# The stack ceiling

A frame only checks the size that it works with, and a result is put on the stack of a caller
without any check. Still the items on the stacks of all frames together never exceed the ceiling,
because a caller always has room for one more item (`Sized.reserved`): it gave two away when it
called. A larger result was on the stack of the contract and was counted there.
-/

set_option autoImplicit false

namespace GasMachine

/-! ## The invariant

Beside the sizes themselves the invariant keeps a reserve: every caller that waits has room for one
item more. It has given two items away for the call, and the result is one item, or was among the
items of the contract before. That is why the return needs no check. -/

/-- What holds of a frame and its callers at any time. -/
structure Sized (limit : Nat) (frame : Frame) (callers : List Suspended) : Prop where
  counted : frame.Counted
  callersCounted : ∀ caller ∈ callers, caller.frame.Counted
  linked : frame.Linked callers
  /-- A faulted frame may exceed the ceiling: that may be its fault. -/
  fits : frame.fault? = none → frame.totalSize ≤ limit
  /-- Every caller has room for a result. -/
  reserved : ∀ caller ∈ callers, caller.frame.totalSize + 1 ≤ limit

/-- A step that goes through leaves a frame below the ceiling if it was. -/
theorem Machine.fits_step (machine : Machine) (invocation : Invocation) {frame : Frame}
    (world : World)
    (fits : frame.fault? = none → frame.totalSize ≤ machine.config.limits.stackSize) :
    (machine.step invocation frame world).1.fault? = none →
      (machine.step invocation frame world).1.totalSize ≤ machine.config.limits.stackSize := by
  have went := machine.stepTo_step invocation world frame
  generalize machine.step invocation frame world = next at went ⊢
  intro healthy
  cases went with
  | rests ended => exact fits healthy
  | ended running here => exact fits (Frame.fault?_eq_none_of_isRunning running)
  | acted instruction results acts small => exact small
  | _ => cases healthy

namespace Sized

variable {limit : Nat} {frame : Frame} {callers : List Suspended}

theorem totalSize (sized : Sized limit frame callers) :
    frame.totalSize =
      frame.itemCount + (callers.map fun caller => caller.frame.itemCount).sum :=
  sized.linked.totalSize sized.counted sized.callersCounted

theorem settled (sized : Sized limit frame callers) : Sized limit frame.settled callers :=
  ⟨sized.counted.settled, sized.callersCounted, sized.linked.congr rfl rfl, sized.fits,
    sized.reserved⟩

theorem step {machine : Machine} (invocation : Invocation) (world : World)
    (sized : Sized machine.config.limits.stackSize frame callers) :
    Sized machine.config.limits.stackSize (machine.step invocation frame world).1 callers := by
  obtain ⟨stack, alt⟩ := frame.step_callers machine invocation world
  constructor
  case counted => exact sized.counted.step machine invocation world
  case callersCounted => exact sized.callersCounted
  case linked => exact sized.linked.congr stack alt
  case fits => exact machine.fits_step invocation world sized.fits
  case reserved => exact sized.reserved

/-- A call gives up two items, and what was nested inside the second one goes to the contract. -/
theorem size_of_calls {before after : Frame} {launch : Launch} (counted : before.Counted)
    (afterCounted : after.Counted) (calls : Machine.Calls before after launch) :
    launch.start.itemCount + after.totalSize + 2 ≤ before.totalSize := by
  obtain ⟨hash, parameters, stack, read⟩ := calls.stack
  have held := Service.readCallArguments_ensures parameters _ read
  have given : launch.start.itemCount =
      launch.residue.stack.length + Item.nestedCountAll launch.residue.stack := by
    show launch.residue.itemCount = _
    rw [Residue.itemCount, calls.launchAlt]
    rfl
  have kept : before.itemCount =
      after.itemCount + 2 + (hash.nestedCount + parameters.nestedCount) := by
    rw [Residue.itemCount, Residue.itemCount, stack, calls.alt, List.length_cons,
      List.length_cons, Item.nestedCountAll_cons, Item.nestedCountAll_cons]
    omega
  unfold Frame.totalSize
  rw [counted.ownSize, afterCounted.ownSize, calls.callerStack, calls.callerAlt, given, kept]
  omega

/-- A contract and its caller fit if the caller did before the call, and one item more does. -/
theorem call {before after : Frame} {launch : Launch} (sized : Sized limit before callers)
    (healthy : before.fault? = none) (next : Sized limit after callers)
    (calls : Machine.Calls before after launch) (callPc : Nat) :
    Sized limit launch.start (⟨after.settled, callPc⟩ :: callers) := by
  have fits := sized.fits healthy
  have size := size_of_calls sized.counted next.counted calls
  have linked : launch.start.Linked (⟨after.settled, callPc⟩ :: callers) :=
    ⟨calls.launchCallerStack, calls.launchCallerAlt, next.linked.congr rfl rfl⟩
  constructor
  case counted => exact Frame.Counted.start launch
  case callersCounted =>
    intro caller member
    rcases List.mem_cons.1 member with rfl | earlier
    · exact next.counted.settled
    · exact next.callersCounted caller earlier
  case linked => exact linked
  case fits =>
    intro _
    rw [linked.totalSize_cons, (Frame.Counted.start launch).ownSize]
    show launch.start.itemCount + after.totalSize ≤ limit
    omega
  case reserved =>
    intro caller member
    rcases List.mem_cons.1 member with rfl | earlier
    · show after.totalSize + 1 ≤ limit
      omega
    · exact next.reserved caller earlier

/-- A result fits: it was counted on the stack of the contract, or it is a single item. -/
theorem resume {caller : Suspended} (sized : Sized limit frame (caller :: callers)) :
    Sized limit (caller.frame.resume frame caller.callPc) callers := by
  have counted := sized.callersCounted caller List.mem_cons_self
  obtain ⟨stack, alt⟩ := caller.frame.resume_callers frame caller.callPc
  constructor
  case counted => exact counted.resume frame caller.callPc
  case callersCounted =>
    intro other member
    exact sized.callersCounted other (List.mem_cons_of_mem caller member)
  case linked => exact sized.linked.2.2.congr stack alt
  case fits =>
    intro healthy
    obtain ⟨halted, size⟩ := Frame.totalSize_resume healthy
    have fits := sized.fits halted
    have room := sized.reserved caller List.mem_cons_self
    have top := frame.top_le_itemCount
    rw [sized.linked.totalSize_cons, sized.counted.ownSize] at fits
    omega
  case reserved =>
    intro other member
    exact sized.reserved other (List.mem_cons_of_mem caller member)

end Sized

namespace Execution

/-- The items on the stacks of all frames. -/
def itemCount (execution : Execution) : Nat :=
  execution.frame.itemCount + (execution.callers.map fun caller => caller.frame.itemCount).sum

/-- What the ceiling promises of an execution: the frame on top knows the number of items of all
frames, and unless it has faulted, they are not too many. -/
structure WithinCeiling (limit : Nat) (execution : Execution) : Prop where
  counted : execution.frame.totalSize = execution.itemCount
  bounded : execution.frame.fault? = none → execution.itemCount ≤ limit

end Execution

theorem Sized.withinCeiling {limit : Nat} {execution : Execution}
    (sized : Sized limit execution.frame execution.callers) :
    execution.WithinCeiling limit :=
  ⟨sized.totalSize, fun healthy =>
    Nat.le_trans (Nat.le_of_eq sized.totalSize.symm) (sized.fits healthy)⟩

/-! ## Runs and chains

The three ways a tick can go were shown above (`Sized.step`, `Sized.call`, `Sized.resume`). Between
two scripts nobody waits, and what is handed on fits because the frame that left it did. -/

namespace Machine

variable {machine : Machine} {invocation : Invocation}

theorem sized_tick (standard : machine.table = {}) {execution : Execution}
    (unfinished : execution.isFinished = false) (calm : execution.frame.pending = none)
    (sized : Sized machine.config.limits.stackSize execution.frame execution.callers) :
    Sized machine.config.limits.stackSize (execution.tick machine invocation).frame
      (execution.tick machine invocation).callers := by
  have move := Execution.tickTo_tick machine invocation unfinished
  have stepped := sized.step invocation execution.world
  generalize execution.tick machine invocation = next at move ⊢
  cases move with
  | stays running after world step calm =>
    rw [step] at stepped
    exact stepped.settled
  | calls running after world launch step pending goesOn =>
    have calls := calls_of_pending standard calm step pending goesOn
    rw [step] at stepped
    exact sized.call (Frame.fault?_eq_none_of_isRunning running) stepped calls execution.frame.pc
  | returns ended caller rest callers =>
    rw [callers] at sized
    exact sized.resume

/-- Between two scripts nobody waits, and what the last one left fits unless it faulted. -/
structure Between (limit : Nat) (progress : Progress) : Prop where
  callerStack : progress.residue.callerStack = 0
  callerAlt : progress.residue.callerAlt = 0
  fits : progress.fault = none → progress.residue.itemCount ≤ limit

theorem sized_opening {limit : Nat} {progress : Progress} (healthy : progress.fault = none)
    (between : Between limit progress) (entry : ScriptHash) (script : Script) (remaining : Nat) :
    Sized limit (progress.opening entry script remaining).frame [] := by
  have linked : (progress.opening entry script remaining).frame.Linked [] :=
    ⟨between.callerStack, between.callerAlt⟩
  have counted := Frame.Counted.start (progress.launch entry script remaining)
  constructor
  case counted => exact counted
  case callersCounted =>
    intro caller member
    cases member
  case linked => exact linked
  case fits =>
    intro _
    rw [linked.totalSize counted fun caller member => nomatch member]
    exact between.fits healthy
  case reserved =>
    intro caller member
    cases member

/-- What every stage has: right sizes, and no contract that has not started. -/
theorem sized_invariant (standard : machine.table = {}) :
    Invariant machine invocation
      (fun stage => stage.frame.pending = none ∧
        Sized machine.config.limits.stackSize stage.frame stage.callers)
      (Between machine.config.limits.stackSize) := by
  constructor
  case opening =>
    intro progress entry script remaining healthy between
    exact ⟨rfl, sized_opening healthy between entry script remaining⟩
  case tick =>
    rintro execution unfinished ⟨calm, sized⟩
    exact ⟨execution.pending_tick machine invocation unfinished,
      sized_tick standard unfinished calm sized⟩
  case closing =>
    rintro progress execution finished ⟨_, sized⟩
    have alone : execution.callers = [] := by
      simp [Execution.isFinished] at finished
      exact finished.2
    rw [alone] at sized
    refine ⟨sized.linked.1, sized.linked.2, fun healthy => ?_⟩
    exact Nat.le_trans (Nat.le_of_eq sized.totalSize.symm) (sized.fits healthy)

/-- At every stage of a chain, and after every step before a contract starts, the items on the
stacks of all frames are counted and below the ceiling. -/
theorem withinCeiling_of_mem_stages (config : Config) (invocation : Invocation)
    (snapshot : Snapshot) (gas : Int) (scripts : List Script) (stage : Execution)
    (member : stage ∈ (standard config).stages invocation snapshot gas scripts) :
    stage.WithinCeiling config.limits.stackSize ∧
      (stage.advance (standard config) invocation).WithinCeiling config.limits.stackSize := by
  have start : Between config.limits.stackSize ((standard config).opening snapshot gas) :=
    ⟨rfl, rfl, fun _ => Nat.zero_le _⟩
  obtain ⟨_, sized⟩ := (sized_invariant rfl).chain snapshot gas start scripts stage member
  refine ⟨sized.withinCeiling, Sized.withinCeiling ?_⟩
  exact sized.step invocation stage.world

/-- A snapshot with a contract that pushes 1. -/
def oneContract : Snapshot :=
  let hash : ScriptHash := ⟨List.replicate 20 0, rfl⟩
  { contents := { contracts := Std.ExtTreeMap.empty.insert hash [Opcode.PUSH1.code] } }

/-- A script that calls the contract without arguments. -/
def oneCall : Script :=
  { code := Opcode.PUSHNULL.code :: Opcode.PUSHDATA1.code :: 20 :: List.replicate 20 0
      ++ Opcode.SYSCALL.code :: Bytes.ofNat 4 Service.contractCall.id }

/-- The stage at which the contract has returned and its result is on the stack of the caller. -/
theorem withinCeiling_after_return :
    ∃ stage ∈ (standard {}).stages {} oneContract 2_000_000 [oneCall],
      (stage.scripts = 2 ∧ stage.callers.length = 0 ∧ stage.itemCount = 1) ∧
        stage.WithinCeiling 2048 ∧ (stage.advance (standard {}) {}).WithinCeiling 2048 := by
  have reached : ((standard {}).stages {} oneContract 2_000_000 [oneCall]).any
      (fun stage => stage.scripts = 2 ∧ stage.callers.length = 0 ∧ stage.itemCount = 1) := by
    decide +kernel
  obtain ⟨stage, member, returned⟩ := List.any_eq_true.1 reached
  exact ⟨stage, member, of_decide_eq_true returned,
    withinCeiling_of_mem_stages {} {} oneContract 2_000_000 [oneCall] stage member⟩

end Machine

end GasMachine
