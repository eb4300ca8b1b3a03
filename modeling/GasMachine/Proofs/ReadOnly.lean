import GasMachine.Proofs.Journal
import GasMachine.Proofs.Settlement

/-!
# Chains that may not write

Only a chain that is run for an application may write. This is asked in one place, where a system
call hands over to its service; neither the table nor the choice of services can go round it,
because no behaviour but the system call changes the store or makes a contract
(`Behaviour.run_readsOnly`). So under any other trigger nothing is held back for the snapshot at any
time, in no frame a contract is made, and the snapshot comes back as it was.
-/

set_option autoImplicit false

namespace GasMachine

/-! ## System calls

The one case to look at is the system call, which asks the service for its triggers before it runs
it. All services that write allow one trigger only. -/

namespace Service

variable {service : Service} {trigger : Trigger}

/-- A service that makes a change to the store runs for applications only. -/
theorem Changes.eq_application {limits : Limits} {arguments : List Item} {change : Write}
    (changes : service.Changes limits arguments change) (allowed : service.allows trigger = true) :
    trigger = .application := by
  have one : trigger ∈ [Trigger.application] := by
    cases changes <;> exact List.contains_iff_mem.1 allowed
  exact List.mem_singleton.1 one

theorem eq_application_of_contractCreate (allowed : contractCreate.allows trigger = true) :
    trigger = .application :=
  List.mem_singleton.1 (List.contains_iff_mem.1 allowed)

end Service

/-- What an instruction gives that neither changes the store nor makes a contract. -/
structure Results.ReadsOnly (world : World) (results : Results) : Prop where
  store : results.world.store = world.store
  effect : results.effect.service? ≠ some .contractCreate

theorem Behaviour.run_readsOnly (behaviour : Behaviour) {host : Host} (instruction : Instruction)
    (frame : Frame) (world : World) (arguments : Arguments)
    (readOnly : host.invocation.trigger ≠ .application) :
    Ensures (Results.ReadsOnly world) (behaviour.run host instruction frame world arguments) := by
  by_cases system : behaviour = .systemCall
  · subst system
    refine Ensures.bind_any fun service => ?_
    dsimp only
    split
    · rename_i allowed
      intro results served
      constructor
      case store =>
        rcases service.run_changes _ _ _ _ results served with same | ⟨change, changes, _⟩
        · exact same
        · exact absurd (changes.eq_application allowed) readOnly
      case effect =>
        intro creates
        cases service.run_service? _ _ _ _ results served _ creates
        exact readOnly (Service.eq_application_of_contractCreate allowed)
    · exact Ensures.throw _
  · refine (run_plain host instruction frame world arguments system).mono fun results plain => ?_
    constructor
    case store => rw [plain.world]
    case effect =>
      rw [Effect.service?_of_isMove plain.move]
      exact nofun

/-! ## Frames

The set of contracts made goes from caller to contract and back, so a contract that has not started
yet has to be looked at as well. -/

namespace Frame

/-- Neither a frame nor the contract that it has left pending knows of a contract made. -/
structure MadeNone (frame : Frame) : Prop where
  created : frame.created = ∅
  pending : ∀ launch, frame.pending = some launch → launch.residue.created = ∅

namespace MadeNone

variable {frame : Frame}

theorem start {launch : Launch} (none : launch.residue.created = ∅) : launch.start.MadeNone :=
  ⟨none, nofun⟩

theorem settled (madeNone : frame.MadeNone) : frame.settled.MadeNone :=
  ⟨madeNone.created, nofun⟩

/-- A caller goes on with the contracts that the called contract knows of. -/
theorem resume {callee : Frame} (madeNone : callee.MadeNone) (caller : Frame) (callPc : Nat) :
    (caller.resume callee callPc).MadeNone := by
  constructor
  case created =>
    have same := congrArg Record.created (caller.record_resume callee callPc)
    exact same.trans madeNone.created
  case pending =>
    rw [Execution.pending_resume]
    exact nofun

theorem completed (madeNone : frame.MadeNone) (instruction : Instruction) {results : Results}
    (idle : results.effect.service? ≠ some .contractCreate) :
    (frame.completed instruction results).MadeNone := by
  unfold Frame.completed
  cases effect : results.effect with
  | create hash =>
    rw [effect] at idle
    exact absurd rfl idle
  | call code items =>
    -- The contract takes over what its caller knows of, which is nothing.
    refine ⟨rfl, fun launch pending => ?_⟩
    cases pending
    exact madeNone.created
  | _ => exact ⟨madeNone.created, madeNone.pending⟩

theorem step {machine : Machine} {invocation : Invocation}
    (readOnly : invocation.trigger ≠ .application) (madeNone : frame.MadeNone) (world : World) :
    (machine.step invocation frame world).1.MadeNone := by
  have keeps {instruction : Instruction} {results : Results}
      (acts : machine.Acts invocation frame world instruction results) :
      (frame.completed instruction results).MadeNone :=
    madeNone.completed instruction
      (instruction.behaviour.run_readsOnly _ _ _ _ readOnly results acts.ran).effect
  have went := machine.stepTo_step invocation world frame
  generalize machine.step invocation frame world = next at went ⊢
  cases went with
  | overflowed instruction results acts fault cause =>
    exact ⟨(keeps acts).created, (keeps acts).pending⟩
  | acted instruction results acts fits => exact keeps acts
  | _ => exact ⟨madeNone.created, madeNone.pending⟩

end MadeNone

end Frame

theorem Machine.store_step_of_readOnly {machine : Machine} {invocation : Invocation}
    (readOnly : invocation.trigger ≠ .application) (frame : Frame) (world : World) :
    (machine.step invocation frame world).2.store = world.store := by
  rcases machine.world_step invocation world frame with same | ⟨instruction, results, acts, same⟩
  · rw [same]
  · rw [same]
    exact (instruction.behaviour.run_readsOnly _ _ _ _ readOnly results acts.ran).store

/-! ## Executions

The invariant: the store is the one with which the chain began, and no frame knows of a contract.
Nothing is asked of the table or of the services. -/

namespace Execution

/-- Nothing is held back for the snapshot, and no frame knows of a contract made. -/
structure ReadsOnly (snapshot : Snapshot) (execution : Execution) : Prop where
  store : execution.world.store = LayeredStore.begin { base := snapshot }
  frame : execution.frame.MadeNone
  callers : ∀ caller ∈ execution.callers, caller.frame.MadeNone

namespace ReadsOnly

variable {snapshot : Snapshot} {execution : Execution} {machine : Machine}
  {invocation : Invocation}

theorem advance (machine : Machine) (readOnly : invocation.trigger ≠ .application)
    (reads : execution.ReadsOnly snapshot) :
    (execution.advance machine invocation).ReadsOnly snapshot :=
  ⟨(Machine.store_step_of_readOnly readOnly _ _).trans reads.store,
    reads.frame.step readOnly execution.world, reads.callers⟩

theorem tick (readOnly : invocation.trigger ≠ .application) (reads : execution.ReadsOnly snapshot)
    (unfinished : execution.isFinished = false) :
    (execution.tick machine invocation).ReadsOnly snapshot := by
  have move := tickTo_tick machine invocation unfinished
  obtain ⟨store, stepped, callers⟩ := reads.advance machine readOnly
  unfold Execution.advance at store stepped
  generalize execution.tick machine invocation = next at move ⊢
  cases move with
  | stays running after world step calm =>
    rw [step] at store stepped
    exact ⟨store, stepped.settled, callers⟩
  | calls running after world launch step pending goesOn =>
    rw [step] at store stepped
    refine ⟨store, Frame.MadeNone.start (stepped.pending launch pending), ?_⟩
    exact List.forall_mem_cons.2 ⟨stepped.settled, callers⟩
  | returns ended caller rest waiting =>
    have others := reads.callers
    rw [waiting] at others
    refine ⟨reads.store, reads.frame.resume caller.frame caller.callPc, ?_⟩
    exact (List.forall_mem_cons.1 others).2

end ReadsOnly

end Execution

/-! ## Chains

A layer without writes has nothing to hand on, however the chain ends. -/

namespace Machine

variable {machine : Machine} {invocation : Invocation}

theorem readsOnly_invariant (machine : Machine) (readOnly : invocation.trigger ≠ .application)
    (snapshot : Snapshot) :
    Invariant machine invocation (Execution.ReadsOnly snapshot)
      (fun progress => progress.residue.created = ∅ ∧
        progress.world.store = LayeredStore.begin { base := snapshot }) where
  opening _ _ _ _ _ between :=
    ⟨between.2, Frame.MadeNone.start between.1, List.forall_mem_nil _⟩
  tick _ unfinished reads := reads.tick readOnly unfinished
  closing _ _ _ reads := ⟨reads.frame.created, reads.store⟩

/-- If nothing is held back, there is nothing to hand on. -/
theorem settle_of_begin {progress : Progress} {snapshot : Snapshot}
    (store : progress.world.store = LayeredStore.begin { base := snapshot }) :
    progress.settle.2 = snapshot := by
  unfold Progress.settle
  rw [store]
  split <;> rfl

/-- A chain with a trigger other than that of an application. -/
structure KeepsSnapshot (machine : Machine) (invocation : Invocation) (snapshot : Snapshot)
    (gas : Int) (scripts : List Script) : Prop where
  /-- At every stage and after the step that is taken from it, nothing is held back, and no frame
  knows of a contract made. -/
  stages : ∀ stage ∈ machine.stages invocation snapshot gas scripts,
    stage.ReadsOnly snapshot ∧ (stage.advance machine invocation).ReadsOnly snapshot
  /-- The snapshot comes back as it was, with no change made to it. -/
  snapshot : (machine.executeChain invocation snapshot gas scripts).snapshot = snapshot

/-- Unless a chain is run for an application it writes nothing, whatever its scripts are, whatever
entries the table has and whichever services there are, and however the chain ends. -/
theorem keepsSnapshot_of_ne_application (machine : Machine) (invocation : Invocation)
    (snapshot : Snapshot) (gas : Int) (scripts : List Script)
    (readOnly : invocation.trigger ≠ .application) :
    machine.KeepsSnapshot invocation snapshot gas scripts := by
  have invariant := readsOnly_invariant machine readOnly snapshot
  constructor
  case stages =>
    intro stage member
    have reads := invariant.chain snapshot gas ⟨rfl, rfl⟩ scripts stage member
    exact ⟨reads, reads.advance machine readOnly⟩
  case snapshot =>
    have final := invariant.progress snapshot gas ⟨rfl, rfl⟩ scripts
    cases scripts with
    | nil => rfl
    | cons first rest =>
      rw [(machine.executeChain_settle invocation snapshot gas first rest).2]
      exact settle_of_begin final.2

/-- A machine on which `PUSHDATA1` makes system calls too. -/
def doubleCaller : Machine :=
  { table := ({} : InstructionTable).insert .PUSHDATA1 Opcode.SYSCALL.standardEntry }

/-- A snapshot with a contract that makes a contract. -/
def maker : Snapshot :=
  let code := [Opcode.PUSHDATA2.code, 1, 0, Opcode.NOP.code]
    ++ Opcode.PUSHDATA1.code :: 4 :: Bytes.ofNat 4 Service.contractCreate.id
  { contents := { contracts := Std.ExtTreeMap.empty.insert Hash.zero code } }

/-- A script that calls the contract. -/
def makerCall : Script :=
  { code := (Opcode.PUSHNULL.code :: Opcode.PUSHDATA2.code :: 20 :: 0 :: List.replicate 20 0)
      ++ Opcode.PUSHDATA1.code :: 4 :: Bytes.ofNat 4 Service.contractCall.id }

/-- The same chain makes a contract for an application, and is stopped for a verification. -/
theorem keepsSnapshot_makerCall :
    let outcome (trigger : Trigger) :=
      doubleCaller.executeChain { trigger } maker 100_000_000 [makerCall]
    ((outcome .application).snapshot.contents.contracts.size = 2 ∧
      (outcome .verification).receipt.fault.map FaultRecord.fault =
        some (.contractFault 2 (.triggerNotAllowed .contractCreate .verification) 4
          (some .PUSHDATA1))) ∧
      Trigger.verification ≠ .application ∧
      doubleCaller.KeepsSnapshot { trigger := .verification } maker 100_000_000 [makerCall] := by
  have other : Trigger.verification ≠ .application := by decide
  refine ⟨by decide +kernel, other, ?_⟩
  exact keepsSnapshot_of_ne_application doubleCaller _ maker 100_000_000 [makerCall] other

end Machine

end GasMachine
