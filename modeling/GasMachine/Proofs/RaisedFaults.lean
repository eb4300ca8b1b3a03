import GasMachine.Proofs.NeverInternal

/-!
# Faults of a frame itself

A frame faults by itself or because a contract that it has called did. The two are told apart by the
cause: only the return of a contract that has faulted makes a contract fault, no instruction and no
service does (`Machine.raisesOwn_step`). So whoever hands a fault on can tell whether it has been
handed on before.

This holds of any table and of any services, so nothing can be said of the arguments that a
behaviour gets. What is known of a computation for which nothing is given (`Sound False`) is enough:
it fails for a reason of the script's own or for a defect.
-/

set_option autoImplicit false

namespace GasMachine

/-- Whether a fault is not that of a called contract. -/
def Fault.isOwn : Fault → Bool
  | .contractFault _ _ _ _ => false
  | _ => true

theorem Sound.isOwn {given : Prop} {α : Type} {post : α → Prop} {computation : Except Fault α}
    (sound : Sound given post computation) {fault : Fault} (failed : computation = .error fault) :
    fault.isOwn = true := by
  cases sound with
  | ok _ => cases failed
  | error plain =>
    cases failed
    cases fault <;> first | rfl | cases plain
  | defect _ =>
    cases failed
    rfl

/-- Whatever a behaviour gets, it does not fail for the fault of a called contract. -/
theorem Behaviour.run_sound_of_anything (behaviour : Behaviour) (host : Host)
    (instruction : Instruction) (frame : Frame) (world : World) (arguments : Arguments) :
    Sound False (fun _ => True) (behaviour.run host instruction frame world arguments) := by
  by_cases system : behaviour = .systemCall
  · subst system
    refine (host.service_sound instruction).bind fun service _ => ?_
    dsimp only
    split
    · exact (service.run_sound host frame world False.elim).mono fun _ _ => trivial
    · exact Sound.throw rfl
  by_cases compound : behaviour = .unpack
  · subst compound
    refine (Arguments.one_sound False.elim).bind fun item _ => ?_
    exact item.unpack_sound.bind fun _ _ => Sound.ok trivial
  exact (run_sound host instruction frame world arguments False.elim False.elim False.elim compound
    system).mono fun _ _ => trivial

namespace Machine

variable {machine : Machine} {invocation : Invocation} {frame : Frame}

/-- A step of a running frame ends in no contract fault, whatever the table and the services of the
machine are. -/
theorem raisesOwn_step (running : frame.isRunning = true) (world : World) {record : FaultRecord}
    (faulted : (machine.step invocation frame world).1.fault? = some record) :
    record.fault.isOwn = true := by
  have went := machine.stepTo_step invocation world frame
  generalize machine.step invocation frame world = next at went faulted
  cases went with
  | rests ended => cases ended.symm.trans running
  | ended _ here => cases faulted
  | unreadable byte following fault here refused =>
    cases faulted
    have read : Sound False (fun _ => True) (machine.prepare invocation frame byte following) :=
      prepare_sound False.elim False.elim False.elim
    exact read.isOwn refused
  | refused instruction fault found cause =>
    cases faulted
    rcases cause with stopped | ⟨_, _, rfl⟩
    · have check : Sound False (fun _ => True) (machine.config.limits.check frame instruction) :=
        machine.config.limits.check_sound frame instruction
      exact check.isOwn stopped
    · rfl
  | failed instruction fault found affordable admitted cause =>
    cases faulted
    cases cause with
    | behaviour _ failed =>
      have ran := Behaviour.run_sound_of_anything instruction.behaviour (machine.host invocation)
        instruction (frame.charged instruction) world (frame.argumentsOf instruction)
      exact ran.isOwn failed
    | resultCount results ran miscounted => rfl
  | overflowed instruction results acts fault cause =>
    cases faulted
    rw [cause]
    rfl
  | acted instruction results acts fits =>
    cases (Frame.fault?_completed running instruction results).symm.trans faulted

end Machine

end GasMachine
