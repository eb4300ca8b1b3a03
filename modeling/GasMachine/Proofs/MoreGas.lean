import GasMachine.Proofs.Settlement
import GasMachine.Proofs.StepBound

/-!
# More gas

Without the service that tells the gas that is left, a script cannot see its gas: nothing but the
check of the fee depends on it. A run that has halted passed this check at every instruction, so
with more gas every frame is as before but for the surplus (`Frame.withMore`). Runs that fault are
another matter, since a fault for want of gas ends them early.
-/

set_option autoImplicit false

namespace GasMachine

/-! ## The same with more gas

`withMore` maps a frame to the same one with a surplus, the contract that it may have left pending
included. Everything that a frame can do goes through this map, with one condition: a fee has to be
there without the surplus. -/

/-- A launch with more gas. -/
def Launch.withMore (launch : Launch) (extra : Int) : Launch :=
  { launch with gas := launch.gas + extra }

/-- A frame with more gas, and as much more for a contract that has not started yet. -/
def Frame.withMore (frame : Frame) (extra : Int) : Frame :=
  { frame with
    gas := frame.gas + extra
    pending := frame.pending.map fun launch => launch.withMore extra }

/-- An execution all of whose frames have more gas. -/
def Execution.withMore (execution : Execution) (extra : Int) : Execution :=
  { execution with
    frame := execution.frame.withMore extra
    callers := execution.callers.map fun caller =>
      { caller with frame := caller.frame.withMore extra } }

/-- A chain that has come as far with more gas. -/
def Progress.withMore (progress : Progress) (extra : Int) : Progress :=
  { progress with gas := progress.gas + extra }

/-- No service tells the gas that is left. -/
def Machine.HidesGas (machine : Machine) : Prop := Service.gasLeft ∉ machine.services.services

instance (machine : Machine) : Decidable machine.HidesGas :=
  inferInstanceAs (Decidable (Service.gasLeft ∉ machine.services.services))

namespace Frame

variable (frame : Frame) (extra : Int)

@[simp] theorem isRunning_withMore : (frame.withMore extra).isRunning = frame.isRunning := rfl

@[simp] theorem fault?_withMore : (frame.withMore extra).fault? = frame.fault? := rfl

/-- A fee that is there is paid from what is there without the surplus. -/
theorem pay_withMore {fee : Nat} (affordable : (fee : Int) ≤ frame.gas) (more : 0 ≤ extra) :
    (frame.withMore extra).pay fee = (frame.pay fee).withMore extra := by
  simp only [pay, withMore, mk.injEq, and_true, true_and]
  omega

theorem perform_withMore (size : Nat) (effect : Effect) :
    (frame.withMore extra).perform size effect = (frame.perform size effect).withMore extra := by
  cases effect <;> rfl

theorem charged_withMore {instruction : Instruction}
    (affordable : (instruction.fee : Int) ≤ frame.gas) (more : 0 ≤ extra) :
    (frame.withMore extra).charged instruction = (frame.charged instruction).withMore extra := by
  unfold charged
  rw [pay_withMore frame extra affordable more]
  rfl

theorem completed_withMore {instruction : Instruction} (results : Results)
    (affordable : (instruction.fee : Int) ≤ frame.gas) (more : 0 ≤ extra) :
    (frame.withMore extra).completed instruction results =
      (frame.completed instruction results).withMore extra := by
  unfold completed
  rw [charged_withMore frame extra affordable more, perform_withMore]
  rfl

theorem resume_withMore (caller callee : Frame) (callPc : Nat) :
    (caller.withMore extra).resume (callee.withMore extra) callPc =
      (caller.resume callee callPc).withMore extra := by
  unfold resume
  dsimp only
  rw [fault?_withMore]
  cases callee.fault? <;> rfl

end Frame

/-! ## Instructions

The gas is read by one service, which has to be absent, and by the check of the fee. A step that
does not fault has passed this check, and then the one with the surplus passes it too. -/

theorem Service.run_withMore {service : Service} (other : service ≠ .gasLeft) (host : Host)
    (frame : Frame) (world : World) (arguments : List Item) (extra : Int) :
    service.run host (frame.withMore extra) world arguments =
      service.run host frame world arguments := by
  cases service with
  | gasLeft => exact absurd rfl other
  | _ => rfl

/-- A behaviour sees nothing of the surplus. -/
theorem Behaviour.run_withMore (behaviour : Behaviour) {host : Host}
    (hidden : Service.gasLeft ∉ host.services.services) (instruction : Instruction)
    (frame : Frame) (world : World) (arguments : Arguments) (extra : Int) :
    behaviour.run host instruction (frame.withMore extra) world arguments =
      behaviour.run host instruction frame world arguments := by
  cases behaviour
  case systemCall =>
    unfold run
    dsimp only
    cases named : host.service instruction with
    | error fault => rfl
    | ok service =>
      have other : service ≠ .gasLeft := by
        rintro rfl
        exact hidden (ServiceRegistry.find?_mem (Host.find?_of_service named)).1
      have same := service.run_withMore other host frame world arguments.stack extra
      exact congrArg (fun ran => if service.allows host.invocation.trigger then ran else _) same
  all_goals rfl

namespace Machine

variable {machine : Machine} {invocation : Invocation} {frame : Frame} {world : World} {extra : Int}

theorem instructionAt?_withMore :
    machine.instructionAt? invocation (frame.withMore extra) =
      machine.instructionAt? invocation frame := by
  have same := machine.prepare_congr invocation frame (frame.withMore extra) rfl rfl
  unfold instructionAt?
  simp only [same]
  rfl

/-- An instruction that acts does so with more gas as well. -/
theorem Acts.withMore {instruction : Instruction} {results : Results}
    (acts : machine.Acts invocation frame world instruction results) (hides : machine.HidesGas)
    (more : 0 ≤ extra) :
    machine.Acts invocation (frame.withMore extra) world instruction results := by
  obtain ⟨found, admitted, affordable, ran, stackOut, altOut⟩ := acts
  obtain ⟨stackIn, altIn, size, depth, arraySize, itemSize⟩ := admitted
  have hidden : Service.gasLeft ∉ (machine.host invocation).services.services := hides
  refine ⟨instructionAt?_withMore.trans found, ?_, ?_, ?_, stackOut, altOut⟩
  · exact ⟨stackIn, altIn, size, depth, arraySize, itemSize⟩
  · exact Int.le_trans affordable (Int.le_add_of_nonneg_right more)
  · rw [Frame.charged_withMore frame extra affordable more, Behaviour.run_withMore _ hidden]
    exact ran

/-- A step that does not fault goes the same way with more gas. -/
theorem step_withMore {after : Frame} {next : World} (hides : machine.HidesGas)
    (more : 0 ≤ extra) (running : frame.isRunning = true)
    (step : machine.step invocation frame world = (after, next)) (healthy : after.fault? = none) :
    machine.step invocation (frame.withMore extra) world = (after.withMore extra, next) := by
  have went := machine.stepTo_step invocation world frame
  rw [step] at went
  cases went with
  | rests ended => cases ended.symm.trans running
  | ended _ here => exact machine.step_of_end invocation world running here
  | unreadable _ _ _ _ _ => cases healthy
  | refused _ _ _ => cases healthy
  | failed _ _ _ _ => cases healthy
  | overflowed _ _ _ _ => cases healthy
  | acted instruction results acts fits =>
    have same := frame.completed_withMore extra results acts.affordable more
    rw [← same]
    refine step_of_acts running (acts.withMore hides more) ?_
    rw [same]
    exact fits

end Machine

/-! ## Runs

That nothing faults on the way follows from the end of the run, because a fault is never left
behind: it ends its frame and then its callers one by one. So in the induction over the run each
execution is known not to have faulted, and each step is one that the surplus leaves as it is. -/

namespace Execution

variable {machine : Machine} {invocation : Invocation} {execution final : Execution} {extra : Int}

/-- A fault is never left behind: a frame that has faulted faults its caller. -/
theorem fault?_eq_none_of_tick (unfinished : execution.isFinished = false)
    (healthy : (execution.tick machine invocation).frame.fault? = none) :
    execution.frame.fault? = none := by
  have move := tickTo_tick machine invocation unfinished
  generalize execution.tick machine invocation = next at move healthy
  cases move with
  | stays running _ _ _ _ => exact Frame.fault?_eq_none_of_isRunning running
  | calls running _ _ _ _ _ _ => exact Frame.fault?_eq_none_of_isRunning running
  | returns ended caller rest callers =>
    cases fault : execution.frame.fault? with
    | none => rfl
    | some record =>
      unfold Frame.resume at healthy
      rw [fault] at healthy
      cases healthy

/-- So if a run ends without a fault, there was none on the way. -/
theorem Ends.fault?_eq_none (ends : execution.Ends machine invocation final)
    (healthy : final.frame.fault? = none) : execution.frame.fault? = none := by
  induction ends with
  | done _ => exact healthy
  | tick unfinished _ ih => exact fault?_eq_none_of_tick unfinished (ih healthy)

theorem isFinished_withMore : (execution.withMore extra).isFinished = execution.isFinished := by
  simp [isFinished, withMore]

theorem tick_withMore (hides : machine.HidesGas) (more : 0 ≤ extra)
    (unfinished : execution.isFinished = false)
    (healthy : (execution.tick machine invocation).frame.fault? = none) :
    (execution.withMore extra).tick machine invocation =
      (execution.tick machine invocation).withMore extra := by
  have richRunning (running : execution.frame.isRunning = true) :
      (execution.withMore extra).frame.isRunning = true := running
  have move := tickTo_tick machine invocation unfinished
  generalize execution.tick machine invocation = next at move healthy ⊢
  cases move with
  | stays running after world step calm =>
    -- The frame is still on top after the step, so it is known not to have faulted in it.
    have also := Machine.step_withMore hides more running step healthy
    refine tick_of_calm (richRunning running) also ?_
    exact calm.imp_left fun calm => Option.map_eq_none_iff.2 calm
  | calls running after world launch step pending goesOn =>
    have alive := Frame.fault?_eq_none_of_isRunning goesOn
    have also := Machine.step_withMore hides more running step alive
    have alsoPending : (after.withMore extra).pending = some (launch.withMore extra) :=
      congrArg (Option.map _) pending
    exact tick_of_pending (richRunning running) also alsoPending goesOn
  | returns ended caller rest callers =>
    unfold withMore
    rw [callers, List.map_cons, tick_of_ended machine invocation (by exact ended),
      Frame.resume_withMore]

/-- A run that halts goes the same way with more gas. -/
theorem Ends.withMore (ends : execution.Ends machine invocation final)
    (hides : machine.HidesGas) (more : 0 ≤ extra) (healthy : final.frame.fault? = none) :
    (execution.withMore extra).Ends machine invocation (final.withMore extra) := by
  induction ends with
  | done finished => exact .done (isFinished_withMore.trans finished)
  | tick unfinished rest ih =>
    refine .tick (isFinished_withMore.trans unfinished) ?_
    rw [tick_withMore hides more unfinished (rest.fault?_eq_none healthy)]
    exact ih healthy

theorem run_withMore (hides : machine.HidesGas) (more : 0 ≤ extra)
    (healthy : (execution.run machine invocation).frame.fault? = none) :
    (execution.withMore extra).run machine invocation =
      (execution.run machine invocation).withMore extra :=
  ((execution.ends_run machine invocation).withMore hides more healthy).run_eq

end Execution

namespace Progress

variable {machine : Machine} {invocation : Invocation} {extra : Int}

theorem afterScript_withMore (hides : machine.HidesGas) (more : 0 ≤ extra) (entry : ScriptHash)
    (script : Script) (rest : List Script) {progress : Progress}
    (healthy : (afterScript machine invocation entry script rest progress).fault = none) :
    afterScript machine invocation entry script rest (progress.withMore extra) =
      (afterScript machine invocation entry script rest progress).withMore extra := by
  have run := Execution.run_withMore hides more healthy
  exact congrArg progress.after run

/-- Scripts in a row that all halt do so with more gas, and leave the surplus. -/
theorem runAll_withMore (hides : machine.HidesGas) (more : 0 ≤ extra) {entry : ScriptHash}
    {scripts : List Script} {progress : Progress}
    (healthy : (runAll machine invocation entry scripts progress).fault = none) :
    runAll machine invocation entry scripts (progress.withMore extra) =
      (runAll machine invocation entry scripts progress).withMore extra := by
  induction scripts generalizing progress with
  | nil => rfl
  | cons script rest ih =>
    rw [runAll_cons] at healthy
    dsimp only at healthy
    split at healthy
    · rename_i faulted
      rw [healthy] at faulted
      cases faulted
    · rename_i unfaulted
      have fine := Option.not_isSome_iff_eq_none.1 unfaulted
      have same := afterScript_withMore hides more entry script rest fine
      rw [runAll_cons, runAll_cons]
      dsimp only
      rw [same, if_neg unfaulted]
      exact (if_neg unfaulted).trans (ih healthy)

end Progress

/-! ## Chains

The sum of gas and allowance is cut off where words end, so the budget need not be larger by as much
as the gas; the surplus is what is left of the difference after the cut. The cost is a difference in
which it cancels. -/

theorem clamp_le_clamp {small large : Int} (le : small ≤ large) : clamp small ≤ clamp large := by
  unfold clamp
  omega

namespace Machine

theorem opening_withMore (machine : Machine) (snapshot : Snapshot) (gas more : Int) :
    machine.opening snapshot more = (machine.opening snapshot gas).withMore
      (clamp (more + machine.config.freeGas) - clamp (gas + machine.config.freeGas)) := by
  simp only [opening, Progress.withMore, Progress.mk.injEq, and_true]
  omega

/-- Only a chain whose scripts have all halted can halt. -/
theorem fault_progress_of_isHalt {machine : Machine} {invocation : Invocation}
    {snapshot : Snapshot} {gas : Int} {first : Script} {rest : List Script}
    (halts : (machine.executeChain invocation snapshot gas (first :: rest)).receipt.isHalt = true) :
    (machine.progress invocation snapshot gas (first :: rest)).fault = none := by
  obtain ⟨fault, _⟩ := machine.executeChain_settle invocation snapshot gas first rest
  rw [Receipt.isHalt, fault, Option.isNone_iff_eq_none] at halts
  cases faulted : (machine.progress invocation snapshot gas (first :: rest)).fault with
  | none => rfl
  | some record =>
    rw [Progress.settle, faulted] at halts
    cases halts

/-- A chain that halts does the same with more gas: what is on the stacks, the events, the cost and
the snapshot that it leaves. -/
theorem executeChain_of_moreGas (machine : Machine) (hides : machine.HidesGas)
    (invocation : Invocation) (snapshot : Snapshot) (scripts : List Script) {gas more : Int}
    (le : gas ≤ more)
    (halts : (machine.executeChain invocation snapshot gas scripts).receipt.isHalt = true) :
    machine.executeChain invocation snapshot more scripts =
      machine.executeChain invocation snapshot gas scripts := by
  cases scripts with
  | nil => rfl
  | cons first rest =>
    have surplus : 0 ≤
        clamp (more + machine.config.freeGas) - clamp (gas + machine.config.freeGas) :=
      Int.sub_nonneg_of_le (clamp_le_clamp (Int.add_le_add_right le _))
    have same := Progress.runAll_withMore hides surplus (fault_progress_of_isHalt halts)
    rw [← opening_withMore] at same
    have settled (progress : Progress) (extra : Int) :
        (progress.withMore extra).settle = progress.settle := rfl
    -- The cost is what the gas has lost, which is as much as without the surplus.
    have cost (budget start left : Int) : budget - (left + (budget - start)) = start - left := by
      omega
    unfold opening at same
    unfold executeChain executeFrom
    dsimp only
    rw [same, settled]
    simp only [Progress.withMore, cost]

/-- The standard machine without the service that tells the gas that is left. -/
def quietMachine : Machine := { services := ServiceRegistry.ofList (Service.all.erase .gasLeft) }

/-- A contract that logs the text it was given. -/
def loggingContract : Bytes := Opcode.SYSCALL.code :: Bytes.ofNat 4 Service.log.id

/-- A script that calls the contract with the hash of zeros and a text. -/
def callLogging : Script :=
  { code := [Opcode.PUSHDATA1.code, 2, 0x68, 0x69, Opcode.PUSH1.code, Opcode.PACK.code]
      ++ (Opcode.PUSHDATA1.code :: 20 :: List.replicate 20 0)
      ++ Opcode.SYSCALL.code :: Bytes.ofNat 4 Service.contractCall.id }

/-- The call and the log need a little more than two million; with more nothing changes. -/
theorem executeChain_callLogging :
    let contracts := Std.ExtTreeMap.empty.insert Hash.zero loggingContract
    let execute (gas : Int) :=
      quietMachine.executeChain {} { contents := { contracts } } gas [callLogging]
    (execute 2_000_000).receipt.isHalt = false ∧
      (quietMachine.HidesGas ∧ (execute 2_100_000).receipt.isHalt = true) ∧
      (execute 2_100_000).receipt.logs.map LogEntry.message = ["hi"] ∧
      execute 9_000_000 = execute 2_100_000 := by
  intro contracts execute
  have hides : quietMachine.HidesGas := by decide +kernel
  have halts : (execute 2_100_000).receipt.isHalt = true := by decide +kernel
  refine ⟨by decide +kernel, ⟨hides, halts⟩, by decide +kernel, ?_⟩
  exact quietMachine.executeChain_of_moreGas hides {} _ _ (by decide) halts

end Machine

end GasMachine
