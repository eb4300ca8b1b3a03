import GasMachine.Proofs.Journal

/-!
# What a receipt says of events

If a chain halts, its receipt tells every notification and every log entry, in the order in which
scripts and contracts have made them, whichever called which; if it faults, the receipt tells none.
An event is made where the service is called for it: what it says is read off the stack of the frame
that makes the call, and it bears the hash of that frame's script.
-/

set_option autoImplicit false

namespace GasMachine

/-! ## The services -/

namespace Service

variable (host : Host) (frame : Frame) (world : World) (arguments : List Item)

theorem notify_ensures :
    Ensures (fun results => ∃ name state text, arguments = [name, state] ∧
      readText maxEventNameSize name = .ok text ∧
      results.effect = .notify text state.toParameter)
      (notify.run host frame world arguments) := by
  refine Arguments.two_ensures.bind fun pair two => ?_
  refine (Ensures.self _).bind fun text read => ?_
  exact Ensures.pure ⟨pair.1, pair.2, text, two, read, rfl⟩

theorem log_ensures :
    Ensures (fun results => ∃ message text, arguments = [message] ∧
      readText host.limits.itemSize message = .ok text ∧ results.effect = .log text)
      (log.run host frame world arguments) := by
  refine Arguments.one_ensures.bind fun message one => ?_
  refine (Ensures.self _).bind fun text read => ?_
  exact Ensures.pure ⟨message, text, one, read, rfl⟩

end Service

/-! ## Events of a step

What the next step will say is read off the stack before the step, without running the service. It
is there exactly if the step goes on with that service: a call that fails says nothing. -/

namespace Execution

variable (machine : Machine) (invocation : Invocation) (stage : Execution)

/-- The notification that the next step makes, if it makes one: the name is on top of the stack, and
the value below it. -/
def notified? : Option Notification :=
  if stage.serves machine invocation .notify then
    match stage.frame.stack with
    | name :: state :: _ =>
      (Service.readText Service.maxEventNameSize name).toOption.map fun text =>
        ⟨stage.frame.script, text, state.toParameter⟩
    | _ => none
  else none

/-- The log entry that the next step makes, if it makes one: the message is on top of the stack. -/
def logged? : Option LogEntry :=
  if stage.serves machine invocation .log then
    match stage.frame.stack with
    | message :: _ =>
      (Service.readText machine.config.limits.itemSize message).toOption.map fun text =>
        ⟨stage.frame.script, text⟩
    | _ => none
  else none

variable {machine invocation stage}

theorem notified?_of_acts (standard : machine.table = {})
    (serves : stage.serves machine invocation .notify = true) {instruction : Instruction}
    {results : Results}
    (acts : machine.Acts invocation stage.frame stage.world instruction results) :
    ∃ text state, results.effect = .notify text state ∧
      stage.notified? machine invocation = some ⟨stage.frame.script, text, state⟩ := by
  have served := served_of_serves standard serves acts
  obtain ⟨name, state, text, taken, read, effect⟩ :=
    Service.notify_ensures _ _ _ _ results served
  refine ⟨text, state.toParameter, effect, ?_⟩
  have stack : stage.frame.stack = name :: state :: stage.frame.stack.drop 2 :=
    (List.take_append_drop 2 stage.frame.stack).symm.trans (congrArg (· ++ _) taken)
  unfold notified?
  rw [if_pos serves, stack]
  dsimp only
  rw [read]
  rfl

theorem logged?_of_acts (standard : machine.table = {})
    (serves : stage.serves machine invocation .log = true) {instruction : Instruction}
    {results : Results}
    (acts : machine.Acts invocation stage.frame stage.world instruction results) :
    ∃ text, results.effect = .log text ∧
      stage.logged? machine invocation = some ⟨stage.frame.script, text⟩ := by
  have served := served_of_serves standard serves acts
  obtain ⟨message, text, taken, read, effect⟩ := Service.log_ensures _ _ _ _ results served
  refine ⟨text, effect, ?_⟩
  have stack : stage.frame.stack = message :: stage.frame.stack.drop 1 :=
    (List.take_append_drop 1 stage.frame.stack).symm.trans (congrArg (· ++ _) taken)
  have here : Service.readText machine.config.limits.itemSize message = .ok text := read
  unfold logged?
  rw [if_pos serves, stack]
  dsimp only
  rw [here]
  rfl

theorem notified?_eq_none (serves : stage.serves machine invocation .notify = false) :
    stage.notified? machine invocation = none := by
  unfold notified?
  rw [serves]
  rfl

theorem logged?_eq_none (serves : stage.serves machine invocation .log = false) :
    stage.logged? machine invocation = none := by
  unfold logged?
  rw [serves]
  rfl

/-- No call that goes on is without its notification. -/
theorem isSome_notified? (standard : machine.table = {}) :
    (stage.notified? machine invocation).isSome = stage.serves machine invocation .notify := by
  refine isSome_eq_serves notified?_eq_none fun serves instruction results acts _ => ?_
  obtain ⟨text, state, _, made⟩ := notified?_of_acts standard serves acts
  exact ⟨_, made⟩

theorem isSome_logged? (standard : machine.table = {}) :
    (stage.logged? machine invocation).isSome = stage.serves machine invocation .log := by
  refine isSome_eq_serves logged?_eq_none fun serves instruction results acts _ => ?_
  obtain ⟨text, _, made⟩ := logged?_of_acts standard serves acts
  exact ⟨_, made⟩

end Execution

/-! ## Events of a chain

Both kinds of events are journals, kept in a record that goes from caller to contract and back. So
the order of the record is the order of the steps, and no event is lost or told twice. -/

namespace Machine

variable {machine : Machine} {invocation : Invocation}

theorem notificationJournal (standard : machine.table = {}) (invocation : Invocation) :
    Journal machine invocation (fun stage => stage.frame.pending = none)
      (fun residue => residue.record.notifications) (Execution.notified? machine invocation)
      (fun _ _ => True) (fun list entry => list ++ [entry]) := by
  refine Journal.ofService standard .notify (fun _ calm => calm)
    (fun _ => Execution.notified?_eq_none) (fun record script _ => ?_) ?_
  · exact record.notifications_note script
  · intro stage instruction results _ _ serves acts _
    obtain ⟨text, state, effect, made⟩ := Execution.notified?_of_acts standard serves acts
    refine ⟨_, made, trivial, ?_⟩
    rw [effect]
    rfl

theorem logJournal (standard : machine.table = {}) (invocation : Invocation) :
    Journal machine invocation (fun stage => stage.frame.pending = none)
      (fun residue => residue.record.logs) (Execution.logged? machine invocation)
      (fun _ _ => True) (fun list entry => list ++ [entry]) := by
  refine Journal.ofService standard .log (fun _ calm => calm)
    (fun _ => Execution.logged?_eq_none) (fun record script _ => ?_) ?_
  · exact record.logs_note script
  · intro stage instruction results _ _ serves acts _
    obtain ⟨text, effect, made⟩ := Execution.logged?_of_acts standard serves acts
    refine ⟨_, made, trivial, ?_⟩
    rw [effect]
    rfl

theorem receipt_events (machine : Machine) (invocation : Invocation) (snapshot : Snapshot)
    (gas : Int) (first : Script) (rest : List Script) :
    let receipt := (machine.executeChain invocation snapshot gas (first :: rest)).receipt
    let residue := (machine.progress invocation snapshot gas (first :: rest)).residue
    receipt.notifications = (if receipt.isHalt then residue.notifications else []) ∧
      receipt.logs = (if receipt.isHalt then residue.logs else []) :=
  ⟨rfl, rfl⟩

/-- What a receipt says of the events of a chain that has taken some steps. -/
structure ReportsEvents (machine : Machine) (invocation : Invocation) (steps : List Execution)
    (receipt : Receipt) : Prop where
  notifications : receipt.isHalt = true →
    receipt.notifications = steps.filterMap (Execution.notified? machine invocation)
  logs : receipt.isHalt = true →
    receipt.logs = steps.filterMap (Execution.logged? machine invocation)
  /-- A chain that faults has no events. -/
  silent : receipt.isHalt = false → receipt.notifications = [] ∧ receipt.logs = []
  /-- The steps with a notification are the successful calls of the service. -/
  notifies : ∀ stage ∈ steps,
    (stage.notified? machine invocation).isSome = stage.serves machine invocation .notify
  writesLog : ∀ stage ∈ steps,
    (stage.logged? machine invocation).isSome = stage.serves machine invocation .log

/-- Every chain of the standard machine reports its events completely and in order. -/
theorem reportsEvents_executeChain (config : Config) (invocation : Invocation)
    (snapshot : Snapshot) (gas : Int) (scripts : List Script) :
    ReportsEvents (standard config) invocation
      ((standard config).steps invocation snapshot gas scripts)
      ((standard config).executeChain invocation snapshot gas scripts).receipt := by
  have table : (standard config).table = {} := rfl
  have calm := (standard config).calm_invariant invocation
  cases scripts with
  | nil =>
    refine ⟨fun _ => rfl, fun _ => rfl, fun faults => ?_,
      fun _ _ => Execution.isSome_notified? table, fun _ _ => Execution.isSome_logged? table⟩
    cases faults
  | cons first rest =>
    obtain ⟨notifications, logs⟩ := (standard config).receipt_events invocation snapshot gas first
      rest
    refine ⟨fun halts => ?_, fun halts => ?_, fun faults => ?_,
      fun _ _ => Execution.isSome_notified? table, fun _ _ => Execution.isSome_logged? table⟩
    · have entered := (notificationJournal table invocation).chain calm snapshot gas trivial _
        (fault_progress_of_isHalt halts)
      rw [notifications, if_pos halts]
      exact entered.eq_append
    · have entered := (logJournal table invocation).chain calm snapshot gas trivial _
        (fault_progress_of_isHalt halts)
      rw [logs, if_pos halts]
      exact entered.eq_append
    · rw [notifications, logs, faults]
      exact ⟨rfl, rfl⟩

/-- A contract that logs the text it was given, and then notifies. -/
def chattyContract : Bytes :=
  Opcode.SYSCALL.code :: Bytes.ofNat 4 Service.log.id
    ++ [Opcode.PUSH2.code, Opcode.PUSHDATA1.code, 1, 0x62]
    ++ Opcode.SYSCALL.code :: Bytes.ofNat 4 Service.notify.id

/-- A script that notifies, calls the contract with the hash of zeros and a text, and notifies
again. -/
def chattyCaller : Script :=
  { code := [Opcode.PUSH1.code, Opcode.PUSHDATA1.code, 1, 0x61]
      ++ Opcode.SYSCALL.code :: Bytes.ofNat 4 Service.notify.id
      ++ [Opcode.PUSHDATA1.code, 2, 0x68, 0x69, Opcode.PUSH1.code, Opcode.PACK.code]
      ++ (Opcode.PUSHDATA1.code :: 20 :: List.replicate 20 0)
      ++ Opcode.SYSCALL.code :: Bytes.ofNat 4 Service.contractCall.id
      ++ [Opcode.PUSH3.code, Opcode.PUSHDATA1.code, 1, 0x63]
      ++ Opcode.SYSCALL.code :: Bytes.ofNat 4 Service.notify.id }

/-- Events from before the call, from the contract, from after the call and from the next script
come in this order. A last script that breaks off leaves none of them. -/
theorem reportsEvents_chattyCaller :
    let contracts := Std.ExtTreeMap.empty.insert Hash.zero chattyContract
    let log : Script :=
      { code := [Opcode.PUSHDATA1.code, 3, 0x62, 0x79, 0x65]
          ++ Opcode.SYSCALL.code :: Bytes.ofNat 4 Service.log.id }
    let abort : Script := { code := [Opcode.ABORT.code] }
    let chain (scripts : List Script) :=
      (standard {}).executeChain {} { contents := { contracts } } 100_000_000 scripts
    let calls := chain [chattyCaller, log]
    let breaksOff := chain [chattyCaller, log, abort]
    (calls.receipt.isHalt = true ∧ breaksOff.receipt.isHalt = false) ∧
      calls.receipt.notifications.map Notification.name = ["a", "b", "c"] ∧
      calls.receipt.logs.map LogEntry.message = ["hi", "bye"] ∧
      ReportsEvents (standard {}) {} ((standard {}).steps {} { contents := { contracts } }
        100_000_000 [chattyCaller, log]) calls.receipt := by
  intro contracts log abort chain calls breaksOff
  refine ⟨⟨by decide +kernel, by decide +kernel⟩, by decide +kernel, by decide +kernel, ?_⟩
  exact reportsEvents_executeChain {} {} { contents := { contracts } } 100_000_000
    [chattyCaller, log]

end Machine

end GasMachine
