import GasMachine.Proofs.MoreGas

/-!
# What frames take down

A frame keeps a record of the contracts made, the notifications and the log entries. A called
contract gets the record of its caller, goes on with it and hands it back, and so does a script of a
chain with that of the script before. So unless something faults, only steps add to the record, and
each step adds its own effect (`Execution.recorded_tick`). What is kept in the end has then been put
there entry by entry, one for each step that made one (`Journal.chain`).
-/

set_option autoImplicit false

namespace GasMachine

/-! ## Records

The three things that frames hand on are kept together, since they go the same ways. A step adds its
effect to them, and a caller takes over the whole record of its contract. -/

/-- What frames hand on of what they have done. -/
structure Record where
  created : Std.ExtTreeSet ScriptHash
  notifications : List Notification
  logs : List LogEntry

namespace Record

/-- The record after a step of a script with an effect. -/
def note (record : Record) (script : ScriptHash) : Effect → Record
  | .log message => { record with logs := record.logs ++ [⟨script, message⟩] }
  | .notify name state =>
    { record with notifications := record.notifications ++ [⟨script, name, state⟩] }
  | .create hash => { record with created := record.created.insert hash }
  | _ => record

variable (record : Record) (script : ScriptHash) {effect : Effect}

theorem notifications_note (silent : effect.service? ≠ some .notify) :
    (record.note script effect).notifications = record.notifications := by
  cases effect with
  | notify _ _ => exact absurd rfl silent
  | _ => rfl

theorem logs_note (silent : effect.service? ≠ some .log) :
    (record.note script effect).logs = record.logs := by
  cases effect with
  | log _ => exact absurd rfl silent
  | _ => rfl

theorem created_note (idle : effect.service? ≠ some .contractCreate) :
    (record.note script effect).created = record.created := by
  cases effect with
  | create _ => exact absurd rfl idle
  | _ => rfl

end Record

/-- The record in what a frame hands on. -/
def Residue.record (residue : Residue) : Record :=
  ⟨residue.created, residue.notifications, residue.logs⟩

namespace Frame

variable (frame : Frame) (instruction : Instruction) (results : Results)

theorem record_completed (calm : results.effect.service? ≠ some .contractCall) :
    (frame.completed instruction results).record =
      frame.record.note frame.script results.effect := by
  unfold completed
  cases effect : results.effect with
  | call _ _ =>
    rw [effect] at calm
    exact absurd rfl calm
  | _ => rfl

theorem service?_of_pending_eq_none
    {frame : Frame} {instruction : Instruction} {results : Results}
    (calm : (frame.completed instruction results).pending = none) :
    results.effect.service? ≠ some .contractCall := by
  intro calls
  unfold completed at calm
  cases effect : results.effect with
  | call _ _ =>
    rw [effect] at calm
    cases calm
  | _ =>
    rw [effect] at calls
    cases calls

@[simp] theorem record_resume (caller callee : Frame) (callPc : Nat) :
    (caller.resume callee callPc).record = callee.record := by
  unfold resume
  dsimp only
  split <;> rfl

end Frame

/-! ## Steps that go on

A call counts if the frame goes on after it; what it asked for is then what its service does.
`Recorded` says of any tick what becomes of the record: it stays if the frame does not go on, and
otherwise grows by the effect of the step. A call hands the record on and a return hands it back, so
neither has a case of its own. -/

namespace Execution

variable {machine : Machine} {invocation : Invocation} {execution : Execution}

/-- Whether the next step calls a service and the frame goes on after it. -/
def serves (machine : Machine) (invocation : Invocation) (service : Service) (stage : Execution) :
    Bool :=
  machine.serviceAt? invocation stage.frame = some service &&
    (stage.advance machine invocation).frame.isRunning

theorem frame_advance {after : Frame} {world : World}
    (step : machine.step invocation execution.frame execution.world = (after, world)) :
    (execution.advance machine invocation).frame = after := by
  unfold advance
  rw [step]

theorem isRunning_advance_of_ended (ended : execution.frame.isRunning = false) :
    (execution.advance machine invocation).frame.isRunning = false := by
  have rests : machine.step invocation execution.frame execution.world =
      (execution.frame, execution.world) := by
    unfold Machine.step
    rw [ended]
    rfl
  rw [frame_advance rests, ended]

theorem serves_of_ended (ended : execution.frame.isRunning = false) (service : Service) :
    execution.serves machine invocation service = false := by
  rw [serves, isRunning_advance_of_ended ended, Bool.and_false]

/-- A call of a service that goes on has been served. -/
theorem served_of_serves (standard : machine.table = {}) {service : Service}
    (serves : execution.serves machine invocation service = true) {instruction : Instruction}
    {results : Results}
    (acts : machine.Acts invocation execution.frame execution.world instruction results) :
    service.run (machine.host invocation) (execution.frame.charged instruction) execution.world
      (execution.frame.stack.take service.arity) = .ok results := by
  rw [Execution.serves, Bool.and_eq_true, decide_eq_true_iff] at serves
  exact (acts.serves standard serves.1).2.2

theorem acts_of_serves {service : Service}
    (serves : execution.serves machine invocation service = true) :
    ∃ instruction results,
      machine.Acts invocation execution.frame execution.world instruction results ∧
        (execution.advance machine invocation).frame =
          execution.frame.completed instruction results := by
  rw [Execution.serves, Bool.and_eq_true] at serves
  obtain ⟨instruction, results, acts, after, _⟩ := Machine.acts_of_goesOn rfl serves.2
  exact ⟨instruction, results, acts, after⟩

/-- What the calls of a service write, and nothing else does, is there for each call that goes on.
-/
theorem isSome_eq_serves {Entry : Type} {written : Option Entry} {service : Service}
    (silent : execution.serves machine invocation service = false → written = none)
    (made : execution.serves machine invocation service = true → ∀ instruction results,
      machine.Acts invocation execution.frame execution.world instruction results →
        (execution.advance machine invocation).frame =
          execution.frame.completed instruction results →
        ∃ entry, written = some entry) :
    written.isSome = execution.serves machine invocation service := by
  cases serves : execution.serves machine invocation service with
  | false => rw [silent serves, Option.isSome_none]
  | true =>
    obtain ⟨instruction, results, acts, after⟩ := acts_of_serves serves
    obtain ⟨entry, wrote⟩ := made serves instruction results acts after
    rw [wrote, Option.isSome_some]

/-- What a tick leaves of the record and of the world if nothing has faulted. -/
inductive Recorded (machine : Machine) (invocation : Invocation) (execution : Execution) :
    Record → World → Prop where
  /-- The frame does not go on, and the record stays. -/
  | kept (ends : (execution.advance machine invocation).frame.isRunning = false) :
    Recorded machine invocation execution execution.frame.record execution.world
  /-- The frame goes on, and the effect of the instruction is added. -/
  | noted (instruction : Instruction) (results : Results)
    (acts : machine.Acts invocation execution.frame execution.world instruction results)
    (after : (execution.advance machine invocation).frame =
      execution.frame.completed instruction results)
    (goesOn : (execution.advance machine invocation).frame.isRunning = true) :
    Recorded machine invocation execution
      (execution.frame.record.note execution.frame.script results.effect) results.world

/-- A tick adds to the record at most the effect of its step. -/
theorem recorded_tick (unfinished : execution.isFinished = false)
    (calm : execution.frame.pending = none)
    (healthy : (execution.tick machine invocation).frame.fault? = none) :
    Recorded machine invocation execution (execution.tick machine invocation).frame.record
      (execution.tick machine invocation).world := by
  have move := tickTo_tick machine invocation unfinished
  generalize execution.tick machine invocation = next at move healthy ⊢
  -- A call takes its record along and a return hands it back, so only what the step does is left.
  cases move with
  | stays running after world step settles =>
    have frame := frame_advance step
    have went := machine.stepTo_step invocation execution.world execution.frame
    rw [step] at went
    cases went with
    | rests ended => cases ended.symm.trans running
    | ended _ _ => exact .kept (congrArg Frame.isRunning frame)
    | unreadable _ _ _ _ _ => cases healthy
    | refused _ _ _ => cases healthy
    | failed _ _ _ _ => cases healthy
    | overflowed _ _ _ _ => cases healthy
    | acted instruction results acts fits =>
      have goesOn : (execution.frame.completed instruction results).isRunning = true :=
        (Frame.isRunning_completed _ _ _).trans running
      have alone : (execution.frame.completed instruction results).pending = none :=
        settles.resolve_right (by rw [goesOn]; exact Bool.noConfusion)
      have noCall := Frame.service?_of_pending_eq_none alone
      have noted := Recorded.noted instruction results acts frame (frame ▸ goesOn)
      rw [← execution.frame.record_completed instruction results noCall] at noted
      exact noted
  | calls running after world launch step pending goesOn =>
    have frame := frame_advance step
    obtain ⟨instruction, results, acts, rfl, rfl⟩ := Machine.acts_of_goesOn step goesOn
    obtain ⟨code, items, effect, rfl⟩ := Machine.effect_of_pending calm pending
    have noted := Recorded.noted instruction results acts frame (frame ▸ goesOn)
    rw [effect] at noted
    exact noted
  | returns ended caller rest callers =>
    rw [Frame.record_resume]
    exact .kept (isRunning_advance_of_ended ended)

end Execution

/-- Between ticks no contract is left pending. -/
theorem Machine.calm_invariant (machine : Machine) (invocation : Invocation) :
    Invariant machine invocation (fun stage => stage.frame.pending = none) (fun _ => True) where
  opening _ _ _ _ _ _ := rfl
  tick _ unfinished _ := Execution.pending_tick machine invocation unfinished
  closing _ _ _ _ := trivial

/-! ## Entries

`Entered` is a list of entries with the condition under which each of them was made. The condition
speaks of what was there at that time, so it cannot be said of the list alone. -/

/-- Entries put one after the other, each of them allowed by what was there before it. -/
inductive Entered {State Entry : Type} (allowed : State → Entry → Prop)
    (put : State → Entry → State) : State → List Entry → State → Prop where
  | nil (start : State) : Entered allowed put start [] start
  | cons {start final : State} {entry : Entry} {rest : List Entry} (first : allowed start entry)
    (later : Entered allowed put (put start entry) rest final) :
    Entered allowed put start (entry :: rest) final

namespace Entered

variable {State Entry : Type} {allowed : State → Entry → Prop} {put : State → Entry → State}
  {start middle final : State} {entries others : List Entry}

theorem single {entry : Entry} (first : allowed start entry) :
    Entered allowed put start [entry] (put start entry) :=
  .cons first (.nil _)

theorem append (entered : Entered allowed put start entries middle)
    (later : Entered allowed put middle others final) :
    Entered allowed put start (entries ++ others) final := by
  induction entered with
  | nil _ => exact later
  | cons first _ ih => exact .cons first (ih later)

/-- A list to whose end the entries were put. -/
theorem eq_append {allowed : List Entry → Entry → Prop} {start final : List Entry}
    (entered : Entered allowed (fun list entry => list ++ [entry]) start entries final) :
    final = start ++ entries := by
  induction entered with
  | nil _ => exact (List.append_nil _).symm
  | cons _ _ ih => rw [ih, List.append_assoc, List.singleton_append]

end Entered

/-! ## Journals

The induction over a chain for things that are written down. It needs the run to be without faults,
because a fault may lose part of the record; on the other hand nothing is claimed of the stages of a
chain that faults. -/

/-- Something that frames hand on and to which, unless something faults, a tick puts an entry that
can be read off the stage before it. -/
structure Journal {State Entry : Type} (machine : Machine) (invocation : Invocation)
    (motive : Execution → Prop) (kept : Residue → State) (written? : Execution → Option Entry)
    (allowed : State → Entry → Prop) (put : State → Entry → State) : Prop where
  /-- Entries are made by steps. -/
  ended : ∀ stage : Execution, stage.frame.isRunning = false → written? stage = none
  tick : ∀ execution : Execution, execution.isFinished = false → motive execution →
    (execution.tick machine invocation).frame.fault? = none →
    Entered allowed put (kept execution.frame.toResidue) (written? execution).toList
      (kept (execution.tick machine invocation).frame.toResidue)

namespace Journal

variable {State Entry : Type} {machine : Machine} {invocation : Invocation}
  {motive : Execution → Prop} {between : Progress → Prop} {kept : Residue → State}
  {written? : Execution → Option Entry} {allowed : State → Entry → Prop}
  {put : State → Entry → State}

theorem runFor (journal : Journal machine invocation motive kept written? allowed put)
    (invariant : Invariant machine invocation motive between) {ticks : Nat}
    {execution : Execution} (start : motive execution)
    (finished : (Execution.runFor machine invocation ticks execution).isFinished = true)
    (healthy : (Execution.runFor machine invocation ticks execution).frame.fault? = none) :
    Entered allowed put (kept execution.frame.toResidue)
      ((Execution.stagesFor machine invocation ticks execution).filterMap written?)
      (kept (Execution.runFor machine invocation ticks execution).frame.toResidue) := by
  have alone (stage : Execution) (already : stage.isFinished = true) :
      Entered allowed put (kept stage.frame.toResidue) ([stage].filterMap written?)
        (kept stage.frame.toResidue) := by
    have ended : stage.frame.isRunning = false := by
      simp [Execution.isFinished] at already
      exact already.1
    rw [List.filterMap_cons_none (journal.ended stage ended)]
    exact .nil _
  induction ticks generalizing execution with
  | zero => exact alone execution finished
  | succ ticks ih =>
    rw [Execution.runFor] at finished healthy ⊢
    rw [Execution.stagesFor]
    split at finished
    · rename_i already
      rw [if_pos already, if_pos already]
      exact alone execution already
    · rename_i unfinished
      rw [if_neg unfinished] at healthy ⊢
      rw [if_neg unfinished]
      have going : execution.isFinished = false := Bool.eq_false_iff.2 unfinished
      -- Nothing has faulted on the way, because nothing has in the end.
      have fine := (Execution.ends_runFor finished).fault?_eq_none healthy
      have first := journal.tick execution going start fine
      have rest := ih (invariant.tick execution going start) finished healthy
      rw [List.filterMap_cons]
      cases made : written? execution with
      | none =>
        rw [made] at first
        exact first.append rest
      | some entry =>
        rw [made] at first
        exact first.append rest

theorem script (journal : Journal machine invocation motive kept written? allowed put)
    (invariant : Invariant machine invocation motive between) (entry : ScriptHash)
    (script : Script) (rest : List Script) {progress : Progress} (fresh : progress.fault = none)
    (start : between progress)
    (healthy : (Progress.afterScript machine invocation entry script rest progress).fault = none) :
    Entered allowed put (kept progress.residue)
      (((progress.opening entry script rest.length).stages machine invocation).filterMap written?)
      (kept (Progress.afterScript machine invocation entry script rest progress).residue) :=
  journal.runFor invariant (invariant.opening progress entry script rest.length fresh start)
    (Execution.isFinished_run _ _ _) healthy

theorem scripts (journal : Journal machine invocation motive kept written? allowed put)
    (invariant : Invariant machine invocation motive between) {entry : ScriptHash}
    {scripts : List Script} {progress : Progress} (fresh : progress.fault = none)
    (start : between progress)
    (healthy : (Progress.runAll machine invocation entry scripts progress).fault = none) :
    Entered allowed put (kept progress.residue)
      ((Progress.stages machine invocation entry scripts progress).filterMap written?)
      (kept (Progress.runAll machine invocation entry scripts progress).residue) := by
  induction scripts generalizing progress with
  | nil => exact .nil _
  | cons script rest ih =>
    rw [Progress.runAll_cons] at healthy ⊢
    rw [Progress.stages, List.filterMap_append]
    dsimp only at healthy ⊢
    split at healthy
    · rename_i faulted
      rw [healthy] at faulted
      cases faulted
    · rename_i unfaulted
      have fine := Option.not_isSome_iff_eq_none.1 unfaulted
      have first := journal.script invariant entry script rest fresh start fine
      have after := (invariant.script entry script rest fresh start).2
      rw [if_neg unfaulted, if_neg unfaulted]
      exact first.append (ih fine after healthy)

/-- If no script faults, what is kept in the end has been put there by the steps of the chain. -/
theorem chain (journal : Journal machine invocation motive kept written? allowed put)
    (invariant : Invariant machine invocation motive between) (snapshot : Snapshot) (gas : Int)
    (start : between (machine.opening snapshot gas)) (scripts : List Script)
    (healthy : (machine.progress invocation snapshot gas scripts).fault = none) :
    Entered allowed put (kept {})
      ((machine.steps invocation snapshot gas scripts).filterMap written?)
      (kept (machine.progress invocation snapshot gas scripts).residue) := by
  have every : Entered allowed put (kept {})
      ((machine.stages invocation snapshot gas scripts).filterMap written?)
      (kept (machine.progress invocation snapshot gas scripts).residue) := by
    cases scripts with
    | nil => exact .nil _
    | cons first rest => exact journal.scripts invariant rfl start healthy
  have same : (machine.steps invocation snapshot gas scripts).filterMap written? =
      (machine.stages invocation snapshot gas scripts).filterMap written? := by
    rw [Machine.steps, List.filterMap_filter]
    refine List.filterMap_congr fun stage _ => ?_
    split
    · rfl
    · rename_i ended
      exact (journal.ended stage (Bool.eq_false_iff.2 ended)).symm
  rw [same]
  exact every

/-- What only one service adds to is a journal of the calls of that service. -/
theorem ofService {keep : Record → State} (standard : machine.table = {}) (service : Service)
    (calm : ∀ stage, motive stage → stage.frame.pending = none)
    (silent : ∀ stage, stage.serves machine invocation service = false → written? stage = none)
    (idle : ∀ (record : Record) (script : ScriptHash) (effect : Effect),
      effect.service? ≠ some service → keep (record.note script effect) = keep record)
    (made : ∀ (stage : Execution) (instruction : Instruction) (results : Results),
      motive stage → stage.frame.fault? = none → stage.serves machine invocation service = true →
      machine.Acts invocation stage.frame stage.world instruction results →
      (stage.advance machine invocation).frame = stage.frame.completed instruction results →
      ∃ entry, written? stage = some entry ∧ allowed (keep stage.frame.record) entry ∧
        keep (stage.frame.record.note stage.frame.script results.effect) =
          put (keep stage.frame.record) entry) :
    Journal machine invocation motive (fun residue => keep residue.record) written? allowed
      put where
  ended stage ended := silent stage (Execution.serves_of_ended ended service)
  tick execution unfinished start healthy := by
    have recorded := Execution.recorded_tick unfinished (calm execution start) healthy
    have fine := Execution.fault?_eq_none_of_tick unfinished healthy
    generalize (execution.tick machine invocation).frame.record = record at recorded ⊢
    generalize (execution.tick machine invocation).world = world at recorded
    cases recorded with
    | kept ends =>
      have serves : execution.serves machine invocation service = false := by
        rw [Execution.serves, ends, Bool.and_false]
      rw [silent execution serves]
      exact .nil _
    | noted instruction results acts after goesOn =>
      by_cases serves : execution.serves machine invocation service = true
      · obtain ⟨entry, wrote, fits, kept⟩ :=
          made execution instruction results start fine serves acts after
        rw [wrote, kept]
        exact .single fits
      · have other : results.effect.service? ≠ some service := by
          intro takes
          refine serves ?_
          rw [Execution.serves, goesOn, acts.serviceAt?_of_effect standard takes]
          simp
        rw [silent execution (Bool.eq_false_iff.2 serves), idle _ _ _ other]
        exact .nil _

end Journal

end GasMachine
