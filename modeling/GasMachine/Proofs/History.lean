import Mathlib
import GasMachine.Chain
import GasMachine.Execution.Termination

/-!
# What a chain passes through

The stages of a run are the executions between its ticks, the first and the last included; those of
a chain are the stages of its scripts in a row. A step is taken from every stage whose frame runs,
and from no other. What holds at the start, survives a tick and is handed on from script to script
holds at every stage (`Invariant`); what survives a tick only from certain stages does so as long as
no other stage is passed through (`GuardedInvariant`).
-/

set_option autoImplicit false

namespace GasMachine

/-! ## Runs

A run is told by fuel, and its weight is enough fuel. The stages are collected along the same
recursion, so an induction on them is one on the ticks. -/

namespace Execution

/-- The stages of a number of ticks. -/
def stagesFor (machine : Machine) (invocation : Invocation) : Nat → Execution → List Execution
  | 0, execution => [execution]
  | ticks + 1, execution =>
    if execution.isFinished then [execution]
    else execution :: stagesFor machine invocation ticks (execution.tick machine invocation)

/-- The stages of a run. -/
def stages (execution : Execution) (machine : Machine) (invocation : Invocation) :
    List Execution :=
  stagesFor machine invocation execution.weight execution

variable {machine : Machine} {invocation : Invocation}

theorem runFor_mem_stagesFor (ticks : Nat) (execution : Execution) :
    runFor machine invocation ticks execution ∈ stagesFor machine invocation ticks execution := by
  induction ticks generalizing execution with
  | zero => exact List.mem_singleton.2 rfl
  | succ ticks ih =>
    rw [runFor, stagesFor]
    split
    · exact List.mem_singleton.2 rfl
    · exact List.mem_cons_of_mem _ (ih _)

theorem run_mem_stages (execution : Execution) :
    execution.run machine invocation ∈ execution.stages machine invocation :=
  runFor_mem_stagesFor _ _

/-- What survives ticks from allowed stages holds at every stage, if all of them are allowed. -/
theorem forall_mem_stagesFor {allowed motive : Execution → Prop}
    (tick : ∀ execution, allowed execution → execution.isFinished = false → motive execution →
      motive (execution.tick machine invocation))
    (ticks : Nat) {execution : Execution} (start : motive execution)
    (every : ∀ stage ∈ stagesFor machine invocation ticks execution, allowed stage) :
    ∀ stage ∈ stagesFor machine invocation ticks execution, motive stage := by
  induction ticks generalizing execution with
  | zero =>
    intro stage member
    rw [List.mem_singleton.1 member]
    exact start
  | succ ticks ih =>
    intro stage member
    rw [stagesFor] at member every
    split at member
    · rw [List.mem_singleton.1 member]
      exact start
    · rename_i unfinished
      rw [if_neg unfinished] at every
      obtain ⟨first, later⟩ := List.forall_mem_cons.1 every
      rcases List.mem_cons.1 member with rfl | after
      · exact start
      · exact ih (tick execution first (Bool.eq_false_iff.2 unfinished) start) later stage after

end Execution

/-! ## Chains

The scripts of a chain are run one after the other, up to the first that faults. The stages of a
chain, the steps among them and the progress at its end are defined along that recursion. -/

namespace Progress

/-- The execution of the next script, at its start. -/
def opening (progress : Progress) (entry : ScriptHash) (script : Script) (remaining : Nat) :
    Execution :=
  { frame := (progress.launch entry script remaining).start, world := progress.world }

/-- How far the chain has come when the next script has ended. -/
def afterScript (machine : Machine) (invocation : Invocation) (entry : ScriptHash)
    (script : Script) (rest : List Script) (progress : Progress) : Progress :=
  progress.after ((progress.opening entry script rest.length).run machine invocation)

/-- The stages of scripts in a row, up to the first that faults. -/
def stages (machine : Machine) (invocation : Invocation) (entry : ScriptHash) :
    List Script → Progress → List Execution
  | [], _ => []
  | script :: rest, progress =>
    let next := afterScript machine invocation entry script rest progress
    (progress.opening entry script rest.length).stages machine invocation ++
      if next.fault.isSome then [] else stages machine invocation entry rest next

theorem runAll_cons (machine : Machine) (invocation : Invocation) (entry : ScriptHash)
    (script : Script) (rest : List Script) (progress : Progress) :
    runAll machine invocation entry (script :: rest) progress =
      let next := afterScript machine invocation entry script rest progress
      if next.fault.isSome then next else runAll machine invocation entry rest next := rfl

end Progress

namespace Machine

/-- The machine with the standard table and the standard services. -/
def standard (config : Config) : Machine := { config }

/-- A chain before its first script. -/
def opening (machine : Machine) (snapshot : Snapshot) (gas : Int) : Progress :=
  { gas := clamp (gas + machine.config.freeGas)
    world := { store := LayeredStore.begin { base := snapshot } } }

/-- The stages of a chain. -/
def stages (machine : Machine) (invocation : Invocation) (snapshot : Snapshot) (gas : Int) :
    List Script → List Execution
  | [] => []
  | first :: rest =>
    Progress.stages machine invocation first.hash (first :: rest) (machine.opening snapshot gas)

/-- The stages from which a chain takes a step, one for each step. -/
def steps (machine : Machine) (invocation : Invocation) (snapshot : Snapshot) (gas : Int)
    (scripts : List Script) : List Execution :=
  (machine.stages invocation snapshot gas scripts).filter fun stage => stage.frame.isRunning

/-- How far a chain comes. -/
def progress (machine : Machine) (invocation : Invocation) (snapshot : Snapshot) (gas : Int) :
    List Script → Progress
  | [] => machine.opening snapshot gas
  | first :: rest =>
    Progress.runAll machine invocation first.hash (first :: rest) (machine.opening snapshot gas)

end Machine

/-! ## Invariants

This is the one induction over chains that most properties are proved by. Beside the property of
stages there has to be one that holds between two scripts, where there is no execution, only what
the last one has left. A guard says from which stages a tick need keep the property; it is for what
is true only as long as nobody does something, and that nobody does is asked of the whole chain. -/

/-- A property of executions that survives a tick from an allowed stage, with what it comes to
between two scripts. -/
structure GuardedInvariant (machine : Machine) (invocation : Invocation)
    (allowed motive : Execution → Prop) (between : Progress → Prop) : Prop where
  opening : ∀ (progress : Progress) (entry : ScriptHash) (script : Script) (remaining : Nat),
    progress.fault = none → between progress → motive (progress.opening entry script remaining)
  tick : ∀ execution : Execution, allowed execution → execution.isFinished = false →
    motive execution → motive (execution.tick machine invocation)
  closing : ∀ (progress : Progress) (execution : Execution), execution.isFinished = true →
    motive execution → between (progress.after execution)

namespace GuardedInvariant

variable {machine : Machine} {invocation : Invocation} {allowed motive : Execution → Prop}
  {between : Progress → Prop}

/-- It holds at every stage of a script, and between this script and the next. -/
theorem script (invariant : GuardedInvariant machine invocation allowed motive between)
    (entry : ScriptHash) (script : Script) (rest : List Script) {progress : Progress}
    (fresh : progress.fault = none) (start : between progress)
    (guarded : ∀ stage ∈ (progress.opening entry script rest.length).stages machine invocation,
      allowed stage) :
    (∀ stage ∈ (progress.opening entry script rest.length).stages machine invocation,
      motive stage) ∧
    between (Progress.afterScript machine invocation entry script rest progress) := by
  have every := Execution.forall_mem_stagesFor invariant.tick
    (progress.opening entry script rest.length).weight
    (invariant.opening progress entry script rest.length fresh start) guarded
  refine ⟨every, invariant.closing _ _ (Execution.isFinished_run _ _ _) ?_⟩
  exact every _ (Execution.run_mem_stages _)

theorem scripts (invariant : GuardedInvariant machine invocation allowed motive between)
    {entry : ScriptHash} {scripts : List Script} {progress : Progress}
    (fresh : progress.fault = none) (start : between progress)
    (guarded : ∀ stage ∈ Progress.stages machine invocation entry scripts progress,
      allowed stage) :
    (∀ stage ∈ Progress.stages machine invocation entry scripts progress, motive stage) ∧
    between (Progress.runAll machine invocation entry scripts progress) := by
  induction scripts generalizing progress with
  | nil => exact ⟨List.forall_mem_nil _, start⟩
  | cons script rest ih =>
    rw [Progress.stages, List.forall_mem_append] at guarded
    obtain ⟨every, after⟩ := invariant.script entry script rest fresh start guarded.1
    rw [Progress.stages, Progress.runAll_cons, List.forall_mem_append]
    dsimp only at guarded ⊢
    split
    · exact ⟨⟨every, List.forall_mem_nil _⟩, after⟩
    · rename_i healthy
      rw [if_neg healthy] at guarded
      obtain ⟨later, final⟩ := ih (Option.not_isSome_iff_eq_none.1 healthy) after guarded.2
      exact ⟨⟨every, later⟩, final⟩

/-- It holds at every stage of a chain, and at the end. -/
theorem chain (invariant : GuardedInvariant machine invocation allowed motive between)
    (snapshot : Snapshot) (gas : Int) (start : between (machine.opening snapshot gas))
    (scripts : List Script)
    (guarded : ∀ stage ∈ machine.stages invocation snapshot gas scripts, allowed stage) :
    (∀ stage ∈ machine.stages invocation snapshot gas scripts, motive stage) ∧
    between (machine.progress invocation snapshot gas scripts) := by
  cases scripts with
  | nil => exact ⟨List.forall_mem_nil _, start⟩
  | cons first rest => exact invariant.scripts rfl start guarded

end GuardedInvariant

/-- A property of executions that every stage of a chain has, with what it comes to between two
scripts. -/
structure Invariant (machine : Machine) (invocation : Invocation)
    (motive : Execution → Prop) (between : Progress → Prop) : Prop where
  opening : ∀ (progress : Progress) (entry : ScriptHash) (script : Script) (remaining : Nat),
    progress.fault = none → between progress → motive (progress.opening entry script remaining)
  tick : ∀ execution : Execution, execution.isFinished = false → motive execution →
    motive (execution.tick machine invocation)
  closing : ∀ (progress : Progress) (execution : Execution), execution.isFinished = true →
    motive execution → between (progress.after execution)

namespace Invariant

variable {machine : Machine} {invocation : Invocation} {motive : Execution → Prop}
  {between : Progress → Prop}

/-- An invariant needs no guard. -/
theorem guarded (invariant : Invariant machine invocation motive between) :
    GuardedInvariant machine invocation (fun _ => True) motive between :=
  ⟨invariant.opening, fun execution _ => invariant.tick execution, invariant.closing⟩

theorem script (invariant : Invariant machine invocation motive between) (entry : ScriptHash)
    (script : Script) (rest : List Script) {progress : Progress} (fresh : progress.fault = none)
    (start : between progress) :
    (∀ stage ∈ (progress.opening entry script rest.length).stages machine invocation,
      motive stage) ∧
    between (Progress.afterScript machine invocation entry script rest progress) :=
  invariant.guarded.script entry script rest fresh start fun _ _ => trivial

/-- It holds at every stage of a chain. -/
theorem chain (invariant : Invariant machine invocation motive between) (snapshot : Snapshot)
    (gas : Int) (start : between (machine.opening snapshot gas)) (scripts : List Script) :
    ∀ stage ∈ machine.stages invocation snapshot gas scripts, motive stage :=
  (invariant.guarded.chain snapshot gas start scripts fun _ _ => trivial).1

theorem progress (invariant : Invariant machine invocation motive between) (snapshot : Snapshot)
    (gas : Int) (start : between (machine.opening snapshot gas)) (scripts : List Script) :
    between (machine.progress invocation snapshot gas scripts) :=
  (invariant.guarded.chain snapshot gas start scripts fun _ _ => trivial).2

end Invariant

/-! ## Ledgers

The same for a quantity: if each step changes it by a share that can be read off its stage, and
nothing else changes it, the shares of all steps add up to the difference between start and end. The
induction is on the ticks and then on the scripts, with an invariant for what the shares rely on. -/

/-- A quantity that changes only where steps are taken, and there by a share that can be read off
the stage. -/
structure Ledger (machine : Machine) (invocation : Invocation) (motive : Execution → Prop)
    (worth : Progress → Int) (potential share : Execution → Int) : Prop where
  tick : ∀ execution : Execution, execution.isFinished = false → motive execution →
    potential execution = potential (execution.tick machine invocation) +
      if execution.frame.isRunning then share execution else 0
  script : ∀ (progress : Progress) (entry : ScriptHash) (script : Script) (remaining : Nat)
    (execution : Execution), worth progress - worth (progress.after execution) =
      potential (progress.opening entry script remaining) - potential execution

namespace Ledger

variable {machine : Machine} {invocation : Invocation} {motive : Execution → Prop}
  {between : Progress → Prop} {worth : Progress → Int} {potential share : Execution → Int}

/-- The shares of the stages from which steps are taken. -/
def total (share : Execution → Int) (stages : List Execution) : Int :=
  ((stages.filter fun stage => stage.frame.isRunning).map share).sum

theorem total_append (share : Execution → Int) (stages others : List Execution) :
    total share (stages ++ others) = total share stages + total share others := by
  simp only [total, List.filter_append, List.map_append, List.sum_append]

theorem total_cons (share : Execution → Int) (stage : Execution) (rest : List Execution) :
    total share (stage :: rest) =
      (if stage.frame.isRunning then share stage else 0) + total share rest := by
  unfold total
  cases running : stage.frame.isRunning <;> simp [running]

theorem total_finished {execution : Execution} (finished : execution.isFinished = true) :
    total share [execution] = 0 := by
  have ended : execution.frame.isRunning = false := by
    simp [Execution.isFinished] at finished
    exact finished.1
  rw [total_cons, ended]
  rfl

theorem runFor (invariant : Invariant machine invocation motive between)
    (ledger : Ledger machine invocation motive worth potential share) {ticks : Nat}
    {execution : Execution} (start : motive execution)
    (finished : (Execution.runFor machine invocation ticks execution).isFinished = true) :
    potential execution = potential (Execution.runFor machine invocation ticks execution) +
      total share (Execution.stagesFor machine invocation ticks execution) := by
  induction ticks generalizing execution with
  | zero =>
    rw [Execution.runFor] at finished ⊢
    rw [Execution.stagesFor, total_finished finished, Int.add_zero]
  | succ ticks ih =>
    rw [Execution.runFor] at finished ⊢
    rw [Execution.stagesFor]
    split at finished
    · rename_i already
      rw [if_pos already, if_pos already, total_finished already, Int.add_zero]
    · rename_i unfinished
      have going : execution.isFinished = false := Bool.eq_false_iff.2 unfinished
      have first := ledger.tick execution going start
      have rest := ih (invariant.tick execution going start) finished
      rw [if_neg unfinished, if_neg unfinished, total_cons]
      omega

theorem script_run (invariant : Invariant machine invocation motive between)
    (ledger : Ledger machine invocation motive worth potential share) (entry : ScriptHash)
    (script : Script) (rest : List Script) {progress : Progress} (fresh : progress.fault = none)
    (start : between progress) :
    worth progress =
      worth (Progress.afterScript machine invocation entry script rest progress) +
        total share ((progress.opening entry script rest.length).stages machine invocation) := by
  have opened := invariant.opening progress entry script rest.length fresh start
  have run : potential (progress.opening entry script rest.length) =
      potential ((progress.opening entry script rest.length).run machine invocation) +
        total share ((progress.opening entry script rest.length).stages machine invocation) :=
    ledger.runFor invariant opened (Execution.isFinished_run _ _ _)
  have around := ledger.script progress entry script rest.length
    ((progress.opening entry script rest.length).run machine invocation)
  unfold Progress.afterScript
  omega

theorem runAll (invariant : Invariant machine invocation motive between)
    (ledger : Ledger machine invocation motive worth potential share) {entry : ScriptHash}
    {scripts : List Script} {progress : Progress} (fresh : progress.fault = none)
    (start : between progress) :
    worth progress = worth (Progress.runAll machine invocation entry scripts progress) +
      total share (Progress.stages machine invocation entry scripts progress) := by
  induction scripts generalizing progress with
  | nil => exact (Int.add_zero _).symm
  | cons script rest ih =>
    have first := ledger.script_run invariant entry script rest fresh start
    have after := (invariant.script entry script rest fresh start).2
    rw [Progress.runAll_cons, Progress.stages, total_append, first]
    dsimp only
    split
    · exact congrArg (_ + ·) (Int.add_zero _).symm
    · rename_i healthy
      rw [ih (Option.not_isSome_iff_eq_none.1 healthy) after]
      omega

/-- The shares of the steps of a chain add up. -/
theorem chain (invariant : Invariant machine invocation motive between)
    (ledger : Ledger machine invocation motive worth potential share) (snapshot : Snapshot)
    (gas : Int) (start : between (machine.opening snapshot gas)) (scripts : List Script) :
    worth (machine.opening snapshot gas) =
      worth (machine.progress invocation snapshot gas scripts) +
        ((machine.steps invocation snapshot gas scripts).map share).sum := by
  cases scripts with
  | nil => exact (Int.add_zero _).symm
  | cons first rest => exact ledger.runAll invariant rfl start

end Ledger

end GasMachine
