import GasMachine.Proofs.History
import GasMachine.Proofs.Tick

/-!
# What has been and what is to come

Some things about a stage can only be told with the stages before it, such as which call a return
belongs to. The history of a stage is what stands before it in the list of stages; a property of
both that survives a tick holds all along a run (`forall_splits`). What stands behind a stage is the
run that begins with it (`stages_of_split`).

A chain is a row of runs, and `openings` are the executions that they begin with.
-/

set_option autoImplicit false

namespace GasMachine

namespace Execution

variable {machine : Machine} {invocation : Invocation} {execution stage : Execution}
  {before later : List Execution}

/-! ## Histories

The induction that carries a property along a run together with the stages before. It is stated for
all ways to split the list of stages, since that is how the past of a stage is named. -/

/-- A stage that stands alone has no history. -/
theorem alone (split : [execution] = before ++ stage :: later) :
    before = [] ∧ stage = execution ∧ later = [] := by
  rcases List.append_eq_singleton_iff.1 split.symm with ⟨none, same⟩ | ⟨_, none⟩
  · cases same
    exact ⟨none, rfl, rfl⟩
  · cases none

theorem forall_splitsFor {motive : List Execution → Execution → Prop}
    (tick : ∀ past execution, execution.isFinished = false → motive past execution →
      motive (past ++ [execution]) (execution.tick machine invocation))
    (ticks : Nat) {past : List Execution} (start : motive past execution)
    (split : stagesFor machine invocation ticks execution = before ++ stage :: later) :
    motive (past ++ before) stage := by
  induction ticks generalizing past execution before with
  | zero =>
    obtain ⟨rfl, rfl, _⟩ := alone split
    rw [List.append_nil]
    exact start
  | succ ticks ih =>
    rw [stagesFor] at split
    split at split
    · obtain ⟨rfl, rfl, _⟩ := alone split
      rw [List.append_nil]
      exact start
    · rename_i unfinished
      cases before with
      | nil =>
        cases (List.cons_eq_cons.1 split).1
        rw [List.append_nil]
        exact start
      | cons other rest =>
        obtain ⟨rfl, behind⟩ := List.cons_eq_cons.1 split
        have next := tick past execution (Bool.eq_false_iff.2 unfinished) start
        have held := ih next behind
        rw [List.append_assoc, List.singleton_append] at held
        exact held

/-- What holds of the start without a history, and after every tick with one stage more, holds of
every stage with its history. -/
theorem forall_splits {motive : List Execution → Execution → Prop} (start : motive [] execution)
    (tick : ∀ past execution, execution.isFinished = false → motive past execution →
      motive (past ++ [execution]) (execution.tick machine invocation))
    (split : execution.stages machine invocation = before ++ stage :: later) :
    motive before stage :=
  forall_splitsFor tick _ start split

/-! ## What follows

A run is told by fuel, and at each stage there is at least as much of it left as the stage weighs.
As any sufficient fuel gives the same stages, those behind a stage are the stages of its own run. -/

theorem stagesFor_of_finished (finished : execution.isFinished = true) (ticks : Nat) :
    stagesFor machine invocation ticks execution = [execution] := by
  cases ticks with
  | zero => rfl
  | succ ticks =>
    rw [stagesFor]
    exact if_pos finished

theorem stages_of_finished (finished : execution.isFinished = true) :
    execution.stages machine invocation = [execution] :=
  stagesFor_of_finished finished _

/-- More ticks than the weight allows for make no difference. -/
theorem stagesFor_congr {ticks other : Nat} (enough : execution.weight ≤ ticks)
    (plenty : execution.weight ≤ other) :
    stagesFor machine invocation ticks execution =
      stagesFor machine invocation other execution := by
  induction ticks generalizing execution other with
  | zero =>
    cases finished : execution.isFinished with
    | true => rw [stagesFor_of_finished finished, stagesFor_of_finished finished]
    | false =>
      have lighter := weight_tick_lt machine invocation finished
      omega
  | succ ticks ih =>
    cases finished : execution.isFinished with
    | true => rw [stagesFor_of_finished finished, stagesFor_of_finished finished]
    | false =>
      have lighter := weight_tick_lt machine invocation finished
      obtain ⟨less, rfl⟩ : ∃ less, other = less + 1 := Nat.exists_eq_add_of_le' (by omega)
      have rest : stagesFor machine invocation ticks (execution.tick machine invocation) =
          stagesFor machine invocation less (execution.tick machine invocation) :=
        ih (by omega) (by omega)
      rw [stagesFor, stagesFor, if_neg (Bool.eq_false_iff.1 finished),
        if_neg (Bool.eq_false_iff.1 finished), rest]

theorem stages_tick (unfinished : execution.isFinished = false) :
    execution.stages machine invocation =
      execution :: (execution.tick machine invocation).stages machine invocation := by
  have lighter := weight_tick_lt machine invocation unfinished
  unfold stages
  rw [stagesFor_congr (Nat.le_refl _) (Nat.le_succ _), stagesFor,
    if_neg (Bool.eq_false_iff.1 unfinished), stagesFor_congr (by omega) (Nat.le_refl _)]

/-- From a stage on, the stages are those of the run that begins with it. -/
theorem stages_of_split
    (split : execution.stages machine invocation = before ++ stage :: later) :
    stage.stages machine invocation = stage :: later := by
  induction before generalizing execution with
  | nil =>
    cases finished : execution.isFinished with
    | true =>
      rw [stages_of_finished finished] at split
      cases split
      exact stages_of_finished finished
    | false =>
      have first : execution.stages machine invocation = _ := stages_tick finished
      rw [first] at split
      cases split
      exact first
  | cons other rest ih =>
    cases finished : execution.isFinished with
    | true =>
      rw [stages_of_finished finished] at split
      cases (alone split).1
    | false =>
      rw [stages_tick finished] at split
      exact ih (List.cons_eq_cons.1 split).2

theorem getLast?_stagesFor (ticks : Nat) (execution : Execution) :
    (stagesFor machine invocation ticks execution).getLast? =
      some (runFor machine invocation ticks execution) := by
  induction ticks generalizing execution with
  | zero => rfl
  | succ ticks ih =>
    rw [stagesFor, runFor]
    split
    · rfl
    · rw [List.getLast?_cons, ih]
      rfl

/-- The last stage is the one that a run ends with. -/
theorem getLast?_stages (machine : Machine) (invocation : Invocation) (execution : Execution) :
    (execution.stages machine invocation).getLast? = some (execution.run machine invocation) :=
  getLast?_stagesFor _ execution

end Execution

/-! ## Openings

A property of runs becomes one of chains by way of the openings: every stage of the chain is a stage
of the run that begins with one of them. -/

namespace Progress

/-- The executions with which scripts in a row begin, up to the first that faults. -/
def openings (machine : Machine) (invocation : Invocation) (entry : ScriptHash) :
    List Script → Progress → List Execution
  | [], _ => []
  | script :: rest, progress =>
    let next := afterScript machine invocation entry script rest progress
    progress.opening entry script rest.length ::
      if next.fault.isSome then [] else openings machine invocation entry rest next

variable {machine : Machine} {invocation : Invocation} {entry : ScriptHash}

/-- The stages are those of the runs that the openings begin. -/
theorem stages_eq_flatMap (scripts : List Script) (progress : Progress) :
    stages machine invocation entry scripts progress =
      (openings machine invocation entry scripts progress).flatMap fun opening =>
        opening.stages machine invocation := by
  induction scripts generalizing progress with
  | nil => rfl
  | cons script rest ih =>
    rw [stages, openings, List.flatMap_cons]
    split
    · rfl
    · rw [ih]

/-- Every opening is the start of a script, whatever the scripts before it have left. -/
theorem start_of_mem_openings {scripts : List Script} {progress : Progress} {opening : Execution}
    (member : opening ∈ openings machine invocation entry scripts progress) :
    ∃ launch world, opening = { frame := Launch.start launch, world } := by
  induction scripts generalizing progress with
  | nil => cases member
  | cons script rest ih =>
    rw [openings] at member
    rcases List.mem_cons.1 member with rfl | later
    · exact ⟨_, _, rfl⟩
    · split at later
      · cases later
      · exact ih later

end Progress

/-- The executions with which the scripts of a chain begin. -/
def Machine.openings (machine : Machine) (invocation : Invocation) (snapshot : Snapshot)
    (gas : Int) : List Script → List Execution
  | [] => []
  | first :: rest =>
    Progress.openings machine invocation first.hash (first :: rest) (machine.opening snapshot gas)

namespace Machine

variable {machine : Machine} {invocation : Invocation} {snapshot : Snapshot} {gas : Int}

theorem stages_eq_flatMap (scripts : List Script) :
    machine.stages invocation snapshot gas scripts =
      (machine.openings invocation snapshot gas scripts).flatMap fun opening =>
        opening.stages machine invocation := by
  cases scripts with
  | nil => rfl
  | cons first rest => exact Progress.stages_eq_flatMap _ _

theorem start_of_mem_openings {scripts : List Script} {opening : Execution}
    (member : opening ∈ machine.openings invocation snapshot gas scripts) :
    ∃ launch world, opening = { frame := Launch.start launch, world } := by
  cases scripts with
  | nil => cases member
  | cons first rest => exact Progress.start_of_mem_openings member

end Machine

end GasMachine
