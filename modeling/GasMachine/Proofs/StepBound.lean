import GasMachine.Proofs.Call
import GasMachine.Proofs.History

/-!
# How long a chain can take

A run is a loop that nobody told when to stop. `Ends` says that a loop comes to its end, without a
bound on the way; every chain does. A step costs 30 or more, except that the last step of a frame
may cost less: so each script has one step that nobody may have paid for, and each contract has
one, which the call of the contract has paid for in advance (`Execution.credit_tick_le`).
-/

set_option autoImplicit false

namespace GasMachine

/-! ## Coming to an end

`Ends` has no fuel in it and no bound. It is an inductive relation, so that it holds only of runs
that really come to their end; that every run does is what the weight is for. -/

/-- From one execution a run comes to its end at another. -/
inductive Execution.Ends (machine : Machine) (invocation : Invocation) :
    Execution → Execution → Prop where
  | done {execution : Execution} (finished : execution.isFinished = true) :
    Ends machine invocation execution execution
  | tick {execution final : Execution} (unfinished : execution.isFinished = false)
    (rest : Ends machine invocation (execution.tick machine invocation) final) :
    Ends machine invocation execution final

/-- From one progress scripts in a row come to their end at another. -/
inductive Progress.Ends (machine : Machine) (invocation : Invocation) (entry : ScriptHash) :
    List Script → Progress → Progress → Prop where
  | nil {progress : Progress} : Ends machine invocation entry [] progress progress
  | faulted {script : Script} {rest : List Script} {progress : Progress} {execution : Execution}
    (run : (progress.opening entry script rest.length).Ends machine invocation execution)
    (fault : (progress.after execution).fault.isSome = true) :
    Ends machine invocation entry (script :: rest) progress (progress.after execution)
  | next {script : Script} {rest : List Script} {progress final : Progress}
    {execution : Execution}
    (run : (progress.opening entry script rest.length).Ends machine invocation execution)
    (healthy : (progress.after execution).fault = none)
    (later : Ends machine invocation entry rest (progress.after execution) final) :
    Ends machine invocation entry (script :: rest) progress final

namespace Execution

variable {machine : Machine} {invocation : Invocation}

theorem ends_runFor {ticks : Nat} {execution : Execution}
    (finished : (runFor machine invocation ticks execution).isFinished = true) :
    execution.Ends machine invocation (runFor machine invocation ticks execution) := by
  induction ticks generalizing execution with
  | zero => exact .done finished
  | succ ticks ih =>
    rw [runFor] at finished ⊢
    split at finished
    · rename_i already
      rw [if_pos already]
      exact .done already
    · rename_i unfinished
      rw [if_neg unfinished]
      exact .tick (Bool.eq_false_iff.2 unfinished) (ih finished)

theorem ends_run (execution : Execution) (machine : Machine) (invocation : Invocation) :
    execution.Ends machine invocation (execution.run machine invocation) :=
  ends_runFor (isFinished_run execution machine invocation)

/-- A run comes to one end only. -/
theorem Ends.unique {execution final other : Execution}
    (ends : execution.Ends machine invocation final)
    (alsoEnds : execution.Ends machine invocation other) : final = other := by
  induction ends with
  | done finished =>
    cases alsoEnds with
    | done _ => rfl
    | tick unfinished _ => cases finished.symm.trans unfinished
  | tick unfinished _ ih =>
    cases alsoEnds with
    | done finished => cases finished.symm.trans unfinished
    | tick _ rest => exact ih rest

theorem Ends.run_eq {execution final : Execution}
    (ends : execution.Ends machine invocation final) :
    execution.run machine invocation = final :=
  (execution.ends_run machine invocation).unique ends

end Execution

theorem Progress.ends_runAll {machine : Machine} {invocation : Invocation} {entry : ScriptHash}
    (scripts : List Script) (progress : Progress) :
    Progress.Ends machine invocation entry scripts progress
      (Progress.runAll machine invocation entry scripts progress) := by
  induction scripts generalizing progress with
  | nil => exact .nil
  | cons script rest ih =>
    have run := (progress.opening entry script rest.length).ends_run machine invocation
    rw [runAll_cons]
    dsimp only
    split
    · rename_i fault
      exact .faulted run fault
    · rename_i healthy
      exact .next run (Option.not_isSome_iff_eq_none.1 healthy) (ih _)

/-- A chain comes to its end at a progress. -/
def Machine.Ends (machine : Machine) (invocation : Invocation) (snapshot : Snapshot) (gas : Int)
    (scripts : List Script) (final : Progress) : Prop :=
  match scripts with
  | [] => final = machine.opening snapshot gas
  | first :: rest =>
    Progress.Ends machine invocation first.hash (first :: rest) (machine.opening snapshot gas) final

theorem Machine.ends_progress (machine : Machine) (invocation : Invocation) (snapshot : Snapshot)
    (gas : Int) (scripts : List Script) :
    machine.Ends invocation snapshot gas scripts
      (machine.progress invocation snapshot gas scripts) := by
  cases scripts with
  | nil => rfl
  | cons first rest => exact Progress.ends_runAll _ _

/-! ## What pays for the steps

The credit of an execution counts the steps that were taken, those that the gas can pay for, and one
for each frame that may take a last step for too little gas. It never rises. A step moves 30 from
the gas to the steps taken or uses the one that its frame has free, and the call of a contract costs
enough to give two such steps, one to the contract and one to the caller that takes it up again. -/

namespace Execution

variable {machine : Machine} {invocation : Invocation}

/-- The steps so far and those that may follow, at 30 each: from the gas, and one for every frame
that has not ended. -/
def credit (execution : Execution) : Int :=
  30 * execution.steps + max execution.frame.gas 0 + 30 * execution.callers.length
    + if execution.frame.isRunning then 30 else 0

/-- A tick never adds credit. A call pays for the last step of the contract and for that of its
caller. -/
theorem credit_tick_le (standard : machine.table = {}) (invocation : Invocation)
    {execution : Execution} (unfinished : execution.isFinished = false)
    (calm : execution.frame.pending = none) :
    (execution.tick machine invocation).credit ≤ execution.credit := by
  have less := machine.step_gas_le invocation execution.frame execution.world
  have goesOn := machine.step_goesOn invocation execution.frame execution.world
  have move := tickTo_tick machine invocation unfinished
  generalize execution.tick machine invocation = next at move ⊢
  unfold credit
  cases move with
  | stays running after world step _ =>
    rw [step] at less goesOn
    rw [if_pos running, Frame.gas_settled, Frame.isRunning_settled]
    dsimp only at less goesOn ⊢
    -- If the frame goes on, it has paid 30; if it has ended, the 30 are those that it stood for.
    by_cases alive : after.isRunning = true
    · have paid := (goesOn alive).paid
      have nonneg := (goesOn alive).nonneg
      rw [if_pos alive]
      omega
    · rw [if_neg alive]
      omega
  | calls running after world launch step pending goesOn =>
    have calls := Machine.calls_of_pending standard calm step pending goesOn
    have paid := calls.paid
    have nonneg := calls.nonneg
    have started : launch.start.isRunning = true := rfl
    rw [if_pos running, if_pos started, gas_start, calls.gas, List.length_cons]
    dsimp only
    omega
  | returns ended caller rest callers =>
    rw [gas_resume, callers, List.length_cons, ended, if_neg Bool.false_ne_true]
    dsimp only
    split <;> omega

/-- An execution in which nothing is pending, and with no more credit than at the start. -/
structure InCredit (limit : Int) (execution : Execution) : Prop where
  calm : execution.frame.pending = none
  credit : execution.credit ≤ limit

theorem Ends.inCredit (standard : machine.table = {}) {execution final : Execution} {limit : Int}
    (ends : execution.Ends machine invocation final) (start : execution.InCredit limit) :
    final.InCredit limit := by
  induction ends with
  | done _ => exact start
  | tick unfinished _ ih =>
    have less := credit_tick_le standard invocation unfinished start.calm
    exact ih ⟨pending_tick machine invocation unfinished, Int.le_trans less start.credit⟩

/-- A script takes no more steps than its gas pays for, and one. -/
theorem Ends.steps_le (standard : machine.table = {}) {entry : ScriptHash} {script : Script}
    {remaining : Nat} {progress : Progress} {final : Execution}
    (ends : (progress.opening entry script remaining).Ends machine invocation final) :
    30 * (final.steps : Int) + max final.frame.gas 0 ≤ max progress.gas 0 + 30 := by
  have start : (progress.opening entry script remaining).credit = max progress.gas 0 + 30 := by
    show 30 * ((0 : Nat) : Int) + max progress.gas 0 + 30 * ((0 : Nat) : Int) + 30 = _
    omega
  have credit := (ends.inCredit standard ⟨rfl, Int.le_of_eq start⟩).credit
  unfold Execution.credit at credit
  split at credit <;> omega

end Execution

theorem Progress.Ends.steps_le {machine : Machine} {invocation : Invocation}
    (standard : machine.table = {}) {entry : ScriptHash} {scripts : List Script}
    {progress final : Progress}
    (ends : Progress.Ends machine invocation entry scripts progress final) :
    30 * (final.steps : Int) + max final.gas 0 ≤
      30 * progress.steps + max progress.gas 0 + 30 * scripts.length := by
  induction ends with
  | nil => simp
  | faulted run fault =>
    have steps := run.steps_le standard
    rw [List.length_cons]
    show 30 * ((_ + _ : Nat) : Int) + max (Frame.gas _) 0 ≤ _
    omega
  | next run healthy later ih =>
    have steps := run.steps_le standard
    rw [List.length_cons]
    refine Int.le_trans ih ?_
    show 30 * ((_ + _ : Nat) : Int) + max (Frame.gas _) 0 + _ ≤ _
    omega

/-! ## Counting the steps

The counter of the machine and the list of stages agree, as a ledger with a share of one for each
step. -/

theorem Execution.steps_tick (machine : Machine) (invocation : Invocation)
    {execution : Execution} (unfinished : execution.isFinished = false) :
    ((execution.tick machine invocation).steps : Int) =
      execution.steps + if execution.frame.isRunning then 1 else 0 := by
  have move := tickTo_tick machine invocation unfinished
  generalize execution.tick machine invocation = next at move ⊢
  cases move with
  | stays running after world step calm => rw [if_pos running, Int.natCast_succ]
  | calls running after world launch step pending goesOn => rw [if_pos running, Int.natCast_succ]
  | returns ended caller rest callers =>
    rw [ended]
    exact (Int.add_zero _).symm

namespace Machine

theorem stepLedger (machine : Machine) (invocation : Invocation) :
    Ledger machine invocation (fun _ => True) (fun progress => -progress.steps)
      (fun execution => -execution.steps) (fun _ => 1) := by
  constructor
  case tick =>
    intro execution unfinished _
    have more := Execution.steps_tick machine invocation unfinished
    omega
  case script =>
    intro progress entry script remaining execution
    show -(progress.steps : Int) - -((progress.steps + execution.steps : Nat) : Int) =
      -((0 : Nat) : Int) - -(execution.steps : Int)
    omega

/-- The counter of steps counts the stages from which steps are taken. -/
theorem steps_progress (machine : Machine) (invocation : Invocation) (snapshot : Snapshot)
    (gas : Int) (scripts : List Script) :
    (machine.progress invocation snapshot gas scripts).steps =
      (machine.steps invocation snapshot gas scripts).length := by
  have nothing : Invariant machine invocation (fun _ => True) (fun _ => True) :=
    ⟨fun _ _ _ _ _ _ => trivial, fun _ _ _ => trivial, fun _ _ _ _ => trivial⟩
  have total := (machine.stepLedger invocation).chain nothing snapshot gas trivial scripts
  have ones : ((machine.steps invocation snapshot gas scripts).map fun _ => (1 : Int)).sum =
      (machine.steps invocation snapshot gas scripts).length := by
    rw [List.map_const', List.sum_replicate_int, Int.mul_one]
  rw [ones] at total
  have none : (machine.opening snapshot gas).steps = 0 := rfl
  omega

end Machine

/-! ## Chains -/

namespace Machine

/-- A chain that has ended has taken no more steps than its gas pays for, and one for each
script. -/
theorem Ends.steps_le {machine : Machine} (standard : machine.table = {})
    {invocation : Invocation} {snapshot : Snapshot} {gas : Int} {final : Progress}
    {scripts : List Script} (ends : machine.Ends invocation snapshot gas scripts final) :
    30 * (final.steps : Int) ≤
      max (clamp (gas + machine.config.freeGas)) 0 + 30 * scripts.length := by
  cases scripts with
  | nil =>
    cases ends
    show 30 * ((0 : Nat) : Int) ≤ _
    omega
  | cons first rest =>
    have bound := Progress.Ends.steps_le standard ends
    have none : (machine.opening snapshot gas).steps = 0 := rfl
    have budget : (machine.opening snapshot gas).gas = clamp (gas + machine.config.freeGas) := rfl
    omega

theorem steps_executeChain (machine : Machine) (invocation : Invocation) (snapshot : Snapshot)
    (gas : Int) (scripts : List Script) :
    (machine.executeChain invocation snapshot gas scripts).steps =
      (machine.progress invocation snapshot gas scripts).steps := by
  cases scripts <;> rfl

/-- Every chain ends, and its steps are no more than its gas pays for at 30 each, and one for each
script. -/
theorem executeChain_ends (config : Config) (invocation : Invocation) (snapshot : Snapshot)
    (gas : Int) (scripts : List Script) :
    let machine := standard config
    let final := machine.progress invocation snapshot gas scripts
    let outcome := machine.executeChain invocation snapshot gas scripts
    machine.Ends invocation snapshot gas scripts final ∧ outcome.steps = final.steps ∧
      outcome.steps = (machine.steps invocation snapshot gas scripts).length ∧
      outcome.steps ≤ (clamp (gas + config.freeGas)).toNat / 30 + scripts.length := by
  intro machine final outcome
  have ends : machine.Ends invocation snapshot gas scripts final :=
    machine.ends_progress invocation snapshot gas scripts
  have counted : outcome.steps = final.steps :=
    machine.steps_executeChain invocation snapshot gas scripts
  have bound : 30 * (final.steps : Int) ≤ max (clamp (gas + config.freeGas)) 0 + _ :=
    ends.steps_le rfl
  refine ⟨ends, counted, counted.trans (machine.steps_progress _ _ _ _), ?_⟩
  rw [counted]
  omega

end Machine

end GasMachine
