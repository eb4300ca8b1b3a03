import GasMachine.Proofs.Call
import GasMachine.Proofs.History

/-!
# The account of a chain

With the standard table every step takes from the gas what the price list says, or what is there if
that is less; it does so whether the instruction succeeds or not. The gas wanders from frame to
frame, but nothing is lost on the way, so the cost of a chain, which is found by a subtraction at
the end, is the sum of what its steps took.
-/

set_option autoImplicit false

namespace GasMachine

open TwosComplement (signedMax signedMin fitsSigned)

/-! ## Steps

What is due is told from the price list and the gas, before it is known how the step ends. It is
taken before the instruction acts, and a step that faults earlier has no instruction or not enough
gas for it; so in each of these cases it is what was taken. -/

namespace Machine

/-- What a step takes from the gas by the price list: nothing without an instruction, and no more
than is there. -/
def due (machine : Machine) (invocation : Invocation) (frame : Frame) : Int :=
  match machine.instructionAt? invocation frame with
  | some instruction => min (machine.listPrice instruction : Int) (max frame.gas 0)
  | none => 0

variable {machine : Machine} {invocation : Invocation} {frame : Frame}

theorem due_of_none (none : machine.instructionAt? invocation frame = none) :
    machine.due invocation frame = 0 := by
  rw [due, none]

theorem due_of_found {instruction : Instruction}
    (found : machine.instructionAt? invocation frame = some instruction) :
    machine.due invocation frame = min (machine.listPrice instruction : Int) (max frame.gas 0) := by
  rw [due, found]

theorem due_nonneg (machine : Machine) (invocation : Invocation) (frame : Frame) :
    0 ≤ machine.due invocation frame := by
  unfold due
  split <;> omega

theorem due_le (machine : Machine) (invocation : Invocation) (frame : Frame) :
    machine.due invocation frame ≤ max frame.gas 0 := by
  unfold due
  split <;> omega

theorem gas_pay_fee (standard : machine.table = {}) {instruction : Instruction}
    (found : machine.instructionAt? invocation frame = some instruction) :
    (frame.pay instruction.fee).gas = frame.gas - machine.due invocation frame := by
  rw [due_of_found found, ← fee_of_standard standard found]
  rfl

/-- A step takes what is due, whatever comes of it. -/
theorem gas_step (standard : machine.table = {}) {after : Frame} {world next : World}
    (running : frame.isRunning = true)
    (step : machine.step invocation frame world = (after, next)) :
    after.gas = frame.gas - machine.due invocation frame := by
  have went := machine.stepTo_step invocation world frame
  rw [step] at went
  cases went with
  | rests ended => cases running.symm.trans ended
  | ended _ here =>
    have none : machine.instructionAt? invocation frame = none := by
      rw [instructionAt?, here]
    rw [due_of_none none, Int.sub_zero, Frame.gas_halt]
  | unreadable byte following fault here refused =>
    have none : machine.instructionAt? invocation frame = none := by
      rw [instructionAt?, here]
      simp only [refused, Except.toOption]
    rw [due_of_none none, Int.sub_zero, Frame.gas_fail]
  | refused instruction fault found => exact gas_pay_fee standard found
  | failed instruction fault found affordable => exact gas_pay_fee standard found
  | overflowed instruction results acts fault =>
    rw [Frame.gas_failAt, Frame.gas_completed]
    exact gas_pay_fee standard acts.found
  | acted instruction results acts fits =>
    rw [Frame.gas_completed]
    exact gas_pay_fee standard acts.found

end Machine

/-! ## Runs

The gas of the frame on top is the gas of the whole execution: a contract starts with all of its
caller's and gives back what it has left. -/

namespace Execution

/-- A tick that is a step takes what is due; a return takes nothing. -/
theorem gas_tick {machine : Machine} (standard : machine.table = {}) (invocation : Invocation)
    {execution : Execution} (unfinished : execution.isFinished = false)
    (calm : execution.frame.pending = none) :
    execution.frame.gas = (execution.tick machine invocation).frame.gas +
      if execution.frame.isRunning then machine.due invocation execution.frame else 0 := by
  have move := tickTo_tick machine invocation unfinished
  generalize execution.tick machine invocation = next at move ⊢
  cases move with
  | stays running after world step _ =>
    have paid := Machine.gas_step standard running step
    rw [if_pos running]
    show _ = after.gas + _
    omega
  | calls running after world launch step pending goesOn =>
    have paid := Machine.gas_step standard running step
    have calls := Machine.calls_of_pending standard calm step pending goesOn
    rw [if_pos running, gas_start, calls.gas]
    omega
  | returns ended caller rest callers =>
    rw [gas_resume, ended]
    exact (Int.add_zero _).symm

end Execution

/-! ## The purse

The invariant of the account. Gas only falls, and it does not fall below zero; a budget that is
negative from the start stays as it is. The bounds are wanted for the ranges below, and that no
contract is pending is wanted because it would have the gas. -/

/-- What every stage has: gas between a negative or empty budget and the budget, and no contract
that has not started. -/
structure InPurse (budget : Int) (execution : Execution) : Prop where
  calm : execution.frame.pending = none
  lower : min budget 0 ≤ execution.frame.gas
  upper : execution.frame.gas ≤ budget

namespace Machine

variable {machine : Machine}

/-- The gas stays in the purse. -/
theorem purse (standard : machine.table = {}) (invocation : Invocation) (budget : Int) :
    Invariant machine invocation (InPurse budget)
      (fun progress => min budget 0 ≤ progress.gas ∧ progress.gas ≤ budget) := by
  constructor
  case opening =>
    rintro progress entry script remaining _ ⟨lower, upper⟩
    exact ⟨rfl, lower, upper⟩
  case tick =>
    rintro execution unfinished ⟨calm, lower, upper⟩
    have paid := Execution.gas_tick standard invocation unfinished calm
    have nonneg := machine.due_nonneg invocation execution.frame
    have covered := machine.due_le invocation execution.frame
    refine ⟨execution.pending_tick machine invocation unfinished, ?_, ?_⟩
    · split at paid <;> omega
    · split at paid <;> omega
  case closing =>
    rintro progress execution _ ⟨_, lower, upper⟩
    exact ⟨lower, upper⟩

theorem gasLedger (standard : machine.table = {}) (invocation : Invocation) (budget : Int) :
    Ledger machine invocation (InPurse budget) (fun progress => progress.gas)
      (fun execution => execution.frame.gas)
      (fun execution => machine.due invocation execution.frame) := by
  constructor
  case tick =>
    intro execution unfinished inPurse
    exact Execution.gas_tick standard invocation unfinished inPurse.calm
  case script =>
    intro progress entry script remaining execution
    rfl

end Machine

/-! ## The receipt -/

/-- What the receipt of a chain says of the gas, and what the steps of the chain took. -/
structure GasAccount (machine : Machine) (invocation : Invocation) (snapshot : Snapshot)
    (gas : Int) (scripts : List Script) (receipt : Receipt) : Prop where
  /-- Every step takes what is due. -/
  taken : ∀ stage ∈ machine.steps invocation snapshot gas scripts,
    (stage.advance machine invocation).frame.gas =
      stage.frame.gas - machine.due invocation stage.frame
  /-- The cost is what all steps together took. -/
  cost : receipt.gasCost =
    ((machine.steps invocation snapshot gas scripts).map fun stage =>
      machine.due invocation stage.frame).sum
  /-- The caller is charged what the allowance did not cover. -/
  consumed : receipt.gasConsumed = max 0 (receipt.gasCost - machine.config.freeGas)
  consumed_nonneg : 0 ≤ receipt.gasConsumed
  consumed_le_cost : receipt.gasConsumed ≤ receipt.gasCost
  cost_le_budget : receipt.gasCost ≤ max 0 (clamp (gas + machine.config.freeGas))
  consumed_le_gas : receipt.gasConsumed ≤ max 0 gas

/-- No number that is worked with on the way to the receipt leaves the range of signed words. -/
structure GasInRange (machine : Machine) (invocation : Invocation) (snapshot : Snapshot)
    (gas : Int) (scripts : List Script) : Prop where
  before : ∀ stage ∈ machine.steps invocation snapshot gas scripts, fitsSigned stage.frame.gas
  after : ∀ stage ∈ machine.steps invocation snapshot gas scripts,
    fitsSigned (stage.advance machine invocation).frame.gas
  fee : ∀ stage ∈ machine.steps invocation snapshot gas scripts, ∀ instruction,
    machine.instructionAt? invocation stage.frame = some instruction → fitsSigned instruction.fee
  /-- What an instruction would leave of the gas; without gas it is refused whatever that is. -/
  left : ∀ stage ∈ machine.steps invocation snapshot gas scripts, ∀ instruction,
    machine.instructionAt? invocation stage.frame = some instruction →
      0 ≤ stage.frame.gas → fitsSigned (stage.frame.gas - instruction.fee)
  cost : fitsSigned
    ((machine.opening snapshot gas).gas - (machine.progress invocation snapshot gas scripts).gas)
  net : fitsSigned
    ((machine.opening snapshot gas).gas - (machine.progress invocation snapshot gas scripts).gas
      - machine.config.freeGas)

/-! ## Signed words

The machine counts gas in signed words and saturates. Where a chain starts, the sum of gas and
allowance may be cut off; after that nothing is. A price is small, what is taken is no more than
there is, and the allowance is not negative, so every number on the way lies between two that fit.
-/

theorem fitsSigned_iff (value : Int) :
    fitsSigned value = true ↔ -2 ^ 63 ≤ value ∧ value < 2 ^ 63 := by
  unfold fitsSigned signedMin signedMax
  rw [Bool.and_eq_true, decide_eq_true_iff, decide_eq_true_iff]
  omega

theorem clamp_of_fits {value : Int} (fits : fitsSigned value = true) : clamp value = value := by
  obtain ⟨lower, upper⟩ := (fitsSigned_iff value).1 fits
  unfold clamp signedMin signedMax
  omega

theorem fitsSigned_clamp (value : Int) : fitsSigned (clamp value) = true := by
  refine (fitsSigned_iff _).2 ?_
  unfold clamp signedMin signedMax
  omega

/-- Adding something to a number that fits does not take it below the range. -/
theorem clamp_add_le {value more : Int} (fits : fitsSigned value = true) (nonneg : 0 ≤ more) :
    clamp (value + more) ≤ value + more := by
  obtain ⟨lower, upper⟩ := (fitsSigned_iff value).1 fits
  unfold clamp signedMin signedMax
  omega

theorem Opcode.price_le (opcode : Opcode) : opcode.price ≤ 270_000 := by
  cases opcode <;> decide

theorem Service.price_le (service : Service) : service.price ≤ 10_000_000 := by
  cases service <;> decide

theorem Machine.listPrice_le (machine : Machine) (instruction : Instruction) :
    machine.listPrice instruction ≤ 10_270_000 := by
  have opcode := instruction.opcode.price_le
  unfold listPrice
  split
  · cases machine.services.find? (Bytes.toNat instruction.operand) with
    | none => exact Nat.le_trans opcode (by decide)
    | some service => exact Nat.add_le_add opcode service.price_le
  · exact Nat.le_trans opcode (by decide)

/-! ## The account

The ledger gives the sum over the steps (`gasLedger`), and the receipt is this sum less the
allowance. -/

namespace Machine

variable {machine : Machine} {invocation : Invocation} {snapshot : Snapshot} {gas : Int}
  {scripts : List Script}

theorem mem_steps {stage : Execution}
    (member : stage ∈ machine.steps invocation snapshot gas scripts) :
    stage ∈ machine.stages invocation snapshot gas scripts ∧ stage.frame.isRunning = true :=
  List.mem_filter.1 member

theorem inPurse_opening (machine : Machine) (snapshot : Snapshot) (gas : Int) :
    min (machine.opening snapshot gas).gas 0 ≤ (machine.opening snapshot gas).gas ∧
      (machine.opening snapshot gas).gas ≤ (machine.opening snapshot gas).gas :=
  ⟨Int.min_le_left _ _, Int.le_refl _⟩

theorem gas_advance (standard : machine.table = {}) {stage : Execution}
    (member : stage ∈ machine.steps invocation snapshot gas scripts) :
    (stage.advance machine invocation).frame.gas =
      stage.frame.gas - machine.due invocation stage.frame :=
  gas_step standard (mem_steps member).2 rfl

theorem inPurse_of_mem_steps (standard : machine.table = {}) {stage : Execution}
    (member : stage ∈ machine.steps invocation snapshot gas scripts) :
    InPurse (machine.opening snapshot gas).gas stage :=
  (purse standard invocation _).chain snapshot gas (machine.inPurse_opening snapshot gas) scripts
    stage (mem_steps member).1

theorem spent_eq_sum (standard : machine.table = {}) (invocation : Invocation)
    (snapshot : Snapshot) (gas : Int) (scripts : List Script) :
    (machine.opening snapshot gas).gas - (machine.progress invocation snapshot gas scripts).gas =
      ((machine.steps invocation snapshot gas scripts).map fun stage =>
        machine.due invocation stage.frame).sum := by
  have total := (gasLedger standard invocation _).chain (purse standard invocation _) snapshot gas
    (machine.inPurse_opening snapshot gas) scripts
  omega

theorem spent_bounds (standard : machine.table = {}) (invocation : Invocation)
    (snapshot : Snapshot) (gas : Int) (scripts : List Script) :
    0 ≤ (machine.opening snapshot gas).gas
        - (machine.progress invocation snapshot gas scripts).gas ∧
      (machine.opening snapshot gas).gas
        - (machine.progress invocation snapshot gas scripts).gas ≤
          max 0 (machine.opening snapshot gas).gas := by
  have inPurse := (purse standard invocation _).progress snapshot gas
    (machine.inPurse_opening snapshot gas) scripts
  omega

/-- The numbers on the way to the receipt fit signed words if the allowance does. -/
theorem gasInRange (standard : machine.table = {}) (free : 0 ≤ machine.config.freeGas)
    (freeFits : fitsSigned machine.config.freeGas = true) :
    GasInRange machine invocation snapshot gas scripts := by
  have budgetFits := (fitsSigned_iff (machine.opening snapshot gas).gas).1 (fitsSigned_clamp _)
  have allowance := (fitsSigned_iff machine.config.freeGas).1 freeFits
  have bounds := spent_bounds standard invocation snapshot gas scripts
  constructor
  case before =>
    intro stage member
    have purse := inPurse_of_mem_steps standard member
    have lower := purse.lower
    have upper := purse.upper
    exact (fitsSigned_iff _).2 (by omega)
  case after =>
    intro stage member
    have purse := inPurse_of_mem_steps standard member
    have lower := purse.lower
    have upper := purse.upper
    have paid := gas_advance standard member
    have nonneg := machine.due_nonneg invocation stage.frame
    have covered := machine.due_le invocation stage.frame
    exact (fitsSigned_iff _).2 (by omega)
  case fee =>
    intro stage member instruction found
    have listed := fee_of_standard standard found
    have small := machine.listPrice_le instruction
    exact (fitsSigned_iff _).2 (by omega)
  case left =>
    intro stage member instruction found nonneg
    have purse := inPurse_of_mem_steps standard member
    have upper := purse.upper
    have listed := fee_of_standard standard found
    have small := machine.listPrice_le instruction
    exact (fitsSigned_iff _).2 (by omega)
  case cost => exact (fitsSigned_iff _).2 (by omega)
  case net => exact (fitsSigned_iff _).2 (by omega)

theorem receipt_gas (machine : Machine) (invocation : Invocation) (snapshot : Snapshot)
    (gas : Int) (first : Script) (rest : List Script) :
    (machine.executeChain invocation snapshot gas (first :: rest)).receipt.gasCost =
        clamp ((machine.opening snapshot gas).gas
          - (machine.progress invocation snapshot gas (first :: rest)).gas) ∧
      (machine.executeChain invocation snapshot gas (first :: rest)).receipt.gasConsumed =
        max (clamp ((machine.executeChain invocation snapshot gas (first :: rest)).receipt.gasCost
          - machine.config.freeGas)) 0 :=
  ⟨rfl, rfl⟩

/-- The receipt of a chain gives an account of its steps, and no number on the way to it is too
large. -/
theorem gasAccount_executeChain (config : Config) (invocation : Invocation) (snapshot : Snapshot)
    (gas : Int) (first : Script) (rest : List Script) (free : 0 ≤ config.freeGas)
    (freeFits : fitsSigned config.freeGas = true) (gasFits : fitsSigned gas = true) :
    GasAccount (standard config) invocation snapshot gas (first :: rest)
        ((standard config).executeChain invocation snapshot gas (first :: rest)).receipt ∧
      GasInRange (standard config) invocation snapshot gas (first :: rest) := by
  have table : (standard config).table = {} := rfl
  have ranges : GasInRange (standard config) invocation snapshot gas (first :: rest) :=
    gasInRange table free freeFits
  have bounds := spent_bounds table invocation snapshot gas (first :: rest)
  have sum := spent_eq_sum table invocation snapshot gas (first :: rest)
  have budget : ((standard config).opening snapshot gas).gas ≤ gas + config.freeGas :=
    clamp_add_le gasFits free
  obtain ⟨cost, consumed⟩ := (standard config).receipt_gas invocation snapshot gas first rest
  rw [clamp_of_fits ranges.cost] at cost
  rw [cost, clamp_of_fits ranges.net] at consumed
  have allowance : (standard config).config.freeGas = config.freeGas := rfl
  refine ⟨?_, ranges⟩
  constructor
  case taken => exact fun stage member => gas_advance table member
  case cost => exact cost.trans sum
  case consumed =>
    rw [consumed, cost]
    exact Int.max_comm _ _
  case consumed_nonneg => omega
  case consumed_le_cost => omega
  case cost_le_budget =>
    rw [cost]
    exact bounds.2
  case consumed_le_gas => omega

/-- The third push finds 10 where it needs 30 and takes these; the caller pays what was not free. -/
theorem gasAccount_of_pushes :
    let pushes : Script := { code := [Opcode.PUSH1.code, Opcode.PUSH2.code, Opcode.PUSH3.code] }
    let machine := standard { freeGas := 40 }
    let receipt := (machine.executeChain {} {} 30 [pushes]).receipt
    (receipt.gasCost = 70 ∧ receipt.gasConsumed = 30) ∧
      GasAccount machine {} {} 30 [pushes] receipt ∧ GasInRange machine {} {} 30 [pushes] :=
  ⟨by decide +kernel,
    gasAccount_executeChain { freeGas := 40 } {} {} 30 _ [] (by decide) (by decide) (by decide)⟩

end Machine

end GasMachine
