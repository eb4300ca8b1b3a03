import GasMachine.Proofs.History
import GasMachine.Proofs.StackSize

/-!
# The counter of nested items

A frame does not count what is nested inside its items, it keeps a counter: what it takes off its
stacks is subtracted, what it puts on them is added. Each of the places where this happens leaves
the counter right whatever the entry of the table does, so it is right in every frame of every
chain, also in one that broke off between taking and putting (`Execution.Counted.tick`). The
subtraction stops at zero, but it never gets there before all is subtracted: what is taken off had
been counted (`Frame.Counted.taken_add_charged`).
-/

set_option autoImplicit false

namespace GasMachine

/-! ## Taking arguments

The counter is a natural number, and taking off more than it counts would stop at zero and leave it
wrong for good. So the statement is a sum: what was taken and what is left make up what was there.
-/

namespace Frame.Counted

variable {frame : Frame}

/-- Handing over the arguments of an instruction lowers the counter by all that is nested inside
them. -/
theorem taken_add_charged (counted : frame.Counted) (instruction : Instruction) :
    Item.nestedCountAll (frame.argumentsOf instruction).stack
        + Item.nestedCountAll (frame.argumentsOf instruction).alt
        + (frame.charged instruction).nested = frame.nested := by
  have stack :=
    Item.nestedCountAll_take_add_drop frame.stack instruction.demand.stackIn
  have alt := Item.nestedCountAll_take_add_drop frame.alt instruction.demand.altIn
  have left : (frame.charged instruction).nested =
      Item.nestedCountAll (frame.stack.drop instruction.demand.stackIn)
        + Item.nestedCountAll (frame.alt.drop instruction.demand.altIn) :=
    counted.charged instruction
  unfold Counted at counted
  unfold argumentsOf
  dsimp only
  omega

end Frame.Counted

/-! ## Executions

The invariant needs nothing of the table, because the counter is never told what to add: it is
worked out from the items themselves when they are taken and when they are put. -/

namespace Execution

/-- The frame on top and all that wait for it keep the true number of nested items. -/
structure Counted (execution : Execution) : Prop where
  frame : execution.frame.Counted
  callers : ∀ caller ∈ execution.callers, caller.frame.Counted

variable {execution : Execution} {machine : Machine} {invocation : Invocation}

theorem Counted.advance (counted : execution.Counted) :
    (execution.advance machine invocation).Counted :=
  ⟨counted.frame.step machine invocation execution.world, counted.callers⟩

/-- A tick leaves all counters right: a step does, a contract starts with the true number, and a
caller adds what is nested inside the result. -/
theorem Counted.tick (counted : execution.Counted) (unfinished : execution.isFinished = false) :
    (execution.tick machine invocation).Counted := by
  have move := tickTo_tick machine invocation unfinished
  have stepped := counted.frame.step machine invocation execution.world
  generalize execution.tick machine invocation = next at move ⊢
  cases move with
  | stays running after world step calm =>
    rw [step] at stepped
    exact ⟨stepped.settled, counted.callers⟩
  | calls running after world launch step pending goesOn =>
    rw [step] at stepped
    exact ⟨Frame.Counted.start launch, List.forall_mem_cons.2 ⟨stepped.settled, counted.callers⟩⟩
  | returns ended caller rest callers =>
    have waiting := counted.callers
    rw [callers] at waiting
    obtain ⟨first, others⟩ := List.forall_mem_cons.1 waiting
    exact ⟨first.resume execution.frame caller.callPc, others⟩

end Execution

namespace Machine

theorem counted_invariant (machine : Machine) (invocation : Invocation) :
    Invariant machine invocation Execution.Counted (fun _ => True) where
  opening progress entry script remaining _ _ :=
    ⟨Frame.Counted.start (progress.launch entry script remaining), List.forall_mem_nil _⟩
  tick _ unfinished counted := counted.tick unfinished
  closing _ _ _ _ := trivial

/-! ## Chains

Between ticks the invariant speaks; in the course of a step there are two more places, after the
arguments were taken and after the results were put. -/

/-- The counters at a stage of a chain and in the course of the step that is taken from it. -/
structure KeepsCount (machine : Machine) (invocation : Invocation) (stage : Execution) :
    Prop where
  /-- Before the step, on top and among the callers. -/
  before : stage.Counted
  /-- Inside the behaviour: all that is nested inside the arguments has been subtracted. -/
  taken : ∀ instruction, machine.instructionAt? invocation stage.frame = some instruction →
    (stage.frame.charged instruction).Counted ∧
      Item.nestedCountAll (stage.frame.argumentsOf instruction).stack
        + Item.nestedCountAll (stage.frame.argumentsOf instruction).alt
        + (stage.frame.charged instruction).nested = stage.frame.nested
  /-- When results have been put, whatever they are. -/
  put : ∀ instruction, machine.instructionAt? invocation stage.frame = some instruction →
    ∀ results, (stage.frame.completed instruction results).Counted
  /-- After the step, however it has ended. -/
  after : (stage.advance machine invocation).Counted

/-- In every frame of a chain the counter is the number of nested items at any time, whatever the
table and the services of the machine are. -/
theorem keepsCount_of_mem_stages (machine : Machine) (invocation : Invocation)
    (snapshot : Snapshot) (gas : Int) (scripts : List Script) (stage : Execution)
    (member : stage ∈ machine.stages invocation snapshot gas scripts) :
    machine.KeepsCount invocation stage := by
  have counted := (machine.counted_invariant invocation).chain snapshot gas trivial scripts
    stage member
  constructor
  case before => exact counted
  case taken =>
    intro instruction _
    exact ⟨counted.frame.charged instruction, counted.frame.taken_add_charged instruction⟩
  case put =>
    intro instruction _ results
    exact counted.frame.completed instruction results
  case after => exact counted.advance

/-- A machine on which `NOP` gives an array whose elements it does not declare, and `DEC` takes an
item and breaks off. -/
def faulty : Machine :=
  let growing : Entry := .of 0 1 (.constant [.array [.null, .null, .null]] [])
  { table := (({} : InstructionTable).insert .NOP growing).insert .DEC (.of 1 1 (.crashing none)) }

/-- A snapshot with a contract that breaks off while an array is taken off its stack. -/
def breakingContract : Snapshot :=
  let code := [Opcode.NOP.code, Opcode.NOP.code, Opcode.DEC.code]
  { contents := { contracts := Std.ExtTreeMap.empty.insert Hash.zero code } }

/-- A script that keeps two arrays and calls the contract. -/
def arrayKeeper : Script :=
  { code := [Opcode.NOP.code, Opcode.DUP.code, Opcode.TOALTSTACK.code, Opcode.PUSHNULL.code]
      ++ (Opcode.PUSHDATA1.code :: 20 :: List.replicate 20 0)
      ++ Opcode.SYSCALL.code :: Bytes.ofNat 4 Service.contractCall.id }

/-- The stage at which the contract has broken off with one array left, while its caller keeps
two. -/
theorem keepsCount_in_breaking :
    ∃ stage ∈ faulty.stages {} breakingContract 10_000_000 [arrayKeeper],
      (stage.frame.fault?.map FaultRecord.fault = some (.internal (.crash none)) ∧
        stage.frame.nested = 3 ∧ stage.callers.map (fun caller => caller.frame.nested) = [6]) ∧
        faulty.KeepsCount {} stage := by
  have reached : (faulty.stages {} breakingContract 10_000_000 [arrayKeeper]).any
      (fun stage => stage.frame.fault?.map FaultRecord.fault = some (.internal (.crash none)) ∧
        stage.frame.nested = 3 ∧
          stage.callers.map (fun caller => caller.frame.nested) = [6]) := by
    decide +kernel
  obtain ⟨stage, member, broken⟩ := List.any_eq_true.1 reached
  exact ⟨stage, member, of_decide_eq_true broken,
    keepsCount_of_mem_stages faulty {} breakingContract 10_000_000 [arrayKeeper] stage member⟩

end Machine

end GasMachine
