import GasMachine.Proofs.Nesting
import GasMachine.Proofs.SingleStep
import GasMachine.Proofs.Sound

/-!
# What opcodes make of their arguments

Many opcodes make one item of the items on top of the stack, or fail, and what they do depends on
nothing but the arguments and the limits. For these `Opcode.Makes` says what comes out. This is a
statement about behaviours; if the result is no larger than the arguments together and nothing is
asked for beforehand that the limits refuse, the machine does just that in one step
(`Opcode.Performs`, and both in `Opcode.Yields`).
-/

set_option autoImplicit false

namespace GasMachine

/-- The frame after an instruction of a size, with a fee, that has left an item on the rest of the
stack, or has failed. -/
def Frame.concluded (frame : Frame) (size fee : Nat) (opcode : Opcode) (rest : List Item) :
    Except Fault Item → Frame
  | .ok item => frame.advanced size fee (item :: rest)
  | .error fault => frame.stopped fee rest opcode fault

namespace Opcode

/-- What the behaviour of an opcode makes of arguments, the top of the stack first. -/
def Makes (opcode : Opcode) (limits : Limits) (arguments : List Item)
    (outcome : Except Fault Item) : Prop :=
  ∀ (host : Host) (instruction : Instruction) (frame : Frame) (world : World),
    host.limits = limits →
      opcode.standardEntry.behaviour.run host instruction frame world ⟨arguments, []⟩ =
        outcome.map (.one · world)

/-- Wherever the opcode is next, with the arguments on top of the stack and the gas to pay for it,
the machine comes to the outcome in one step. -/
def Performs (opcode : Opcode) (limits : Limits) (arguments : List Item)
    (outcome : Except Fault Item) : Prop :=
  ∀ (machine : Machine) (invocation : Invocation) (frame : Frame) (world : World)
    (following : Bytes) (rest : List Item), machine.table = {} → machine.config.limits = limits →
      frame.RunsWithin limits → frame.code.drop frame.pc = opcode.code :: following →
        (opcode.price : Int) ≤ frame.gas → frame.stack = arguments ++ rest →
          machine.step invocation frame world =
            (frame.concluded 1 opcode.price opcode rest outcome, world)

/-- This is what the behaviour makes, and what the machine comes to. -/
structure Yields (opcode : Opcode) (limits : Limits) (arguments : List Item)
    (outcome : Except Fault Item) : Prop where
  makes : opcode.Makes limits arguments outcome
  performs : opcode.Performs limits arguments outcome

variable {opcode : Opcode} {limits : Limits} {arguments : List Item}
  {outcome : Except Fault Item}

theorem map_one_inj {outcome other : Except Fault Item} {world : World}
    (same : outcome.map (Results.one · world) = other.map (Results.one · world)) :
    outcome = other := by
  cases outcome <;> cases other <;> cases same <;> rfl

/-- A behaviour that only depends on the arguments makes one thing of them. -/
theorem makes_iff {made : Except Fault Item}
    (run : ∀ (host : Host) (instruction : Instruction) (frame : Frame) (world : World),
      host.limits = limits →
        opcode.standardEntry.behaviour.run host instruction frame world ⟨arguments, []⟩ =
          made.map (.one · world)) :
    opcode.Makes limits arguments outcome ↔ made = outcome := by
  constructor
  · intro makes
    have frame := Launch.start
      { code := [], gas := 0, depth := 1, entry := Hash.zero, calling := none }
    have first := run { limits } (opcode.withOperand ⟨[], 0⟩) frame {} rfl
    exact map_one_inj (first.symm.trans (makes { limits } _ frame {} rfl))
  · rintro rfl
    exact run

end Opcode

/-! ## Outcomes as steps

What a behaviour makes becomes a step under two conditions. The demand asks for the arguments and
has room for one item in their place (`Demand.OneFor`), and the outcome is modest, so that it fits
where the arguments were and no fault of it ends the frame without an opcode. -/

/-- A demand for nothing but arguments, which leaves room for one item in their place. -/
structure Demand.OneFor (demand : Demand) (limits : Limits) (arguments : List Item) : Prop
    extends demand.OnStack limits where
  stackIn : demand.stackIn = arguments.length
  stackOut : demand.stackOut = 1
  growth : 1 + demand.growth ≤ arguments.length
  surcharge : demand.surcharge = 0

/-- An item is no larger than the arguments that it is made of, or the fault is the script's own. -/
def Modest (arguments : List Item) (outcome : Except Fault Item) : Prop :=
  Sound True (fun item => 1 + item.nestedCount ≤ arguments.length + Item.nestedCountAll arguments)
    outcome

theorem Fault.isCrash_of_isPlain {fault : Fault} (plain : fault.isPlain = true) :
    fault.isCrash = false := by
  cases fault <;> first | rfl | cases plain

namespace Machine.Poised

variable {machine : Machine} {invocation : Invocation} {frame : Frame} {world : World}
  {instruction : Instruction} {arguments rest : List Item} {outcome : Except Fault Item}

/-- A modest outcome takes the place of the arguments. -/
theorem step_of_outcome (poised : machine.Poised invocation frame instruction)
    (demand : instruction.demand.OneFor machine.config.limits arguments)
    (stack : frame.stack = arguments ++ rest)
    (ran : instruction.behaviour.run (machine.host invocation) instruction
      (frame.charged instruction) world ⟨arguments, []⟩ = outcome.map (.one · world))
    (modest : Modest arguments outcome) :
    machine.step invocation frame world =
      (frame.concluded instruction.size instruction.fee instruction.opcode rest outcome,
        world) := by
  have fewer : (instruction.demand.stackOut : Int) + instruction.demand.growth ≤
      instruction.demand.stackIn := by
    rw [demand.stackIn, demand.stackOut]
    exact demand.growth
  cases modest with
  | @ok item small =>
    exact poised.step_of_exchange stack demand.stackIn fewer ran demand.stackOut.symm small
  | @error fault plain =>
    exact poised.step_of_loss stack demand.stackIn fewer ran (Fault.isCrash_of_isPlain plain)
  | defect excluded => exact absurd trivial excluded

end Machine.Poised

namespace Opcode

variable {opcode : Opcode} {limits : Limits} {arguments : List Item}
  {outcome : Except Fault Item}

/-- The instruction of an opcode without an operand, with a demand. -/
def asking (opcode : Opcode) (demand : Demand) : Instruction :=
  { opcode.withOperand ⟨[], 0⟩ with demand }

/-- What an opcode makes of its arguments, the machine does in a step. -/
theorem Makes.performs (makes : opcode.Makes limits arguments outcome)
    (bare : opcode.layout = .none) (modest : Modest arguments outcome)
    (resolves : ∀ (host : Host) (frame : Frame) (rest : List Item), host.limits = limits →
      frame.stack = arguments ++ rest → ∃ demand : Demand, demand.OneFor limits arguments ∧
        (opcode.withOperand ⟨[], 0⟩).resolve host frame = .ok (opcode.asking demand)) :
    opcode.Performs limits arguments outcome := by
  rintro machine invocation frame world following rest standard rfl within here affordable stack
  obtain ⟨demand, asks, resolved⟩ := resolves (machine.host invocation) frame rest rfl stack
  have fee : opcode.price + demand.surcharge = opcode.price := by rw [asks.surcharge, Nat.add_zero]
  have poised : machine.Poised invocation frame (opcode.asking demand) :=
    Machine.poised_of_resolved standard within here
      (show ((opcode.price + demand.surcharge : Nat) : Int) ≤ _ from fee.symm ▸ affordable)
      bare resolved asks.toOnStack
  have stepped := poised.step_of_outcome asks stack (makes _ _ _ world rfl) modest
  unfold Instruction.fee at stepped
  dsimp only [asking, withOperand] at stepped
  rw [fee] at stepped
  exact stepped

/-- If the demand of an opcode is fixed, it yields what its behaviour makes. -/
theorem yields_iff {made : Except Fault Item}
    (run : ∀ (host : Host) (instruction : Instruction) (frame : Frame) (world : World),
      host.limits = limits →
        opcode.standardEntry.behaviour.run host instruction frame world ⟨arguments, []⟩ =
          made.map (.one · world))
    (bare : opcode.layout = .none)
    (entry : opcode.standardEntry = .of arguments.length 1 opcode.standardEntry.behaviour)
    (some_ : 1 ≤ arguments.length) (modest : Modest arguments made) :
    opcode.Yields limits arguments outcome ↔ made = outcome := by
  refine ⟨fun yields => (makes_iff run).1 yields.makes, ?_⟩
  rintro rfl
  have makes : opcode.Makes limits arguments made := (makes_iff run).2 rfl
  refine ⟨makes, makes.performs bare modest fun host frame rest _ _ =>
    ⟨{ stackIn := arguments.length, stackOut := 1 }, ?_, ?_⟩⟩
  · exact ⟨⟨rfl, rfl, rfl, Nat.zero_le _, Nat.zero_le _⟩, rfl, rfl, by dsimp only; omega, rfl⟩
  · unfold Instruction.resolve asking withOperand Instruction.operandItemSize
    rw [entry, bare]
    rfl

end Opcode

end GasMachine
