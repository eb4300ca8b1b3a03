import GasMachine.Proofs.Settlement
import GasMachine.Proofs.StraightLine

/-!
# Two scripts as one

A script hands on its stacks and its gas, so that a chain of two scripts does what one script with
the code of both would do, as long as neither can tell where it is and the first one runs on to its
very end. A frame is compared with one that does the same inside longer code (`Frame.placed`). Step
by step the two go the same way (`Machine.step_placed`), and where the code of the shorter one is
at its end the longer one has come to the code behind (`Frame.OnLine.abreast`). There the next
script starts, and what it starts with is what the longer frame has at this place.
-/

set_option autoImplicit false

namespace GasMachine

/-! ## Code inside other code

`placed` maps a frame to the one that is as far in longer code. It is a function and not a relation,
so everything below is an equation: what the placed frame does is the image of what the frame does.
-/

/-- The code around a piece of code, with what a script of all of it knows of itself. -/
structure Placement where
  before : Bytes
  behind : Bytes
  depth : Nat
  script : ScriptHash
  entry : ScriptHash
  calling : Option ScriptHash

/-- The fault of an instruction with so many bytes more in front of it. -/
def FaultRecord.shifted (record : FaultRecord) (offset : Nat) : FaultRecord :=
  { record with pc := record.pc + offset }

def Status.shifted (offset : Nat) : Status → Status
  | .faulted record => .faulted (record.shifted offset)
  | status => status

namespace Frame

/-- The frame that is as far in the code of a frame, but with other code around it. -/
def placed (frame : Frame) (place : Placement) : Frame :=
  { frame with
    code := place.before ++ frame.code ++ place.behind
    pc := frame.pc + place.before.length
    depth := place.depth
    script := place.script
    entry := place.entry
    calling := place.calling
    status := frame.status.shifted place.before.length }

variable (frame : Frame) (place : Placement)

@[simp] theorem isRunning_placed : (frame.placed place).isRunning = frame.isRunning := by
  unfold isRunning placed
  cases frame.status <;> rfl

theorem fault?_placed : (frame.placed place).fault? =
    frame.fault?.map fun record => record.shifted place.before.length := by
  unfold fault? placed
  cases frame.status <;> rfl

theorem perform_placed (size : Nat) :
    (frame.placed place).perform size .none = (frame.perform size .none).placed place := by
  simp only [placed, perform, Nat.add_right_comm]

theorem drop_placed (within : frame.pc ≤ frame.code.length) :
    (frame.placed place).code.drop (frame.placed place).pc =
      frame.code.drop frame.pc ++ place.behind := by
  have around : (place.before ++ frame.code ++ place.behind).drop
      (place.before.length + frame.pc) = (frame.code ++ place.behind).drop frame.pc := by
    rw [List.append_assoc, List.drop_length_add_append]
  unfold placed
  dsimp only
  rw [Nat.add_comm, around, List.drop_append_of_le_length within]

end Frame

/-! ## Steps inside other code

A straight behaviour reads neither the code nor the position, the depth or the identity of its
frame. The check of the depth is the one place that does, and it passes for both because neither is
too deep and straight code goes no deeper. -/

theorem Behaviour.run_placed {behaviour : Behaviour} (straight : behaviour.isStraight = true)
    (host : Host) (instruction : Instruction) (frame : Frame) (place : Placement) (world : World)
    (arguments : Arguments) :
    behaviour.run host instruction (frame.placed place) world arguments =
      behaviour.run host instruction frame world arguments := by
  cases behaviour <;> first | rfl | cases straight

theorem Limits.check_placed {limits : Limits} {frame : Frame} {place : Placement}
    {instruction : Instruction} (level : instruction.demand.invocation = 0)
    (shallow : frame.depth ≤ limits.invocationDepth)
    (alsoShallow : place.depth ≤ limits.invocationDepth) :
    limits.check (frame.placed place) instruction = limits.check frame instruction := by
  have same : (frame.placed place).depth = place.depth := rfl
  -- Of all that is checked only the depth is another one, and neither is too large.
  unfold check
  dsimp only
  rw [level, same, if_neg (by omega : ¬(limits.invocationDepth : Int) < (place.depth : Int) + 0),
    if_neg (by omega : ¬(limits.invocationDepth : Int) < (frame.depth : Int) + 0)]
  rfl

namespace Machine

variable {machine : Machine} {invocation : Invocation} {instruction : Instruction}

theorem execute_placed (straight : instruction.behaviour.isStraight = true) (frame : Frame)
    (place : Placement) (world : World) :
    machine.execute invocation instruction (frame.placed place) world =
      ((machine.execute invocation instruction frame world).1.placed place,
        (machine.execute invocation instruction frame world).2) := by
  have popped (stackIn altIn : Nat) :
      (frame.placed place).pop stackIn altIn = (frame.pop stackIn altIn).placed place := rfl
  have arguments : (frame.placed place).stack = frame.stack ∧
      (frame.placed place).alt = frame.alt := ⟨rfl, rfl⟩
  unfold execute
  dsimp only
  rw [popped, arguments.1, arguments.2, Behaviour.run_placed straight]
  cases ran : instruction.behaviour.run (machine.host invocation) instruction
      (frame.pop instruction.demand.stackIn instruction.demand.altIn) world
      ⟨frame.stack.take instruction.demand.stackIn,
        frame.alt.take instruction.demand.altIn⟩ with
  | error fault => rfl
  | ok results =>
    have stays := (Behaviour.run_straight _ _ _ _ _ straight results ran).1
    dsimp only
    rw [stays, Frame.perform_placed]
    split
    · have size (other : Frame) : ((other.placed place).push results.stack results.alt).totalSize =
        (other.push results.stack results.alt).totalSize := rfl
      rw [size]
      split <;> rfl
    · rfl

theorem perform_placed (straight : instruction.IsStraight) {frame : Frame} {place : Placement}
    (shallow : frame.depth ≤ machine.config.limits.invocationDepth)
    (alsoShallow : place.depth ≤ machine.config.limits.invocationDepth) (world : World) :
    machine.perform invocation instruction (frame.placed place) world =
      ((machine.perform invocation instruction frame world).1.placed place,
        (machine.perform invocation instruction frame world).2) := by
  have paid : (frame.placed place).pay instruction.fee =
      (frame.pay instruction.fee).placed place := rfl
  have gas : (frame.placed place).gas = frame.gas := rfl
  unfold perform
  dsimp only
  rw [Limits.check_placed straight.invocation shallow alsoShallow, paid, gas]
  split
  · rfl
  · split
    · rfl
    · exact execute_placed straight.behaviour _ place world

theorem read_behind {byte : UInt8} {following behind : Bytes}
    (readable : Whole (byte :: following) ∨ behind = []) :
    Instruction.read {} byte (following ++ behind) = Instruction.read {} byte following := by
  rcases readable with whole | rfl
  · obtain ⟨instruction, read⟩ := whole.exists_read
    rw [read, (Instruction.read_append read behind).2]
  · rw [List.append_nil]

/-- Where there is an instruction, the two frames do the same. A fault in reading it would be
another one with more bytes behind, so it has to be readable if there are any. -/
theorem step_placed (standard : machine.table = {}) {frame : Frame} (onLine : frame.OnLine)
    {place : Placement} (shallow : frame.depth ≤ machine.config.limits.invocationDepth)
    (alsoShallow : place.depth ≤ machine.config.limits.invocationDepth)
    (inside : frame.pc < frame.code.length)
    (readable : Whole (frame.code.drop frame.pc) ∨ place.behind = []) (world : World) :
    machine.step invocation (frame.placed place) world =
      ((machine.step invocation frame world).1.placed place,
        (machine.step invocation frame world).2) := by
  have there := frame.drop_placed place onLine.within
  cases here : frame.code.drop frame.pc with
  | nil => exact absurd (List.drop_eq_nil_iff.1 here) (Nat.not_le.2 inside)
  | cons byte following =>
    rw [here] at there readable
    have same : machine.prepare invocation (frame.placed place) byte
        (following ++ place.behind) = machine.prepare invocation frame byte following := by
      rw [machine.prepare_congr invocation frame (frame.placed place) rfl rfl]
      unfold prepare
      rw [standard, read_behind readable]
    have running := onLine.running
    unfold step
    rw [if_pos running, if_pos ((frame.isRunning_placed place).trans running), there, here,
      List.cons_append]
    dsimp only
    rw [same]
    cases prepared : machine.prepare invocation frame byte following with
    | error fault => rfl
    | ok instruction =>
      have found := instructionAt?_of_prepare here prepared
      have carries := carries_of_found standard onLine.straight found
      exact perform_placed carries.isStraight shallow alsoShallow world

end Machine

/-! ## Runs inside other code

The two runs are followed by induction on the run of the frame alone, told as a recursion
(`Machine.Evaluates`); on straight code no contract is ever called, so that only its steps matter.
Where that frame is at its end it halts, and the placed one is in front of the code behind;
`Abreast` says both. The frame that the next script starts with is this very frame in another place
(`placed_eq_start`). -/

/-- What a frame and the world have become when it has ended. -/
def Machine.finish (machine : Machine) (invocation : Invocation) (frame : Frame) (world : World) :
    Frame × World :=
  let run := Execution.run { frame, world } machine invocation
  (run.frame, run.world)

namespace Machine

variable {machine : Machine} {invocation : Invocation}

theorem finish_of_ended {frame : Frame} (ended : frame.isRunning = false) (world : World) :
    machine.finish invocation frame world = (frame, world) := by
  unfold finish
  rw [(Evaluates.ended ended).run_eq]

theorem finish_of_step {frame after : Frame} {world next : World}
    (running : frame.isRunning = true)
    (step : machine.step invocation frame world = (after, next)) (calm : after.pending = none) :
    machine.finish invocation frame world = machine.finish invocation after next := by
  have later := machine.evaluates_run invocation after.settled next
  have run := (Evaluates.step running step (Or.inl calm) later).run_eq
  unfold finish
  rw [run, Frame.settled_of_pending_eq_none calm]

end Machine

/-- How a run on straight code goes beside the run inside other code. -/
inductive Frame.Abreast (machine : Machine) (invocation : Invocation) (place : Placement)
    (frame : Frame) (world : World) : Prop where
  /-- Both fault at the same instruction. -/
  | faulted (final : Frame) (record : FaultRecord) (fault : final.status = .faulted record)
    (inside : record.pc < frame.code.length)
    (alone : machine.finish invocation frame world = (final, world))
    (placed : machine.finish invocation (frame.placed place) world = (final.placed place, world))
  /-- The one halts at its end, and the other comes by there. -/
  | reachedEnd (final : Frame) (onLine : final.OnLine) (code : final.code = frame.code)
    (here : final.pc = final.code.length)
    (alone : machine.finish invocation frame world = (final.halt, world))
    (placed : machine.finish invocation (frame.placed place) world =
      machine.finish invocation (final.placed place) world)

namespace Frame

variable {machine : Machine} {invocation : Invocation} {place : Placement} {frame : Frame}
  {world : World}

theorem Abreast.of_step {after : Frame} (later : after.Abreast machine invocation place world)
    (code : after.code = frame.code)
    (alone : machine.finish invocation frame world = machine.finish invocation after world)
    (placed : machine.finish invocation (frame.placed place) world =
      machine.finish invocation (after.placed place) world) :
    frame.Abreast machine invocation place world := by
  cases later with
  | faulted final record fault inside ends alsoEnds =>
    exact .faulted final record fault (code ▸ inside) (alone.trans ends) (placed.trans alsoEnds)
  | reachedEnd final onLine same here ends alsoEnds =>
    exact .reachedEnd final onLine (same.trans code) here (alone.trans ends)
      (placed.trans alsoEnds)

/-- The two runs are abreast, by induction on the run of the frame alone. -/
theorem OnLine.abreast (onLine : frame.OnLine) (standard : machine.table = {})
    (shallow : frame.depth ≤ machine.config.limits.invocationDepth)
    (alsoShallow : place.depth ≤ machine.config.limits.invocationDepth)
    (readable : Whole (frame.code.drop frame.pc) ∨ place.behind = []) :
    frame.Abreast machine invocation place world := by
  have evaluates := machine.evaluates_run invocation frame world
  generalize Execution.run { frame, world } machine invocation = result at evaluates
  induction evaluates with
  | ended ended => cases ended.symm.trans onLine.running
  | @step frame after world next rest running step calm _ ih =>
    obtain ⟨same, onward⟩ := onLine.step standard step
    subst same
    have also (inside : frame.pc < frame.code.length) :
        machine.step invocation (frame.placed place) next = (after.placed place, next) := by
      rw [Machine.step_placed standard onLine shallow alsoShallow inside readable, step]
    have alsoRunning := (frame.isRunning_placed place).trans running
    cases onward with
    | ended here =>
      refine .reachedEnd frame onLine rfl here ?_ rfl
      rw [Machine.finish_of_step running step onLine.calm]
      exact Machine.finish_of_ended rfl next
    | faulted _ record inside fault here calm =>
      have ended : after.isRunning = false := by simp [isRunning, fault]
      refine .faulted after record fault (here ▸ inside) ?_ ?_
      · rw [Machine.finish_of_step running step calm]
        exact Machine.finish_of_ended ended next
      · rw [Machine.finish_of_step alsoRunning (also inside) calm]
        exact Machine.finish_of_ended ((after.isRunning_placed place).trans ended) next
    | wentOn _ inside later code depth whole =>
      rw [settled_of_pending_eq_none later.calm] at ih
      have abreast := ih later (depth ▸ shallow) (readable.imp_left whole)
      exact abreast.of_step code (Machine.finish_of_step running step later.calm)
        (Machine.finish_of_step alsoRunning (also inside) later.calm)
  | call _ step pending _ _ _ _ _ =>
    -- On straight code no contract is ever left pending.
    obtain ⟨_, onward⟩ := onLine.step standard step
    cases onward with
    | ended _ => cases onLine.calm.symm.trans pending
    | faulted _ _ _ _ _ calm => cases calm.symm.trans pending
    | wentOn _ _ later _ _ _ => cases later.calm.symm.trans pending

theorem OnLine.start {launch : Launch} (offset : launch.offset = 0)
    (straight : Straight launch.code) : launch.start.OnLine := by
  refine ⟨rfl, ?_, ?_, rfl, rfl, Counted.start launch⟩
  · unfold Launch.start
    dsimp only
    rwa [offset, List.drop_zero]
  · unfold Launch.start
    dsimp only
    rw [offset]
    exact Nat.zero_le _

theorem OnLine.finish_placed (onLine : frame.OnLine) (standard : machine.table = {})
    (shallow : frame.depth ≤ machine.config.limits.invocationDepth)
    (alsoShallow : place.depth ≤ machine.config.limits.invocationDepth)
    (last : place.behind = []) :
    ∃ final, machine.finish invocation frame world = (final, world) ∧
      machine.finish invocation (frame.placed place) world = (final.placed place, world) := by
  cases onLine.abreast standard shallow alsoShallow (.inr last) with
  | faulted final _ _ _ alone placed => exact ⟨final, alone, placed⟩
  | reachedEnd final there _ here alone placed =>
    have done : (final.placed place).code.drop (final.placed place).pc = [] := by
      rw [final.drop_placed place there.within, last, List.append_nil, here, List.drop_length]
    have running := (final.isRunning_placed place).trans there.running
    have step := machine.step_of_end invocation world running done
    refine ⟨final.halt, alone, ?_⟩
    rw [placed, Machine.finish_of_step running step there.calm]
    exact Machine.finish_of_ended rfl world

/-- Where a script ends, the frame inside longer code has what the next script starts with. -/
theorem OnLine.placed_eq_start {final : Frame} (onLine : final.OnLine)
    (here : final.pc = final.code.length) {launch : Launch} (offset : launch.offset = 0)
    (gas : launch.gas = final.gas) (residue : launch.residue = final.toResidue)
    (first : place.before = []) (next : place.behind = launch.code) :
    final.placed place =
      launch.start.placed { place with before := final.code, behind := [] } := by
  have running : final.status = .running := of_decide_eq_true onLine.running
  -- The next script counts its nested items anew, the longer frame goes on with its count.
  have counted := onLine.counted
  unfold Counted at counted
  unfold placed Launch.start
  simp [first, next, residue, gas, offset, here, running, counted, onLine.calm,
    onLine.outermost, Status.shifted]

variable (invocation world) in
/-- So the next script does what the longer frame does from there on. -/
theorem OnLine.finish_next {final : Frame} (onLine : final.OnLine)
    (here : final.pc = final.code.length) (launch : Launch) (offset : launch.offset = 0)
    (gas : launch.gas = final.gas) (residue : launch.residue = final.toResidue)
    (straight : Straight launch.code) (place : Placement) (first : place.before = [])
    (next : place.behind = launch.code) (standard : machine.table = {})
    (shallow : launch.depth ≤ machine.config.limits.invocationDepth)
    (alsoShallow : place.depth ≤ machine.config.limits.invocationDepth) :
    ∃ last, machine.finish invocation launch.start world = (last, world) ∧
      machine.finish invocation (final.placed place) world =
        (last.placed { place with before := final.code, behind := [] }, world) := by
  rw [onLine.placed_eq_start here offset gas residue first next]
  exact (OnLine.start offset straight).finish_placed standard shallow alsoShallow rfl

end Frame

/-! ## Chains

What is left is bookkeeping: the first script faults, and so does the joined one at the same place;
or it halts, and the second script runs beside the rest of the joined one. Only the place of the
fault differs, by the length of the first code. -/

/-- The fault as it is told from a place further on, if it lies behind that place. -/
def FaultRecord.relativeTo (offset : Nat) (record : FaultRecord) : FaultRecord :=
  { record with pc := if offset ≤ record.pc then record.pc - offset else record.pc }

namespace FaultRecord

theorem relativeTo_shifted (record : FaultRecord) (offset : Nat) :
    (record.shifted offset).relativeTo offset = record := by
  simp [shifted, relativeTo]

theorem relativeTo_of_lt {record : FaultRecord} {offset : Nat} (before : record.pc < offset) :
    record.relativeTo offset = record := by
  unfold relativeTo
  rw [if_neg (Nat.not_le.2 before)]

end FaultRecord

namespace Progress

/-- Two chains have come to the same, but that the faults of one are told from a place further
on. -/
structure Agrees (offset : Nat) (split joined : Progress) : Prop where
  gas : split.gas = joined.gas
  residue : split.residue = joined.residue
  world : split.world = joined.world
  fault : split.fault = joined.fault.map (FaultRecord.relativeTo offset)

/-- A chain has come to where a frame has ended. -/
structure EndsWith (progress : Progress) (final : Frame) (world : World) : Prop where
  gas : progress.gas = final.gas
  residue : progress.residue = final.toResidue
  world : progress.world = world
  fault : progress.fault = final.fault?

variable {machine : Machine} {invocation : Invocation}

theorem endsWith_afterScript (entry : ScriptHash) (script : Script) (rest : List Script)
    (progress : Progress) {final : Frame} {world : World}
    (finish : machine.finish invocation (progress.launch entry script rest.length).start
      progress.world = (final, world)) :
    (afterScript machine invocation entry script rest progress).EndsWith final world := by
  unfold Machine.finish at finish
  obtain ⟨frame, same⟩ := Prod.mk.inj finish
  subst frame same
  exact ⟨rfl, rfl, rfl, rfl⟩

theorem EndsWith.agrees {offset : Nat} {split joined : Progress} {final : Frame}
    {place : Placement} {world : World} (ends : split.EndsWith final world)
    (alsoEnds : joined.EndsWith (final.placed place) world)
    (told : ∀ record ∈ final.fault?,
      (record.shifted place.before.length).relativeTo offset = record) :
    split.Agrees offset joined := by
  constructor
  case gas => exact ends.gas.trans alsoEnds.gas.symm
  case residue => exact ends.residue.trans alsoEnds.residue.symm
  case world => exact ends.world.trans alsoEnds.world.symm
  case fault =>
    rw [ends.fault, alsoEnds.fault, Frame.fault?_placed]
    cases fault : final.fault? with
    | none => rfl
    | some record => exact congrArg some (told record fault).symm

theorem runAll_singleton (entry : ScriptHash) (script : Script) (progress : Progress) :
    runAll machine invocation entry [script] progress =
      afterScript machine invocation entry script [] progress := by
  rw [runAll_cons]
  exact ite_self _

theorem Agrees.settle {offset : Nat} {split joined : Progress}
    (agrees : split.Agrees offset joined) :
    split.settle = (joined.settle.1.map (FaultRecord.relativeTo offset), joined.settle.2) := by
  unfold Progress.settle
  rw [agrees.fault, agrees.world]
  cases joined.fault with
  | some record => rfl
  | none =>
    dsimp only [Option.map_none]
    cases joined.world.store.commit.2 with
    | none => rfl
    | some cause =>
      -- A refused write is reported at the first position, which no shift changes.
      have same : (⟨.storage cause, 0, none⟩ : FaultRecord).relativeTo offset =
          ⟨.storage cause, 0, none⟩ := by
        simp [FaultRecord.relativeTo]
      simp [same]

variable (machine invocation) in
/-- Two scripts in a row come to the same as one script with the code of both. -/
theorem agrees_append (standard : machine.table = {}) (entry other : ScriptHash)
    (opening : Progress) {first second : Bytes}
    (deep : 2 ≤ machine.config.limits.invocationDepth) (whole : Whole first)
    (straight : Straight first) (alsoStraight : Straight second) :
    (runAll machine invocation entry [{ code := first }, { code := second }] opening).Agrees
      first.length (runAll machine invocation other [{ code := first ++ second }] opening) := by
  have shallow : 1 ≤ machine.config.limits.invocationDepth := Nat.le_of_succ_le deep
  let place : Placement :=
    { before := [], behind := second, depth := 1, script := scriptHash (first ++ second)
      entry := other, calling := opening.calling }
  let start := (opening.launch entry { code := first } 1).start
  have onLine : start.OnLine := .start rfl straight
  have abreast : start.Abreast machine invocation place opening.world :=
    onLine.abreast standard deep shallow (Or.inl whole)
  have split {final : Frame}
      (alone : machine.finish invocation start opening.world = (final, opening.world)) :=
    endsWith_afterScript entry { code := first } [{ code := second }] opening alone
  rw [runAll_singleton, runAll_cons]
  dsimp only
  generalize afterScript machine invocation entry { code := first } [{ code := second }] opening =
    between at split
  cases abreast with
  | faulted final record fault inside alone placed =>
    have faulted : final.fault? = some record := by
      unfold Frame.fault?
      rw [fault]
    have ends := split alone
    have joined := endsWith_afterScript other { code := first ++ second } [] opening placed
    rw [if_pos (Option.isSome_of_eq_some (ends.fault.trans faulted))]
    refine ends.agrees joined ?_
    rw [faulted]
    rintro _ ⟨⟩
    exact FaultRecord.relativeTo_of_lt inside
  | reachedEnd final there code here alone placed =>
    have ends := split alone
    obtain ⟨last, lastAlone, lastPlaced⟩ := there.finish_next invocation opening.world
      here (between.launch entry { code := second } 0) rfl ends.gas ends.residue alsoStraight
      place rfl rfl standard shallow shallow
    rw [← congrArg (machine.finish invocation _) ends.world] at lastAlone
    have next := endsWith_afterScript entry { code := second } [] between lastAlone
    have joined := endsWith_afterScript other { code := first ++ second } [] opening
      (placed.trans lastPlaced)
    have healthy : between.fault = none := ends.fault
    rw [healthy, Option.isSome_none, if_neg Bool.false_ne_true, runAll_singleton]
    refine next.agrees joined fun record _ => ?_
    rw [code]
    exact record.relativeTo_shifted first.length

end Progress

namespace Machine

/-- A chain of two scripts ends as one script with the code of both does, if neither has anything in
it that leads elsewhere or tells where it is and the first can be read to its end: with the same
stacks, the same gas and the same fault, whose place in the second script is told from its start.
The second script may break off anywhere. -/
theorem executeChain_append (config : Config) (invocation : Invocation) (snapshot : Snapshot)
    (gas : Int) {first second : Bytes} (deep : 2 ≤ config.limits.invocationDepth)
    (whole : Whole first) (straight : Straight first) (alsoStraight : Straight second) :
    let execute := (standard config).executeChain invocation snapshot gas
    let split := execute [{ code := first }, { code := second }]
    let joined := execute [{ code := first ++ second }]
    split.receipt =
        { joined.receipt with
          fault := joined.receipt.fault.map (FaultRecord.relativeTo first.length) } ∧
      split.snapshot = joined.snapshot := by
  intro execute split joined
  have agrees := Progress.agrees_append (standard config) invocation rfl (scriptHash first)
    (scriptHash (first ++ second)) ((standard config).opening snapshot gas) deep whole straight
    alsoStraight
  have settled := agrees.settle
  obtain ⟨left, residue, _, _⟩ := agrees
  unfold opening at settled left residue
  unfold split joined execute executeChain executeFrom
  dsimp only at settled left residue ⊢
  unfold Script.hash
  rw [settled, left, residue]
  simp only [Option.isNone_map, and_self]

/-- Code that puts a text on the stack and a number on the alt stack. -/
def layOut : Bytes :=
  [Opcode.PUSHDATA1.code, 2, 0x68, 0x69, Opcode.PUSH3.code, Opcode.TOALTSTACK.code]

/-- Code that takes the number and breaks off in its second instruction. -/
def cutOff : Bytes := [Opcode.FROMALTSTACK.code, Opcode.PUSHINT16.code, 1]

/-- The second script faults at its second byte, which is the eighth of both together. -/
theorem executeChain_cutOff :
    let execute := (standard {}).executeChain {} {} 1000
    let split := execute [{ code := layOut }, { code := cutOff }]
    let joined := execute [{ code := layOut ++ cutOff }]
    (split.receipt.fault.map FaultRecord.pc = some 1 ∧
      joined.receipt.fault.map FaultRecord.pc = some 7) ∧
    (2 ≤ ({} : Config).limits.invocationDepth ∧ Whole layOut ∧ Straight layOut ∧
      Straight cutOff) ∧
    split.receipt =
        { joined.receipt with
          fault := joined.receipt.fault.map (FaultRecord.relativeTo layOut.length) } ∧
      split.snapshot = joined.snapshot := by
  intro execute split joined
  have readable : Whole layOut ∧ Straight layOut ∧ Straight cutOff := by decide +kernel
  have deep : 2 ≤ ({} : Config).limits.invocationDepth := by decide
  refine ⟨by decide +kernel, ⟨deep, readable⟩, ?_⟩
  exact executeChain_append {} {} {} 1000 deep readable.1 readable.2.1 readable.2.2

end Machine

end GasMachine
