import GasMachine.Proofs.Call
import GasMachine.Proofs.InPlace
import GasMachine.Proofs.StraightLine

/-!
# Where a script goes

A script goes on behind an instruction, jumps, calls a routine of its own, comes back from one, or
waits for a contract. Whatever it does, it stays inside its code, and its depth is the depth at
which it started and one for every routine that is open (`Execution.Orderly`). Routines and
contracts share one counter for the depth, which the machine checks before an instruction acts and
which the instruction then changes by itself; so both the open routines and the waiting callers are
limited.
-/

set_option autoImplicit false

namespace GasMachine

/-! ## Where effects lead

Whatever leads somewhere has passed `target`, which checks the position, or is a return address. The
latter is not checked again; that it lies inside the code is part of the order shown below. -/

/-- The instructions that call a routine of the script. -/
def Opcode.isCall (opcode : Opcode) : Bool :=
  opcode = .CALL || opcode = .CALL_L || opcode = .CALLA

/-- What is known of an effect that a behaviour asks for: only calls enter and only a return leaves,
and both lead into the code. A return that does not leave has no address to leave to. -/
def Effect.Suits (behaviour : Behaviour) (frame : Frame) : Effect → Prop
  | .jump target =>
    target ≤ frame.code.length ∧ (behaviour = .leave → frame.returnStack = [])
  | .enter target =>
    target ≤ frame.code.length ∧ (behaviour = .call ∨ behaviour = .callPointer)
  | .leave target =>
    target ≤ frame.code.length ∧ behaviour = .leave ∧ ∃ rest, frame.returnStack = target :: rest
  | _ => behaviour ≠ .leave

namespace Frame

theorem target_ensures (frame : Frame) (position : Int) :
    Ensures (fun target => target ≤ frame.code.length) (frame.target position) := by
  unfold target
  split
  · rename_i inside
    exact Ensures.ok (Int.toNat_le.2 inside.2)
  · exact Ensures.error _

end Frame

/-- No service makes a script go on elsewhere. -/
theorem Service.run_target? (service : Service) (host : Host) (frame : Frame) (world : World)
    (arguments : List Item) :
    Ensures (fun results => results.effect.target? = none)
      (service.run host frame world arguments) := by
  cases service
  all_goals
    dsimp only [run]
    repeat' with_reducible first
      | refine Ensures.bind_any fun _ => ?_
      | exact Ensures.error _
      | exact Ensures.throw _
      | refine Ensures.ok ?_
      | refine Ensures.pure ?_
      | split
  all_goals rfl

namespace Behaviour

variable (host : Host) (instruction : Instruction) (frame : Frame) (world : World)
  (arguments : Arguments)

theorem suits_of_target? {behaviour : Behaviour} (stays : behaviour ≠ .leave) {effect : Effect}
    (behind : effect.target? = none) : effect.Suits behaviour frame := by
  cases effect <;> first
    | exact stays
    | cases behind

theorem jumpWhen_suits {behaviour : Behaviour} (jumps : behaviour ≠ .leave) (taken : Bool) :
    Ensures (Effect.Suits behaviour frame) (jumpWhen taken instruction frame) := by
  unfold jumpWhen relativeTarget
  split
  · refine Ensures.map ((frame.target_ensures _).mono fun target within => ?_)
    exact ⟨within, fun leaves => absurd leaves jumps⟩
  · exact Ensures.ok jumps

theorem leaveEffect_suits : Ensures (Effect.Suits .leave frame) (leaveEffect frame) := by
  unfold leaveEffect
  cases addresses : frame.returnStack with
  | nil => exact Ensures.ok ⟨Nat.le_refl _, fun _ => addresses⟩
  | cons address rest =>
    refine Ensures.map ((Ensures.self _).mono fun target found => ?_)
    have inside := frame.target_ensures address target found
    unfold Frame.target at found
    split at found
    · cases found
      exact ⟨inside, rfl, rest, addresses⟩
    · cases found

theorem run_suits (behaviour : Behaviour) :
    Ensures (fun results => results.effect.Suits behaviour frame)
      (behaviour.run host instruction frame world arguments) := by
  have moves {behaviour : Behaviour} {wanted : Except Fault Effect}
      (suits : Ensures (Effect.Suits behaviour frame) wanted) :
      Ensures (fun results => results.effect.Suits behaviour frame)
        (wanted.map fun effect => ({ effect, world } : Results)) :=
    Ensures.map suits
  have enters {behaviour : Behaviour} {target : Except Fault Nat}
      (calls : behaviour = .call ∨ behaviour = .callPointer)
      (inside : Ensures (fun target => target ≤ frame.code.length) target) :
      Ensures (Effect.Suits behaviour frame) (target.map .enter) :=
    Ensures.map (inside.mono fun target within => ⟨within, calls⟩)
  by_cases straight : behaviour.isStraight = true
  · refine (run_straight host instruction frame world arguments straight).mono ?_
    rintro results ⟨none, _⟩
    rw [none]
    rintro rfl
    cases straight
  cases behaviour
  case pushPointer => exact Ensures.map_any fun _ => Behaviour.noConfusion
  case jump => exact moves (jumpWhen_suits instruction frame Behaviour.noConfusion _)
  case jumpIf =>
    refine Ensures.bind_any fun _ => ?_
    exact moves (jumpWhen_suits instruction frame Behaviour.noConfusion _)
  case jumpCompare =>
    refine Ensures.bind_any fun _ => Ensures.bind_any fun _ => Ensures.bind_any fun _ => ?_
    refine Ensures.bind_any fun _ => ?_
    exact moves (jumpWhen_suits instruction frame Behaviour.noConfusion _)
  case call => exact moves (enters (.inl rfl) (frame.target_ensures _))
  case callPointer =>
    refine Ensures.bind_any fun item => moves (enters (.inr rfl) ?_)
    unfold pointerTarget
    split
    · split
      · exact frame.target_ensures _
      · exact Ensures.error _
    · exact Ensures.error _
  case leave => exact moves (leaveEffect_suits frame)
  case systemCall =>
    refine Ensures.bind_any fun service => ?_
    dsimp only
    split
    · refine (service.run_target? host frame world arguments.stack).mono fun results behind => ?_
      exact suits_of_target? frame Behaviour.noConfusion behind
    · exact Ensures.throw _
  all_goals exact absurd rfl straight

end Behaviour

/-! ## Calls and returns of the standard table

The depth is raised by the effect of a call and checked by its demand, two entries of the table that
know nothing of each other. That they fit is checked opcode by opcode. -/

namespace Opcode

theorem isCall_of_standardEntry {opcode : Opcode}
    (calls : opcode.standardEntry.behaviour = .call ∨
      opcode.standardEntry.behaviour = .callPointer) : opcode.isCall = true := by
  cases opcode <;> first
    | rfl
    | exact calls.elim Behaviour.noConfusion Behaviour.noConfusion

theorem eq_RET_of_leave {opcode : Opcode} (leaves : opcode.standardEntry.behaviour = .leave) :
    opcode = .RET := by
  cases opcode <;> first
    | rfl
    | cases leaves

/-- Only calls make a script one deeper. -/
theorem invocation_standardEntry (opcode : Opcode) :
    opcode.standardEntry.demand.invocation = if opcode.isCall then 1 else 0 := by
  cases opcode <;> rfl

end Opcode

namespace Machine

variable {machine : Machine} {invocation : Invocation} {frame : Frame} {instruction : Instruction}

/-- What an instruction declares about the depth. -/
theorem invocation_of_found (standard : machine.table = {})
    (found : machine.instructionAt? invocation frame = some instruction) :
    0 ≤ instruction.demand.invocation ∧
      (instruction.opcode.isCall = true → instruction.demand.invocation = 1) := by
  by_cases system : instruction.opcode = .SYSCALL
  · obtain ⟨service, _, demand⟩ := demand_of_SYSCALL standard found system
    rw [demand, system]
    constructor
    case left => cases service <;> decide
    case right => exact fun calls => nomatch calls
  · obtain ⟨base, readWith, resolves⟩ := readWith_standardEntry standard found
    have opcode : instruction.opcode = base.opcode := by cases resolves <;> rfl
    have declared : base.demand.invocation = if base.opcode.isCall then 1 else 0 := by
      rw [readWith.demand]
      exact base.opcode.invocation_standardEntry
    have same : instruction.demand.invocation = base.demand.invocation := by
      cases resolves with
      | fixed _ => rfl
      | refined refinement demand refined resolved =>
        have other : refinement ≠ .service := by
          rintro rfl
          rw [readWith.refinement] at refined
          exact system (opcode.trans ((Opcode.refinement_standardEntry _).1 refined))
        exact (Refinement.resolve_fixed other _ _ _ demand resolved).2
    rw [same, declared, opcode]
    cases base.opcode.isCall <;> decide

end Machine

/-! ## What a step does to the way

The position, the depth and the open routines of a frame are its way. An instruction that acts moves
it in one of three manners (`Moves`), and everything else leaves it as it is, a fault included. -/

namespace Frame

variable (frame : Frame)

@[simp] theorem code_perform (size : Nat) (effect : Effect) :
    (frame.perform size effect).code = frame.code := by
  cases effect <;> rfl

@[simp] theorem code_completed (instruction : Instruction) (results : Results) :
    (frame.completed instruction results).code = frame.code :=
  code_perform _ _ _

/-- What a frame goes on with: where it is, how deep, and what is open. -/
structure Way where
  pc : Nat
  depth : Nat
  returnStack : List Nat
deriving DecidableEq

def way (frame : Frame) : Way := ⟨frame.pc, frame.depth, frame.returnStack⟩

/-- The ways an instruction that acts moves a frame inside its script. -/
inductive Moves (instruction : Instruction) : Way → Prop where
  /-- Behind the instruction or to a target; a return does so only if nothing is open. -/
  | stays (pc : Nat) (inside : pc ≤ frame.code.length)
    (outermost : instruction.opcode = .RET → frame.returnStack = []) :
    Moves instruction ⟨pc, frame.depth, frame.returnStack⟩
  | enters (target : Nat) (inside : target ≤ frame.code.length)
    (isCall : instruction.opcode.isCall = true) :
    Moves instruction
      ⟨target, frame.depth + 1, (frame.pc + instruction.size) :: frame.returnStack⟩
  | leaves (address : Nat) (rest : List Nat) (inside : address ≤ frame.code.length)
    (isReturn : instruction.opcode = .RET) (innermost : frame.returnStack = address :: rest) :
    Moves instruction ⟨address, frame.depth - 1, rest⟩

end Frame

namespace Machine

variable {machine : Machine} {invocation : Invocation} {frame : Frame} {world : World}
  {instruction : Instruction} {results : Results}

theorem Acts.moves (standard : machine.table = {})
    (acts : machine.Acts invocation frame world instruction results) :
    frame.Moves instruction (frame.completed instruction results).way := by
  have suits : results.effect.Suits instruction.behaviour (frame.charged instruction) :=
    Behaviour.run_suits _ _ _ _ _ _ results acts.ran
  have behind := within_of_found acts.found
  have behaviour := behaviour_of_standard standard acts.found
  have outermost (notLeave : instruction.behaviour ≠ .leave)
      (isReturn : instruction.opcode = .RET) :
      frame.returnStack = [] := by
    rw [behaviour, isReturn] at notLeave
    exact absurd rfl notLeave
  unfold Frame.completed
  cases effect : results.effect with
  | jump target =>
    rw [effect] at suits
    refine .stays target suits.1 fun isReturn => suits.2 ?_
    rw [behaviour, isReturn]
    rfl
  | enter target =>
    rw [effect] at suits
    obtain ⟨inside, calls⟩ := suits
    rw [behaviour] at calls
    exact .enters target inside (Opcode.isCall_of_standardEntry calls)
  | leave target =>
    rw [effect] at suits
    obtain ⟨inside, leaves, rest, innermost⟩ := suits
    rw [behaviour] at leaves
    have same : frame.returnStack.tail = rest := congrArg List.tail innermost
    rw [← same] at innermost
    exact .leaves target _ inside (Opcode.eq_RET_of_leave leaves) innermost
  | _ =>
    rw [effect] at suits
    exact .stays _ behind (outermost suits)

/-- A step leaves a frame where it is, or carries out an instruction. -/
theorem way_step (standard : machine.table = {}) (invocation : Invocation) (frame : Frame)
    (world : World) {after : Frame} {next : World}
    (step : machine.step invocation frame world = (after, next)) :
    after.code = frame.code ∧
      (after.way = frame.way ∨ ∃ instruction results,
        machine.Acts invocation frame world instruction results ∧
          frame.Moves instruction after.way) := by
  have went := machine.stepTo_step invocation world frame
  rw [step] at went
  cases went with
  | overflowed instruction results acts _ =>
    exact ⟨frame.code_completed instruction results,
      .inr ⟨instruction, results, acts, acts.moves standard⟩⟩
  | acted instruction results acts _ =>
    exact ⟨frame.code_completed instruction results,
      .inr ⟨instruction, results, acts, acts.moves standard⟩⟩
  | _ => exact ⟨rfl, .inl rfl⟩

/-- An instruction that has acted leaves the frame no deeper than allowed. -/
theorem Acts.depth_le (standard : machine.table = {})
    (acts : machine.Acts invocation frame world instruction results) {way : Frame.Way}
    (moves : frame.Moves instruction way) :
    way.depth ≤ machine.config.limits.invocationDepth := by
  obtain ⟨nonneg, calls⟩ := invocation_of_found standard acts.found
  have room := acts.admitted.depth
  cases moves with
  | stays pc inside outermost =>
    dsimp only
    omega
  | enters target inside isCall =>
    rw [calls isCall] at room
    dsimp only
    omega
  | leaves address rest inside isReturn innermost =>
    dsimp only
    omega

/-- A return that is carried out has something to return to, or leads to the end. -/
theorem Acts.leaves (standard : machine.table = {})
    (acts : machine.Acts invocation frame world instruction results)
    (isReturn : instruction.opcode = .RET) {address : Nat} {rest : List Nat}
    (innermost : frame.returnStack = address :: rest) :
    (frame.completed instruction results).way = ⟨address, frame.depth - 1, rest⟩ := by
  have moves := acts.moves standard
  generalize (frame.completed instruction results).way = way at moves ⊢
  cases moves with
  | stays pc inside outermost => cases innermost.symm.trans (outermost isReturn)
  | enters target inside isCall =>
    rw [isReturn] at isCall
    cases isCall
  | leaves other others inside _ same =>
    cases innermost.symm.trans same
    rfl

/-- What is known of the way of a frame that calls a contract, and of the contract. -/
structure Descends (limit : Nat) (frame after : Frame) (launch : Launch) : Prop where
  depth : after.depth = frame.depth
  returnStack : after.returnStack = frame.returnStack
  inside : after.pc ≤ after.code.length
  /-- The depth of the contract has been checked. -/
  room : frame.depth < limit
  launchDepth : launch.depth = frame.depth + 1
  launchOffset : launch.offset = 0

theorem descends_of_pending (standard : machine.table = {}) {after : Frame} {next : World}
    {launch : Launch} (calm : frame.pending = none)
    (step : machine.step invocation frame world = (after, next))
    (pending : after.pending = some launch) (goesOn : after.isRunning = true) :
    Descends machine.config.limits.invocationDepth frame after launch := by
  obtain ⟨instruction, results, acts, rfl, _⟩ := acts_of_goesOn step goesOn
  obtain ⟨code, items, effect, rfl⟩ := effect_of_pending calm pending
  have takes : results.effect.service? = some .contractCall := by
    rw [effect]
    rfl
  obtain ⟨_, demand, _⟩ := acts.serves standard (acts.serviceAt?_of_effect standard takes)
  have room := acts.admitted.depth
  rw [demand, demand_contractCall] at room
  dsimp only at room
  have way : (frame.completed instruction results).way =
      ⟨frame.pc + instruction.size, frame.depth, frame.returnStack⟩ := by
    unfold Frame.completed
    rw [effect]
    rfl
  constructor
  case depth => exact congrArg Frame.Way.depth way
  case returnStack => exact congrArg Frame.Way.returnStack way
  case inside =>
    rw [Frame.code_completed]
    exact (congrArg Frame.Way.pc way).trans_le (within_of_found acts.found)
  case room => omega
  case launchDepth => rfl
  case launchOffset => rfl

end Machine

/-! ## Order

A frame is in order if its depth is that at its start and one for each open routine. The start of a
contract is one deeper than its caller, and a caller does not move while it waits; so the depth at
the start can be read off the callers (`initialDepth`), and order can be said of an execution
without its past. A tick keeps it: a step by `Moves`, a call because the contract starts with no
open routine, and a return because the caller is as it was. -/

/-- The depth at which a frame has started: a script at a depth of its own, a contract one deeper
than its caller was. A caller does not move while it waits, so this can be read off the callers of
the frame at any time. -/
def initialDepth (outermost : Nat) : List Suspended → Nat
  | [] => outermost
  | caller :: _ => caller.frame.depth + 1

/-- A frame that is as deep as the routines that are open in it say, all of which return into the
code. -/
structure Frame.Orderly (initial : Nat) (frame : Frame) : Prop where
  depth : frame.depth = initial + frame.returnStack.length
  returns : frame.ReturnsInside

namespace Frame.Orderly

variable {initial : Nat} {frame after : Frame}

theorem congr (orderly : frame.Orderly initial) (code : after.code = frame.code)
    (way : after.way = frame.way) : after.Orderly initial := by
  have depth : after.depth = frame.depth := congrArg Way.depth way
  have returnStack : after.returnStack = frame.returnStack := congrArg Way.returnStack way
  constructor
  case depth =>
    rw [depth, returnStack]
    exact orderly.depth
  case returns =>
    unfold ReturnsInside
    rw [code, returnStack]
    exact orderly.returns

theorem moves (orderly : frame.Orderly initial) (code : after.code = frame.code)
    {instruction : Instruction} (behind : frame.pc + instruction.size ≤ frame.code.length)
    (moves : frame.Moves instruction after.way) : after.Orderly initial := by
  obtain ⟨depth, returns⟩ := orderly
  have parts : after.depth = after.way.depth ∧ after.returnStack = after.way.returnStack :=
    ⟨rfl, rfl⟩
  unfold ReturnsInside at returns
  constructor
  case depth =>
    rw [parts.1, parts.2]
    generalize after.way = way at moves
    cases moves with
    | stays pc inside outermost => exact depth
    | enters target inside isCall =>
      dsimp only
      rw [List.length_cons]
      omega
    | leaves address rest inside isReturn innermost =>
      rw [innermost, List.length_cons] at depth
      dsimp only
      omega
  case returns =>
    unfold ReturnsInside
    rw [code, parts.2]
    generalize after.way = way at moves
    cases moves with
    | stays pc inside outermost => exact returns
    | enters target inside isCall => exact List.forall_mem_cons.2 ⟨behind, returns⟩
    | leaves address rest inside isReturn innermost =>
      rw [innermost] at returns
      exact (List.forall_mem_cons.1 returns).2

/-- A step keeps the order. -/
theorem step {machine : Machine} (standard : machine.table = {}) {invocation : Invocation}
    {world next : World} (orderly : frame.Orderly initial)
    (step : machine.step invocation frame world = (after, next)) : after.Orderly initial := by
  obtain ⟨code, same | ⟨instruction, results, acts, moves⟩⟩ :=
    Machine.way_step standard invocation frame world step
  · exact orderly.congr code same
  · exact orderly.moves code (Machine.within_of_found acts.found) moves

/-- The open routines are no more than the depth has room for. -/
theorem length_le (orderly : frame.Orderly initial) {limit : Nat}
    (limited : frame.returnStack ≠ [] → frame.depth ≤ limit) :
    frame.returnStack.length ≤ limit - initial := by
  have depth := orderly.depth
  by_cases none : frame.returnStack = []
  · rw [none]
    exact Nat.zero_le _
  · have := limited none
    omega

end Frame.Orderly

/-- What holds of the frames of an execution between its moves, if it began with a frame. -/
structure Execution.Orderly (limit : Nat) (first : Frame) (execution : Execution) : Prop where
  top : execution.frame.Orderly (initialDepth first.depth execution.callers)
  waiting : ∀ inner caller outer, execution.callers = inner ++ caller :: outer →
    caller.frame.Orderly (initialDepth first.depth outer)
  /-- A frame is inside its code, unless it is where the script was told to start. -/
  inside : execution.frame.pc ≤ execution.frame.code.length ∨
    execution.callers = [] ∧ execution.frame.pc = first.pc
  waitingInside : ∀ caller ∈ execution.callers, caller.frame.pc ≤ caller.frame.code.length
  limited : execution.frame.returnStack ≠ [] → execution.frame.depth ≤ limit
  /-- A contract that has been called had room for one more. -/
  room : ∀ caller ∈ execution.callers, caller.frame.depth < limit

namespace Execution.Orderly

variable {limit : Nat} {first : Frame} {execution : Execution}

theorem start (first : Frame) (fresh : first.returnStack = []) (world : World) :
    Orderly limit first { frame := first, world } := by
  constructor
  case top =>
    refine ⟨?_, ?_⟩
    · rw [fresh]
      rfl
    · unfold Frame.ReturnsInside
      rw [fresh]
      exact List.forall_mem_nil _
  case waiting =>
    intro inner caller outer split
    cases inner <;> cases split
  case inside => exact .inr ⟨rfl, rfl⟩
  case waitingInside => exact List.forall_mem_nil _
  case limited => exact fun more => absurd fresh more
  case room => exact List.forall_mem_nil _

/-- Every waiting caller has taken the depth one further. -/
theorem length_le_initialDepth (outermost : Nat) {callers : List Suspended}
    (waiting : ∀ inner caller outer, callers = inner ++ caller :: outer →
      caller.frame.Orderly (initialDepth outermost outer)) :
    outermost + callers.length ≤ initialDepth outermost callers := by
  induction callers with
  | nil => exact Nat.le_refl _
  | cons caller outer ih =>
    have below := ih fun inner other others split =>
      waiting (caller :: inner) other others (congrArg (caller :: ·) split)
    have depth := (waiting [] caller outer rfl).depth
    rw [List.length_cons, initialDepth]
    omega

theorem callers_le (orderly : Orderly limit first execution) :
    execution.callers.length ≤ limit - first.depth := by
  have nested := length_le_initialDepth first.depth orderly.waiting
  have room := orderly.room
  generalize execution.callers = callers at nested room
  cases callers with
  | nil => exact Nat.zero_le _
  | cons caller outer =>
    have := (List.forall_mem_cons.1 room).1
    rw [initialDepth] at nested
    omega

/-- Order is kept from move to move. -/
theorem tick {machine : Machine} (standard : machine.table = {}) {invocation : Invocation}
    (orderly : Orderly machine.config.limits.invocationDepth first execution)
    (calm : execution.frame.pending = none) (unfinished : execution.isFinished = false) :
    Orderly machine.config.limits.invocationDepth first (execution.tick machine invocation) := by
  obtain ⟨top, waiting, inside, waitingInside, limited, room⟩ := orderly
  have move := tickTo_tick machine invocation unfinished
  generalize execution.tick machine invocation = next at move ⊢
  cases move with
  | stays running after world step still =>
    obtain ⟨code, moved⟩ := Machine.way_step standard invocation _ _ step
    have same : after.settled.way = after.way := rfl
    constructor
    case top => exact (top.step standard step).congr rfl rfl
    case waiting => exact waiting
    case inside =>
      show after.way.pc ≤ after.code.length ∨ execution.callers = [] ∧ after.way.pc = first.pc
      rw [code]
      obtain still | ⟨instruction, results, acts, moves⟩ := moved
      · rw [still]
        exact inside
      · left
        generalize after.way = way at moves
        cases moves <;> assumption
    case waitingInside => exact waitingInside
    case limited =>
      show after.way.returnStack ≠ [] → after.way.depth ≤ _
      obtain still | ⟨instruction, results, acts, moves⟩ := moved
      · rw [still]
        exact limited
      · exact fun _ => acts.depth_le standard moves
    case room => exact room
  | calls running after world launch step pending goesOn =>
    have descends := Machine.descends_of_pending standard calm step pending goesOn
    have depth : after.settled.depth = execution.frame.depth := descends.depth
    constructor
    case top =>
      refine ⟨?_, List.forall_mem_nil _⟩
      show launch.depth = after.settled.depth + 1 + 0
      rw [depth, descends.launchDepth]
    case waiting =>
      intro inner caller outer split
      cases inner with
      | nil =>
        cases split
        exact (top.step standard step).congr rfl rfl
      | cons other inner =>
        obtain ⟨rfl, below⟩ := List.cons_eq_cons.1 split
        exact waiting inner caller outer below
    case inside =>
      left
      show launch.offset ≤ launch.code.length
      rw [descends.launchOffset]
      exact Nat.zero_le _
    case waitingInside => exact List.forall_mem_cons.2 ⟨descends.inside, waitingInside⟩
    case limited => exact fun more => absurd rfl more
    case room => exact List.forall_mem_cons.2 ⟨depth.trans_lt descends.room, room⟩
  | returns ended caller rest callers =>
    rw [callers] at waiting waitingInside room
    obtain ⟨code, way⟩ : (caller.frame.resume execution.frame caller.callPc).code =
        caller.frame.code ∧
        (caller.frame.resume execution.frame caller.callPc).way = caller.frame.way := by
      unfold Frame.resume
      dsimp only
      split <;> exact ⟨rfl, rfl⟩
    obtain ⟨callerInside, restInside⟩ := List.forall_mem_cons.1 waitingInside
    obtain ⟨callerRoom, restRoom⟩ := List.forall_mem_cons.1 room
    constructor
    case top => exact (waiting [] caller rest rfl).congr code way
    case waiting =>
      intro inner other outer split
      exact waiting (caller :: inner) other outer (congrArg (caller :: ·) split)
    case inside =>
      left
      dsimp only
      rw [code]
      exact (congrArg Frame.Way.pc way).trans_le callerInside
    case waitingInside => exact restInside
    case limited =>
      intro _
      exact (congrArg Frame.Way.depth way).trans_le (Nat.le_of_lt callerRoom)
    case room => exact restRoom

end Execution.Orderly

end GasMachine
