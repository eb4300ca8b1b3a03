import GasMachine.Proofs.Demand
import GasMachine.Proofs.Effects

/-!
# Working in place

A behaviour computes results and leaves it to the machine to put them into effect. A machine may as
well let its behaviours work on the frame and the world directly: a jump notes where to go on, a
return takes its address off the return stack before it jumps, a service writes as it goes. Nothing
undoes such work when an instruction breaks off half way (`Work`).

Both come to the same (`Machine.stepInPlace_eq`), because whatever works in place looks at all that
can be wrong before it touches anything. The one exception is the return, whose jump comes second:
it must not fail, so every return address has to lie inside the code.
-/

set_option autoImplicit false

namespace GasMachine

/-! ## Work

Work is a state monad whose failures keep the state: what was done before an instruction broke off
stays done. The equations that follow say what each kind of work makes of a bench, so that nobody
has to look into the monad. -/

/-- A frame on which an instruction works, with what else the instruction may touch. -/
structure Bench where
  frame : Frame
  /-- Where to go on, if not behind the instruction. -/
  target : Option Nat := none
  world : World

/-- The items that an instruction puts on both stacks, top first. -/
structure Outputs where
  stack : List Item := []
  alt : List Item := []

/-- Work on a bench. What has been done before it breaks off stays done. -/
abbrev Work (α : Type) : Type := EStateM Fault Bench α

namespace Work

/-- Work out results from what is there, without an effect. -/
def look (compute : Frame → World → Except Fault Results) : Work Outputs := fun bench =>
  match compute bench.frame bench.world with
  | .ok results => .ok ⟨results.stack, results.alt⟩ bench
  | .error fault => .error fault bench

def changeFrame (change : Frame → Frame) : Work Unit :=
  modify fun bench => { bench with frame := change bench.frame }

/-- Note where to go on. -/
def jumpTo (position : Int) : Work Unit := do
  let bench ← get
  if position < 0 ∨ bench.frame.code.length < position then throw (.invalidJump position)
  set { bench with target := some position.toNat }

/-- Jump, note where to come back to, and go one deeper. -/
def enter (returnAddress : Nat) (position : Int) : Work Unit := do
  jumpTo position
  changeFrame fun frame =>
    { frame with returnStack := returnAddress :: frame.returnStack, depth := frame.depth + 1 }

/-- Take the innermost return address and jump there, or to the end of the code. -/
def leave : Work Unit := do
  let frame := (← get).frame
  match frame.returnStack with
  | address :: rest =>
    changeFrame fun frame => { frame with returnStack := rest }
    jumpTo address
    changeFrame fun frame => { frame with depth := frame.depth - 1 }
  | [] => jumpTo frame.code.length

/-- Go on where a jump leads, or behind the instruction. -/
def moveOn (size : Nat) : Work Unit :=
  modify fun bench =>
    { bench with
      frame := { bench.frame with pc := bench.target.getD (bench.frame.pc + size) }
      target := none }

/-- Write to the store, which is left alone if it refuses. -/
def write (change : Write) : Work Unit := fun bench =>
  match bench.world.store.write change with
  | .ok store => .ok () { bench with world := { bench.world with store } }
  | .error cause => .error (.storage cause) bench

/-- Give out a handle on the storage of the running script. -/
def giveArea (readOnly : Bool) : Work Outputs := do
  let bench ← get
  set { bench with world := { bench.world with nextSerial := bench.world.nextSerial + 1 } }
  return { stack := [.interop ⟨bench.world.nextSerial, .storage bench.frame.script readOnly⟩] }

section Apply

variable {α β : Type} (bench : Bench)

theorem bind_apply (work : Work α) (next : α → Work β) :
    (work >>= next) bench =
      match work bench with
      | .ok value left => next value left
      | .error fault left => .error fault left := by
  show EStateM.bind work next bench = _
  unfold EStateM.bind
  cases work bench <;> rfl

theorem pure_apply (value : α) : (pure value : Work α) bench = .ok value bench := rfl

theorem throw_apply (fault : Fault) : (throw fault : Work α) bench = .error fault bench := rfl

theorem get_apply : (get : Work Bench) bench = .ok bench bench := rfl

theorem set_apply (other : Bench) : (set other : Work PUnit) bench = .ok ⟨⟩ other := rfl

theorem changeFrame_apply (change : Frame → Frame) :
    changeFrame change bench = .ok () { bench with frame := change bench.frame } := rfl

theorem moveOn_apply (size : Nat) :
    moveOn size bench =
      .ok () { bench with
        frame := { bench.frame with pc := bench.target.getD (bench.frame.pc + size) }
        target := none } := rfl

theorem write_apply (change : Write) :
    write change bench =
      match bench.world.store.write change with
      | .ok store => .ok () { bench with world := { bench.world with store } }
      | .error cause => .error (.storage cause) bench := rfl

end Apply

end Work

/-! ## Services and behaviours

The same instructions once more, in the order in which a machine without intermediate results would
do them. Where an instruction only computes, the computation is the one that is there already
(`look`), so that only the others are said twice. -/

open Work (look changeFrame jumpTo)

/-- What a service does, in place. -/
def Service.work (service : Service) (host : Host) (arguments : List Item) : Work Outputs :=
  match service with
  | .log => do
    let item ← ofExcept (Arguments.one arguments)
    let message ← ofExcept (readText host.limits.itemSize item)
    changeFrame fun frame => { frame with logs := frame.logs ++ [⟨frame.script, message⟩] }
    return {}
  | .notify => do
    let (name, state) ← ofExcept (Arguments.two arguments)
    let name ← ofExcept (readText maxEventNameSize name)
    changeFrame fun frame =>
      { frame with
        notifications := frame.notifications ++ [⟨frame.script, name, state.toParameter⟩] }
    return {}
  | .getContext => Work.giveArea false
  | .getReadOnlyContext => Work.giveArea true
  | .storagePut => do
    let (area, key, value) ← ofExcept (Arguments.three arguments)
    let area ← ofExcept (readWritableArea area)
    let key ← ofExcept (readStorageKey key)
    let value ← ofExcept value.toBytes
    if host.limits.itemSize < value.length then
      throw (.itemOverflow value.length host.limits.itemSize)
    Work.write (.put ⟨area.owner, key⟩ value)
    return {}
  | .storageDelete => do
    let (area, key) ← ofExcept (Arguments.two arguments)
    let area ← ofExcept (readWritableArea area)
    let key ← ofExcept (readStorageKey key)
    Work.write (.delete ⟨area.owner, key⟩)
    return {}
  | .contractCreate => do
    let item ← ofExcept (Arguments.one arguments)
    let code ← ofExcept item.toBytes
    if code.isEmpty then throw (.invalidArgument .emptyContract)
    let hash := scriptHash code
    let present ← ofExcept (ofStore ((← get).world.store.hasContract hash))
    if present then throw (.contractExists hash)
    Work.write (.addContract hash code)
    changeFrame fun frame => { frame with created := frame.created.insert hash }
    return { stack := [hashItem hash] }
  | .contractCall => do
    let (hash, parameters) ← ofExcept (Arguments.two arguments)
    let hash ← ofExcept (readHash hash)
    let parameters ← ofExcept (readCallArguments parameters)
    match ← ofExcept (ofStore ((← get).world.store.getContract hash)) with
    | some code =>
      let launch := (← get).frame.launch code parameters
      changeFrame fun frame => { frame with created := ∅, notifications := [], logs := [] }
      changeFrame fun frame => { frame with pending := some launch }
      return {}
    | none => throw (.contractNotFound hash)
  | other => look fun frame world => other.run host frame world arguments

namespace Behaviour

/-- The position that an operand leads to, before it is looked at. -/
def operandPosition (instruction : Instruction) : Work Int := do
  return (← get).frame.pc + instruction.signedOperand

def jumpInPlace (taken : Bool) (instruction : Instruction) : Work Outputs := do
  if taken then jumpTo (← operandPosition instruction)
  return {}

/-- What an instruction does with its arguments, in place. -/
def work (behaviour : Behaviour) (host : Host) (instruction : Instruction)
    (arguments : Arguments) : Work Outputs :=
  let opcode := instruction.opcode
  let stack := arguments.stack
  match behaviour with
  | .jump => jumpInPlace true instruction
  | .jumpIf => do
    let condition ← ofExcept (Arguments.one stack)
    jumpInPlace (condition.isTrue == jumpsOn opcode) instruction
  | .jumpCompare => do
    let (second, first) ← ofExcept (Arguments.two stack)
    let x ← ofExcept (first.toInteger host.limits.integerSize)
    let y ← ofExcept (second.toInteger host.limits.integerSize)
    let taken ← ofExcept (comparisonHolds opcode x y)
    jumpInPlace taken instruction
  | .call => do
    let position ← operandPosition instruction
    Work.enter ((← get).frame.pc + instruction.size) position
    return {}
  | .callPointer => do
    match ← ofExcept (Arguments.one stack) with
    | .pointer script position =>
      let frame := (← get).frame
      if script ≠ frame.script then throw (.invalidArgument .foreignPointer)
      Work.enter (frame.pc + instruction.size) (TwosComplement.signed position)
      return {}
    | item => throw (.invalidType (.kinds [.pointer]) item.kind)
  | .leave => do
    Work.leave
    return {}
  | .systemCall => do
    let service ← ofExcept (host.service instruction)
    if service.allows host.invocation.trigger then service.work host stack
    else throw (.triggerNotAllowed service host.invocation.trigger)
  | other => look fun frame world => other.run host instruction frame world arguments

end Behaviour

/-! ## The machine -/

namespace Machine

/-- Take the arguments, let the behaviour work, put the outputs and move on. -/
def carryOut (machine : Machine) (invocation : Invocation) (instruction : Instruction) :
    Work Unit := do
  let demand := instruction.demand
  let frame := (← get).frame
  changeFrame fun frame => frame.pop demand.stackIn demand.altIn
  let outputs ← instruction.behaviour.work (machine.host invocation) instruction
    ⟨frame.stack.take demand.stackIn, frame.alt.take demand.altIn⟩
  if outputs.stack.length ≠ demand.stackOut ∨ outputs.alt.length ≠ demand.altOut then
    throw (.internal (.resultCount instruction.opcode outputs.stack.length outputs.alt.length
      demand.stackOut demand.altOut))
  changeFrame fun frame => frame.push outputs.stack outputs.alt
  Work.moveOn instruction.size

/-- Carry out an instruction that has been paid. Wherever it breaks off, the frame is left as it is
then, and faults. -/
def executeInPlace (machine : Machine) (invocation : Invocation) (instruction : Instruction)
    (bench : Bench) : Bench :=
  match machine.carryOut invocation instruction bench with
  | .error fault left =>
    { left with frame := left.frame.failAt bench.frame.pc instruction.opcode fault }
  | .ok () done =>
    let limit := machine.config.limits.stackSize
    let size := done.frame.totalSize
    if limit < size then
      { done with
        frame := done.frame.failAt bench.frame.pc instruction.opcode (.stackOverflow size limit) }
    else done

/-- A step that works in place. -/
def stepInPlace (machine : Machine) (invocation : Invocation) (bench : Bench) : Bench :=
  let frame := bench.frame
  if frame.isRunning then
    match frame.code.drop frame.pc with
    | [] => { bench with frame := frame.halt }
    | byte :: following =>
      match machine.prepare invocation frame byte following with
      | .error fault => { bench with frame := frame.fail (Opcode.ofByte? byte) fault }
      | .ok instruction =>
        let paid := frame.pay instruction.fee
        match machine.config.limits.check frame instruction with
        | .error fault => { bench with frame := paid.fail instruction.opcode fault }
        | .ok () =>
          if frame.gas < instruction.fee then
            { bench with
              frame := paid.fail instruction.opcode (.outOfGas instruction.fee frame.gas) }
          else machine.executeInPlace invocation instruction { bench with frame := paid }
  else bench

end Machine

/-! ## Effects without the move

An effect also says where the frame goes on. Work in place only notes this down and moves at the
very end, so the rest of the effect is split off from the move. -/

/-- Where an effect leads, if not behind the instruction. -/
def Effect.target? : Effect → Option Nat
  | .jump target | .enter target | .leave target => some target
  | _ => Option.none

namespace Frame

/-- What an effect does to a frame beside moving on. -/
def undergo (frame : Frame) (size : Nat) (effect : Effect) : Frame :=
  { frame.perform size effect with pc := frame.pc }

theorem perform_eq (frame : Frame) (size : Nat) (effect : Effect) :
    frame.perform size effect =
      { frame.undergo size effect with pc := effect.target?.getD (frame.pc + size) } := by
  cases effect <;> rfl

/-- Every return address is a position of the code or its end. -/
def ReturnsInside (frame : Frame) : Prop :=
  ∀ address ∈ frame.returnStack, address ≤ frame.code.length

theorem target_of_le {frame : Frame} {position : Nat} (inside : position ≤ frame.code.length) :
    frame.target position = .ok position :=
  if_pos ⟨Int.natCast_nonneg _, Int.ofNat_le.2 inside⟩

end Frame

/-! ## Agreement

`Agrees` is the relation between the two: if the computation fails the bench is untouched, and if it
gives results the bench has all of their effect. It goes through checks and through whatever comes
before anything is touched; what touches the bench has a lemma of its own for each kind of work. A
return is the only kind that touches it first and may fail afterwards, and for this return addresses
have to lie inside the code. -/

/-- The bench on which everything has been done that results ask for, up to putting them on the
stacks and moving on. -/
def Bench.after (bench : Bench) (size : Nat) (results : Results) : Bench :=
  { frame := bench.frame.undergo size results.effect
    target := results.effect.target?
    world := results.world }

/-- Work in place comes to what has been computed: all of it is done, or nothing is. -/
def Work.Agrees (bench : Bench) (size : Nat) (work : Work Outputs)
    (computed : Except Fault Results) : Prop :=
  work bench =
    match computed with
    | .ok results => .ok ⟨results.stack, results.alt⟩ (bench.after size results)
    | .error fault => .error fault bench

namespace Work.Agrees

variable {bench : Bench} {size : Nat}

/-- The parts before anything is touched are the same on both sides. -/
theorem bind {α : Type} {first : Except Fault α} {work : α → Work Outputs}
    {next : α → Except Fault Results}
    (rest : ∀ value, first = .ok value → Agrees bench size (work value) (next value)) :
    Agrees bench size (ofExcept first >>= work) (first >>= next) := by
  cases first with
  | error fault => rfl
  | ok value => exact rest value rfl

/-- A check that comes before anything is touched. -/
theorem ite {condition : Prop} [Decidable condition] {work other : Work Outputs}
    {computed otherwise : Except Fault Results}
    (yes : condition → Agrees bench size work computed)
    (no : ¬condition → Agrees bench size other otherwise) :
    Agrees bench size (if condition then work else other)
      (if condition then computed else otherwise) := by
  by_cases holds : condition
  · rw [if_pos holds, if_pos holds]
    exact yes holds
  · rw [if_neg holds, if_neg holds]
    exact no holds

/-- Looking at the bench touches nothing. -/
theorem get {work : Bench → Work Outputs} {computed : Except Fault Results}
    (rest : Agrees bench size (work bench) computed) :
    Agrees bench size (MonadState.get >>= work) computed :=
  rest

/-- What only computes leaves the bench as it is. -/
theorem look {compute : Frame → World → Except Fault Results} (fresh : bench.target = none)
    (calm : Ensures (fun results => results.effect = .none ∧ results.world = bench.world)
      (compute bench.frame bench.world)) :
    Agrees bench size (Work.look compute) (compute bench.frame bench.world) := by
  unfold Agrees Work.look
  cases computed : compute bench.frame bench.world with
  | error fault => rfl
  | ok results =>
    obtain ⟨none, same⟩ := calm results computed
    obtain ⟨frame, target, world⟩ := bench
    cases fresh
    cases same
    dsimp only
    rw [Bench.after, none]
    rfl

end Work.Agrees

namespace Work

variable {bench : Bench} {size : Nat}

theorem jumpTo_eq (position : Int) (bench : Bench) :
    jumpTo position bench =
      match bench.frame.target position with
      | .ok target => .ok () { bench with target := some target }
      | .error fault => .error fault bench := by
  unfold jumpTo Frame.target
  by_cases inside : 0 ≤ position ∧ position ≤ bench.frame.code.length
  · have fits : ¬(position < 0 ∨ bench.frame.code.length < position) := by omega
    rw [if_pos inside, bind_apply, get_apply]
    dsimp only
    rw [if_neg fits, set_apply]
  · have outside : position < 0 ∨ bench.frame.code.length < position := by omega
    rw [if_neg inside, bind_apply, get_apply]
    dsimp only
    rw [if_pos outside, bind_apply, throw_apply]

/-- A jump that is taken notes its target, and one that is not does nothing. -/
theorem agrees_jumpInPlace (fresh : bench.target = none) (taken : Bool)
    (instruction : Instruction) :
    Agrees bench size (Behaviour.jumpInPlace taken instruction)
      ((Behaviour.jumpWhen taken instruction bench.frame).map fun effect =>
        { effect, world := bench.world }) := by
  obtain ⟨frame, target, world⟩ := bench
  cases fresh
  unfold Agrees Behaviour.jumpInPlace Behaviour.jumpWhen Behaviour.relativeTarget
  cases taken with
  | false => rfl
  | true =>
    rw [if_pos rfl, if_pos rfl]
    simp only [Behaviour.operandPosition, bind_apply, get_apply, pure_apply, jumpTo_eq]
    cases frame.target (frame.pc + instruction.signedOperand) <;> rfl

/-- Nothing is noted down for a call whose target lies outside the code. -/
theorem agrees_enter (fresh : bench.target = none) (position : Int) :
    Agrees bench size
      (do
        enter (bench.frame.pc + size) position
        return {})
      (((bench.frame.target position).map .enter).map fun effect =>
        { effect, world := bench.world }) := by
  obtain ⟨frame, target, world⟩ := bench
  cases fresh
  unfold Agrees enter
  simp only [bind_apply, jumpTo_eq]
  cases frame.target position <;> rfl

/-- A return has taken its address when it jumps, so the jump must not fail. -/
theorem agrees_leave (fresh : bench.target = none) (returns : bench.frame.ReturnsInside) :
    Agrees bench size
      (do
        leave
        return {})
      ((Behaviour.leaveEffect bench.frame).map fun effect => { effect, world := bench.world }) := by
  obtain ⟨frame, target, world⟩ := bench
  cases fresh
  unfold Agrees leave Behaviour.leaveEffect
  simp only [bind_apply, get_apply, pure_apply]
  cases addresses : frame.returnStack with
  | nil =>
    dsimp only
    rw [jumpTo_eq, Frame.target_of_le (Nat.le_refl _)]
    rfl
  | cons address rest =>
    have inside : address ≤ frame.code.length :=
      returns address (addresses ▸ List.mem_cons_self)
    have found : ({ frame with returnStack := rest } : Frame).target address = .ok address :=
      Frame.target_of_le inside
    simp only [bind_apply, changeFrame_apply, jumpTo_eq, found, Frame.target_of_le inside]
    unfold Bench.after Frame.undergo Frame.perform
    dsimp only [Except.map]
    rw [addresses]
    rfl

end Work

/-! ## Services and behaviours agree -/

open Work (Agrees)

namespace Service

/-- Whether a service only gives results. -/
def isQuiet : Service → Bool
  | .log | .notify | .getContext | .getReadOnlyContext | .storagePut | .storageDelete
  | .contractCreate | .contractCall => false
  | _ => true

variable {service : Service} (host : Host) (arguments : List Item)

theorem work_of_isQuiet (quiet : service.isQuiet = true) :
    service.work host arguments =
      look fun frame world => service.run host frame world arguments := by
  cases service <;> first
    | rfl
    | cases quiet

theorem run_quiet (quiet : service.isQuiet = true) (frame : Frame) (world : World) :
    Ensures (fun results => results.effect = .none ∧ results.world = world)
      (service.run host frame world arguments) := by
  cases service <;> try cases quiet
  all_goals
    dsimp only [run]
    repeat' with_reducible first
      | refine Ensures.bind_any fun _ => ?_
      | exact Ensures.error _
      | refine Ensures.ok ⟨?_, ?_⟩
      | refine Ensures.pure ⟨?_, ?_⟩
      | split
  all_goals rfl

theorem work_agrees (service : Service) {bench : Bench} (fresh : bench.target = none)
    (size : Nat) :
    Agrees bench size (service.work host arguments)
      (service.run host bench.frame bench.world arguments) := by
  by_cases quiet : service.isQuiet = true
  · rw [work_of_isQuiet host arguments quiet]
    exact Agrees.look fresh (run_quiet host arguments quiet bench.frame bench.world)
  obtain ⟨frame, target, world⟩ := bench
  cases fresh
  cases service
  case log =>
    exact Agrees.bind fun item _ => Agrees.bind fun message _ => rfl
  case notify =>
    exact Agrees.bind fun (name, state) _ => Agrees.bind fun name _ => rfl
  case getContext => rfl
  case getReadOnlyContext => rfl
  case storagePut =>
    refine Agrees.bind fun (area, key, value) _ => Agrees.bind fun area _ => ?_
    refine Agrees.bind fun key _ => Agrees.bind fun value _ => ?_
    refine Agrees.ite (fun large => rfl) fun fits => ?_
    unfold Agrees
    dsimp only
    rw [Work.bind_apply, Work.write_apply]
    cases world.store.write (.put ⟨area.owner, key⟩ value) <;> rfl
  case storageDelete =>
    refine Agrees.bind fun (area, key) _ => Agrees.bind fun area _ => Agrees.bind fun key _ => ?_
    unfold Agrees
    rw [Work.bind_apply, Work.write_apply]
    cases world.store.write (.delete ⟨area.owner, key⟩) <;> rfl
  case contractCreate =>
    refine Agrees.bind fun item _ => Agrees.bind fun code _ => ?_
    refine Agrees.ite (fun empty => rfl) fun filled => ?_
    refine Agrees.get (Agrees.bind fun present _ => Agrees.ite (fun known => rfl) fun new => ?_)
    unfold Agrees
    dsimp only
    rw [Work.bind_apply, Work.write_apply]
    cases world.store.write (.addContract (scriptHash code) code) <;> rfl
  case contractCall =>
    refine Agrees.bind fun (hash, parameters) _ => Agrees.bind fun hash _ => ?_
    refine Agrees.bind fun parameters _ => Agrees.get (Agrees.bind fun code _ => ?_)
    cases code <;> rfl
  all_goals exact absurd rfl quiet

end Service

namespace Behaviour

variable {behaviour : Behaviour} (host : Host) (instruction : Instruction) (arguments : Arguments)

theorem work_of_isStraight (straight : behaviour.isStraight = true) :
    behaviour.work host instruction arguments =
      look fun frame world => behaviour.run host instruction frame world arguments := by
  cases behaviour <;> first
    | rfl
    | cases straight

theorem run_pushPointer (frame : Frame) (world : World) :
    Ensures (fun results => results.effect = .none ∧ results.world = world)
      (pushPointer.run host instruction frame world arguments) :=
  Ensures.map_any fun _ => ⟨rfl, rfl⟩

theorem work_agrees (behaviour : Behaviour) {bench : Bench} (fresh : bench.target = none)
    (returns : bench.frame.ReturnsInside) :
    Agrees bench instruction.size (behaviour.work host instruction arguments)
      (behaviour.run host instruction bench.frame bench.world arguments) := by
  by_cases straight : behaviour.isStraight = true
  · rw [work_of_isStraight host instruction arguments straight]
    exact Agrees.look fresh
      (run_straight host instruction bench.frame bench.world arguments straight)
  cases behaviour
  case pushPointer =>
    have looks : pushPointer.work host instruction arguments =
        look fun frame world => pushPointer.run host instruction frame world arguments := rfl
    rw [looks]
    exact Agrees.look fresh
      (run_pushPointer host instruction arguments bench.frame bench.world)
  case jump => exact Work.agrees_jumpInPlace fresh true instruction
  case jumpIf =>
    exact Agrees.bind fun condition _ => Work.agrees_jumpInPlace fresh _ instruction
  case jumpCompare =>
    refine Agrees.bind fun (second, first) _ => Agrees.bind fun x _ => Agrees.bind fun y _ => ?_
    exact Agrees.bind fun taken _ => Work.agrees_jumpInPlace fresh taken instruction
  case call => exact Work.agrees_enter fresh _
  case callPointer =>
    refine Agrees.bind fun item _ => ?_
    unfold pointerTarget
    cases item with
    | pointer script position =>
      refine Agrees.get ?_
      dsimp only
      by_cases own : script = bench.frame.script
      · rw [if_pos own, if_neg (not_not_intro own)]
        exact Work.agrees_enter fresh _
      · rw [if_neg own, if_pos own]
        rfl
    | _ => rfl
  case leave => exact Work.agrees_leave fresh returns
  case systemCall =>
    refine Agrees.bind fun service _ => Agrees.ite (fun allowed => ?_) fun refused => rfl
    exact service.work_agrees host _ fresh _
  all_goals exact absurd rfl straight

end Behaviour

/-! ## Steps in place

One difference is left. Results are counted after the behaviour has worked, when in place it is too
late; so an instruction has to give what it declares or must have done nothing but compute
(`Delivers`). -/

namespace Machine

variable {machine : Machine} {invocation : Invocation} {frame : Frame} {world : World}
  {instruction : Instruction}

/-- An instruction gives as many results as it declares, or it gives nothing but results. -/
def Delivers (machine : Machine) (invocation : Invocation) (frame : Frame) (world : World)
    (instruction : Instruction) : Prop :=
  Ensures (fun results =>
      (results.stack.length = instruction.demand.stackOut ∧
        results.alt.length = instruction.demand.altOut) ∨
      (results.effect = .none ∧ results.world = world))
    (instruction.behaviour.run (machine.host invocation) instruction (frame.charged instruction)
      world (frame.argumentsOf instruction))

theorem completed_eq (frame : Frame) (instruction : Instruction) (results : Results) :
    frame.completed instruction results =
      { ((frame.charged instruction).undergo instruction.size results.effect).push
          results.stack results.alt with
        pc := results.effect.target?.getD (frame.pc + instruction.size) } := by
  unfold Frame.completed
  rw [Frame.perform_eq]
  rfl

/-- Carrying out an instruction does all that has been computed, or takes the arguments and nothing
else. -/
theorem carryOut_apply (returns : frame.ReturnsInside)
    (delivers : machine.Delivers invocation frame world instruction) :
    machine.carryOut invocation instruction ⟨frame.pay instruction.fee, none, world⟩ =
      match instruction.behaviour.run (machine.host invocation) instruction
        (frame.charged instruction) world (frame.argumentsOf instruction) with
      | .ok results =>
        if results.stack.length = instruction.demand.stackOut ∧
            results.alt.length = instruction.demand.altOut then
          .ok () ⟨frame.completed instruction results, none, results.world⟩
        else
          .error
            (.internal (.resultCount instruction.opcode results.stack.length results.alt.length
              instruction.demand.stackOut instruction.demand.altOut))
            ⟨frame.charged instruction, none, world⟩
      | .error fault => .error fault ⟨frame.charged instruction, none, world⟩ := by
  have popped : (⟨(frame.pay instruction.fee).pop instruction.demand.stackIn
      instruction.demand.altIn, none, world⟩ : Bench) = ⟨frame.charged instruction, none, world⟩ :=
    rfl
  have taken : (⟨(frame.pay instruction.fee).stack.take instruction.demand.stackIn,
      (frame.pay instruction.fee).alt.take instruction.demand.altIn⟩ : Arguments) =
      frame.argumentsOf instruction := rfl
  have fresh : (⟨frame.charged instruction, none, world⟩ : Bench).target = none := rfl
  have agrees := instruction.behaviour.work_agrees (machine.host invocation) instruction
    (frame.argumentsOf instruction) fresh returns
  unfold Agrees at agrees
  unfold carryOut
  simp only [Work.bind_apply, Work.get_apply, Work.changeFrame_apply, popped, taken, agrees]
  cases ran : instruction.behaviour.run (machine.host invocation) instruction
    (frame.charged instruction) world (frame.argumentsOf instruction) with
  | error fault => rfl
  | ok results =>
    dsimp only
    by_cases counts : results.stack.length = instruction.demand.stackOut ∧
        results.alt.length = instruction.demand.altOut
    · rw [if_pos counts, if_neg (by omega), Work.bind_apply, Work.changeFrame_apply]
      dsimp only
      rw [Work.moveOn_apply, completed_eq]
      rfl
    · obtain ⟨none, same⟩ := (delivers results ran).resolve_left counts
      rw [if_neg counts, if_pos (by omega), Work.bind_apply, Work.throw_apply]
      unfold Bench.after
      rw [none, same]
      rfl

/-- Nothing that broke off half way is left of an instruction. -/
theorem executeInPlace_eq (returns : frame.ReturnsInside)
    (delivers : machine.Delivers invocation frame world instruction) :
    machine.executeInPlace invocation instruction ⟨frame.pay instruction.fee, none, world⟩ =
      ⟨(machine.execute invocation instruction (frame.pay instruction.fee) world).1, none,
        (machine.execute invocation instruction (frame.pay instruction.fee) world).2⟩ := by
  have popped : (frame.pay instruction.fee).pop instruction.demand.stackIn
      instruction.demand.altIn = frame.charged instruction := rfl
  have taken : (⟨(frame.pay instruction.fee).stack.take instruction.demand.stackIn,
      (frame.pay instruction.fee).alt.take instruction.demand.altIn⟩ : Arguments) =
      frame.argumentsOf instruction := rfl
  unfold executeInPlace execute
  rw [carryOut_apply returns delivers]
  simp only [popped, taken]
  cases ran : instruction.behaviour.run (machine.host invocation) instruction
    (frame.charged instruction) world (frame.argumentsOf instruction) with
  | error fault => rfl
  | ok results =>
    have done : (((frame.charged instruction).perform instruction.size results.effect).push
        results.stack results.alt) = frame.completed instruction results := rfl
    dsimp only
    by_cases counts : results.stack.length = instruction.demand.stackOut ∧
        results.alt.length = instruction.demand.altOut
    · rw [if_pos counts, if_pos counts, done]
      dsimp only
      by_cases large :
          machine.config.limits.stackSize < (frame.completed instruction results).totalSize
      · rw [if_pos large, if_pos large]
      · rw [if_neg large, if_neg large]
    · rw [if_neg counts, if_neg counts]
      rfl

/-- A step that works in place comes to the same as one that computes first, if returns cannot fail
and what else instructions do is not undone for the number of their results. -/
theorem stepInPlace_eq (returns : frame.ReturnsInside)
    (delivers : ∀ instruction, machine.instructionAt? invocation frame = some instruction →
      machine.config.limits.Admits frame instruction →
      machine.Delivers invocation frame world instruction) :
    machine.stepInPlace invocation ⟨frame, none, world⟩ =
      ⟨(machine.step invocation frame world).1, none, (machine.step invocation frame world).2⟩ := by
  unfold stepInPlace step
  dsimp only
  by_cases running : frame.isRunning = true
  · rw [if_pos running, if_pos running]
    cases here : frame.code.drop frame.pc with
    | nil => rfl
    | cons byte following =>
      dsimp only
      cases prepared : machine.prepare invocation frame byte following with
      | error fault => rfl
      | ok instruction =>
        unfold perform
        dsimp only
        cases checked : machine.config.limits.check frame instruction with
        | error fault => rfl
        | ok _ =>
          dsimp only
          by_cases poor : frame.gas < instruction.fee
          · rw [if_pos poor, if_pos poor]
          · rw [if_neg poor, if_neg poor]
            exact executeInPlace_eq returns (delivers instruction
              (instructionAt?_of_prepare here prepared) (Limits.admits_of_check checked))
  · rw [if_neg running, if_neg running]

/-- In particular where the step goes on, because then the results have been counted. -/
theorem stepInPlace_of_goesOn {after : Frame} {next : World} (returns : frame.ReturnsInside)
    (step : machine.step invocation frame world = (after, next))
    (goesOn : after.isRunning = true) :
    machine.stepInPlace invocation ⟨frame, none, world⟩ = ⟨after, none, next⟩ := by
  obtain ⟨instruction, results, acts, _⟩ := acts_of_goesOn step goesOn
  rw [stepInPlace_eq returns, step]
  intro other found _ others ran
  cases found.symm.trans acts.found
  cases ran.symm.trans acts.ran
  exact .inl ⟨acts.stackOut, acts.altOut⟩

end Machine

end GasMachine
