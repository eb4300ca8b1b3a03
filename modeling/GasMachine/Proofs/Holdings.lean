import GasMachine.Proofs.Call
import GasMachine.Proofs.EveryItem
import GasMachine.Proofs.History

/-!
# What frames hold

Instructions move items between the stacks, take them apart and put them together. What an
instruction gives is composed of what it got, except for what it brings in from elsewhere: pointers
into the code, handles on storage areas, and the items of an entry that a host has put into the
table (`Behaviour.run_composed`). So a property that these have can be followed through a run, from
frame to frame and from script to script.
-/

set_option autoImplicit false

namespace GasMachine

variable {p : Item → Prop}

/-! ## Results

Two ways to say something of results. `Composed` looks inside them and leaves the results themselves
open; `Each` is about the results and does not look inside. Together they give a property
everywhere. -/

/-- Results all of which are composed of items that have a property everywhere. -/
structure Results.Composed (p : Item → Prop) (results : Results) : Prop where
  stack : ∀ item ∈ results.stack, item.Composed p
  alt : ∀ item ∈ results.alt, item.Composed p

namespace Results

variable {world : World}

theorem composed_one {item : Item} (composed : item.Composed p) :
    (Results.one item world).Composed p :=
  ⟨List.forall_mem_singleton.2 composed, List.forall_mem_nil _⟩

theorem composed_many {items : List Item} (composed : ∀ item ∈ items, item.Composed p) :
    (Results.many items world).Composed p :=
  ⟨composed, List.forall_mem_nil _⟩

/-- No results. -/
theorem composed_of_nil {results : Results} (stack : results.stack = [])
    (alt : results.alt = []) : results.Composed p := by
  constructor
  · rw [stack]
    exact List.forall_mem_nil _
  · rw [alt]
    exact List.forall_mem_nil _

end Results

/-- Results each of which has a property itself, whatever is inside it. -/
structure Results.Each (p : Item → Prop) (results : Results) : Prop where
  stack : ∀ item ∈ results.stack, p item
  alt : ∀ item ∈ results.alt, p item

namespace Results

variable {q : Item → Prop} {results : Results} {world : World}

theorem Each.mono (each : results.Each p) (weaker : ∀ item, p item → q item) : results.Each q :=
  ⟨fun item member => weaker item (each.stack item member),
    fun item member => weaker item (each.alt item member)⟩

theorem each_one {item : Item} (own : p item) : (Results.one item world).Each p :=
  ⟨List.forall_mem_singleton.2 own, List.forall_mem_nil _⟩

theorem each_many {items : List Item} (own : ∀ item ∈ items, p item) :
    (Results.many items world).Each p :=
  ⟨own, List.forall_mem_nil _⟩

/-- No results. -/
theorem each_of_nil (stack : results.stack = []) (alt : results.alt = []) : results.Each p := by
  constructor
  · rw [stack]
    exact List.forall_mem_nil _
  · rw [alt]
    exact List.forall_mem_nil _

theorem Each.composed (each : results.Each (Item.Composed p)) : results.Composed p :=
  ⟨each.stack, each.alt⟩

end Results

/-! ## Services

A service makes handles on storage and nothing else that refers to something. The contract that is
called gets items that were inside one of the arguments. -/

namespace Service

/-- Whether the storage area that a service gives out may only be read, if it gives out one. -/
def area? : Service → Option Bool
  | .getContext => some false
  | .getReadOnlyContext => some true
  | _ => none

/-- The handle that a service gives out next. -/
def nextArea (frame : Frame) (world : World) (readOnly : Bool) : Item :=
  .interop ⟨world.nextSerial, .storage frame.script readOnly⟩

/-- Only handles on storage areas are references that a service makes. -/
theorem run_composed (service : Service) (host : Host) (frame : Frame) (world : World)
    (arguments : List Item)
    (area : ∀ readOnly, service.area? = some readOnly → p (nextArea frame world readOnly)) :
    Ensures (Results.Composed p) (service.run host frame world arguments) := by
  have plain {item : Item} {after : World} (noReference : item.isReference = false)
      (flat : item.parts = []) : (Results.one item after).Composed p :=
    Results.composed_one (Item.composed_of_plain noReference flat)
  have given {after : World} {readOnly : Bool} (own : p (nextArea frame world readOnly)) :
      (Results.one (nextArea frame world readOnly) after).Composed p :=
    Results.composed_one (Item.everywhere_of_flat rfl own).composed
  cases service
  case getContext => exact Ensures.ok (given (area false rfl))
  case getReadOnlyContext => exact Ensures.ok (given (area true rfl))
  case getCallingScriptHash =>
    unfold run
    cases frame.calling <;> exact Ensures.ok (plain rfl rfl)
  case storageGet =>
    refine Ensures.bind_any fun _ => Ensures.bind_any fun _ => Ensures.bind_any fun _ => ?_
    refine Ensures.bind_any fun value => ?_
    cases value <;> exact Ensures.pure (plain rfl rfl)
  all_goals
    dsimp only [run]
    repeat' with_reducible first
      | refine Ensures.bind_any fun _ => ?_
      | exact Ensures.error _
      | exact Ensures.throw _
      | refine Ensures.ok ?_
      | refine Ensures.pure ?_
      | split
  all_goals first
    | exact plain rfl rfl
    | exact Results.composed_of_nil rfl rfl
    | exact ⟨List.forall_mem_singleton.2 (Item.composed_of_plain rfl rfl), List.forall_mem_nil _⟩

theorem readCallArguments_everywhere {parameters : Item} (every : parameters.Everywhere p) :
    Ensures (fun items => ∀ item ∈ items, item.Everywhere p) (readCallArguments parameters) := by
  unfold readCallArguments
  cases parameters with
  | array items => exact Ensures.ok every.parts
  | struct items => exact Ensures.ok every.parts
  | null => exact Ensures.ok (List.forall_mem_nil _)
  | _ => exact Ensures.error _

end Service

/-! ## Behaviours

Behaviours fall into three classes: those that only move items, those that make plain items, and the
rest, which work on compound items or bring something in. The first two are treated as classes, and
for the rest the operations on items are composed already. -/

namespace Behaviour

/-- What an instruction brings in from outside its arguments has a property. -/
structure Brings (p : Item → Prop) (behaviour : Behaviour) (host : Host)
    (instruction : Instruction) (frame : Frame) (world : World) : Prop where
  constant : ∀ stack alt, behaviour = .constant stack alt →
    (∀ item ∈ stack, item.Composed p) ∧ ∀ item ∈ alt, item.Composed p
  pointer : behaviour = .pushPointer →
    ∀ position < frame.code.length, p (.pointer frame.script position)
  area : behaviour = .systemCall → ∀ service readOnly, host.service instruction = .ok service →
    service.area? = some readOnly → p (Service.nextArea frame world readOnly)

theorem pointer_composed (instruction : Instruction) (frame : Frame)
    (pointers : ∀ position < frame.code.length, p (.pointer frame.script position)) :
    Ensures (Item.Composed p) (pointer instruction frame) := by
  unfold pointer
  dsimp only
  split
  · rename_i inside
    have own := pointers (frame.pc + instruction.signedOperand).toNat (by omega)
    exact Ensures.ok (Item.everywhere_of_flat rfl own).composed
  · exact Ensures.error _

theorem belowCount_all (limit : Nat) {arguments : List Item} (held : ∀ item ∈ arguments, p item) :
    Ensures (fun items => ∀ item ∈ items, p item) (belowCount limit arguments) := by
  refine (Arguments.counted_all held).bind fun pair rest => ?_
  exact Ensures.bind_any fun _ => Ensures.pure rest

theorem mem_of_mem_lastToFront {items : List Item} {item : Item}
    (member : item ∈ lastToFront items) : item ∈ items := by
  unfold lastToFront at member
  split at member
  · rename_i last found
    rcases List.mem_cons.1 member with rfl | earlier
    · exact List.mem_of_getLast? found
    · exact List.dropLast_subset _ earlier
  · cases member

theorem forall_mem_copyLastToFront {items : List Item} (nothing : p .null)
    (held : ∀ item ∈ items, p item) : ∀ item ∈ copyLastToFront items, p item := by
  refine List.forall_mem_cons.2 ⟨?_, held⟩
  cases last : items.getLast? with
  | none => exact nothing
  | some item => exact held item (List.mem_of_getLast? last)

theorem smallInteger_isPlain (opcode : Opcode) :
    Ensures (fun item => item.isPlain = true) (smallInteger opcode) := by
  unfold smallInteger
  split
  · exact Ensures.ok rfl
  · exact Ensures.error _

theorem unaryResult_isPlain (limit : Nat) (opcode : Opcode) (argument : Item) :
    Ensures (fun item => item.isPlain = true) (unaryResult limit opcode argument) := by
  refine Ensures.bind_any fun _ => ?_
  split
  · exact Item.ofInteger_isPlain _ _
  · exact Ensures.throw _

theorem binaryResult_isPlain (limit : Nat) (opcode : Opcode) (second first : Item) :
    Ensures (fun item => item.isPlain = true) (binaryResult limit opcode second first) := by
  refine Ensures.bind_any fun _ => Ensures.bind_any fun _ => ?_
  split
  · exact Ensures.bind_any fun _ => Item.ofInteger_isPlain _ _
  · exact Ensures.throw _

theorem comparisonResult_isPlain (limit : Nat) (opcode : Opcode) (second first : Item) :
    Ensures (fun item => item.isPlain = true) (comparisonResult limit opcode second first) := by
  refine Ensures.bind_any fun _ => Ensures.bind_any fun _ => ?_
  split
  · exact Ensures.pure rfl
  · exact Ensures.throw _

/-- The elements of a new compound item are initial items. -/
theorem sizedCompound_composed (instruction : Instruction) (size : Nat)
    (initial : ∀ kind, p (Item.initial kind)) :
    Ensures (Item.Composed p) (sizedCompound instruction size) := by
  have every (kind : ItemKind) : (Item.initial kind).Everywhere p :=
    Item.everywhere_of_flat (by cases kind <;> rfl) (initial kind)
  have filled (kind : ItemKind) :
      Ensures (fun items => ∀ item ∈ items, item.Everywhere p)
        (replicated size (Item.initial kind)) := by
    refine Ensures.bind_any fun _ => Ensures.pure fun item member => ?_
    rw [List.eq_of_mem_replicate member]
    exact every kind
  unfold sizedCompound
  split
  · exact (filled .any).bind fun items held => Ensures.pure (Item.composed_of_parts rfl held)
  · refine Ensures.bind_any fun _ => ?_
    split
    · exact (filled _).bind fun items held => Ensures.pure (Item.composed_of_parts rfl held)
    · exact Ensures.throw _
  · exact (filled .any).bind fun items held => Ensures.pure (Item.composed_of_parts rfl held)

/-- Whether a behaviour only moves items, copies them or drops them. -/
def moves : Behaviour → Bool
  | .dropItems | .dropSecond | .dropAt | .copyTop | .copySecond | .copyAt | .tuck | .swap | .rotate
  | .roll | .reverse | .reverseCounted | .copyFromAlt | .toAlt | .fromAlt => true
  | _ => false

/-- Whether a behaviour makes no items but plain ones. -/
def computes : Behaviour → Bool
  | .pushInteger | .pushBoolean _ | .pushNull | .pushData | .pushSmall
  | .pass | .jump | .jumpIf | .jumpCompare | .call | .callPointer | .abort | .assert | .throwItem
  | .leave | .countItems | .newBuffer | .copyInto | .join | .substring | .left | .right
  | .unary | .binary | .compare | .equal | .not | .nonZero | .booleanBinary | .within
  | .size | .hasKey | .isNull | .isKind | .demanding _ | .crashing _ => true
  | _ => false

section Families

variable (behaviour : Behaviour) (host : Host) (instruction : Instruction) (frame : Frame)
  (world : World) (arguments : Arguments)

/-- What a behaviour gives that only moves items was there before. Where an item is missing that
never is, `null` stands in for it. -/
theorem run_moves (moves : behaviour.moves = true) (nothing : p .null)
    (stack : ∀ item ∈ arguments.stack, p item) (alt : ∀ item ∈ arguments.alt, p item) :
    Ensures (Results.Each p) (behaviour.run host instruction frame world arguments) := by
  have one {item : Item} (own : p item) :
      Ensures (Results.Each p) (.ok (.one item world) : Except Fault Results) :=
    Ensures.ok (Results.each_one own)
  have many {items : List Item} (own : ∀ item ∈ items, p item) :
      Ensures (Results.Each p) (.ok (.many items world) : Except Fault Results) :=
    Ensures.ok (Results.each_many own)
  have head : p (arguments.alt.headD .null) := by
    cases items : arguments.alt with
    | nil => exact nothing
    | cons top rest => exact alt top (items ▸ List.mem_cons_self)
  have below := belowCount_all host.limits.integerSize stack
  have first := Arguments.one_all stack
  have both := Arguments.two_all stack
  have three := Arguments.three_all stack
  cases behaviour
  case dropItems => exact Ensures.ok (Results.each_of_nil rfl rfl)
  case dropSecond => exact both.bind fun _ held => one held.1
  case dropAt =>
    exact below.bind fun _ held => many fun item member => held item (List.dropLast_subset _ member)
  case copyTop => exact first.bind fun top held => many (by simpa using held)
  case copySecond =>
    exact both.bind fun _ held => many (by simpa using And.intro held.2 ⟨held.1, held.2⟩)
  case copyAt => exact below.bind fun _ held => many (forall_mem_copyLastToFront nothing held)
  case tuck =>
    exact both.bind fun _ held => many (by simpa using And.intro held.1 ⟨held.2, held.1⟩)
  case swap => exact both.bind fun _ held => many (by simpa using And.intro held.2 held.1)
  case rotate =>
    exact three.bind fun _ held => many (by simpa using And.intro held.2.2 ⟨held.1, held.2.1⟩)
  case roll =>
    exact below.bind fun _ held => many fun item member => held item (mem_of_mem_lastToFront member)
  case reverse => exact many fun item member => stack item (List.mem_reverse.1 member)
  case reverseCounted =>
    exact below.bind fun _ held => many fun item member => held item (List.mem_reverse.1 member)
  case copyFromAlt =>
    have both := List.forall_mem_singleton.2 head
    exact Ensures.ok ⟨both, both⟩
  case toAlt =>
    exact first.bind fun _ held =>
      Ensures.pure ⟨List.forall_mem_nil _, List.forall_mem_singleton.2 held⟩
  case fromAlt => exact one head
  all_goals cases moves

/-- What a behaviour gives that computes is plain. -/
theorem run_computes (computes : behaviour.computes = true) :
    Ensures (Results.Each fun item => item.isPlain = true)
      (behaviour.run host instruction frame world arguments) := by
  have plain {item : Item} (plain : item.isPlain = true) :
      Ensures (Results.Each fun item => item.isPlain = true)
        (.ok (.one item world) : Except Fault Results) :=
    Ensures.ok (Results.each_one plain)
  have orFault {result : Except Fault Item}
      (plain : Ensures (fun item => item.isPlain = true) result) :
      Ensures (Results.Each fun item => item.isPlain = true) (result.map (.one · world)) :=
    Ensures.map (plain.mono fun _ own => Results.each_one own)
  cases behaviour
  case pushSmall => exact orFault (smallInteger_isPlain _)
  case unary => exact Ensures.bind_any fun _ => orFault (unaryResult_isPlain _ _ _)
  case binary => exact Ensures.bind_any fun _ => orFault (binaryResult_isPlain _ _ _ _)
  case compare => exact Ensures.bind_any fun _ => orFault (comparisonResult_isPlain _ _ _ _)
  -- The others give one plain item or none, after any number of parts that may fail.
  all_goals first
    | cases computes; done
    | skip
  all_goals
    dsimp only [run, withinResult, Item.copyInto, Item.join, Item.substring, Item.left, Item.right]
    repeat' with_reducible first
      | refine Ensures.bind_any fun _ => ?_
      | exact Ensures.error _
      | exact Ensures.throw _
      | exact plain rfl
      | exact Ensures.ok (Results.each_of_nil rfl rfl)
      | exact Ensures.map_any fun _ => Results.each_of_nil rfl rfl
      | refine orFault ?_
      | exact Ensures.pure rfl
      | split

end Families

/-- What a behaviour gives is composed of what it got and of what it brings in. -/
theorem run_composed (behaviour : Behaviour) (host : Host) (instruction : Instruction)
    (frame : Frame) (world : World) (arguments : Arguments)
    (initial : ∀ kind, p (Item.initial kind))
    (brings : behaviour.Brings p host instruction frame world)
    (stack : ∀ item ∈ arguments.stack, item.Everywhere p)
    (alt : ∀ item ∈ arguments.alt, item.Everywhere p) :
    Ensures (Results.Composed p) (behaviour.run host instruction frame world arguments) := by
  by_cases moves : behaviour.moves = true
  · refine (run_moves behaviour host instruction frame world arguments moves ?_ ?_ ?_).mono
      fun _ => Results.Each.composed
    · exact Item.composed_of_plain rfl rfl
    · exact fun item member => (stack item member).composed
    · exact fun item member => (alt item member).composed
  by_cases computes : behaviour.computes = true
  · refine (run_computes behaviour host instruction frame world arguments computes).mono
      fun _ each => (each.mono fun item plain => ?_).composed
    exact Item.composed_of_plain (Item.isReference_of_isPlain plain) (Item.parts_of_isPlain plain)
  have one {item : Item} (composed : item.Composed p) :
      Ensures (Results.Composed p) (.ok (.one item world) : Except Fault Results) :=
    Ensures.ok (Results.composed_one composed)
  have orFault {result : Except Fault Item} (composed : Ensures (Item.Composed p) result) :
      Ensures (Results.Composed p) (result.map (.one · world)) :=
    Ensures.map (composed.mono fun _ => Results.composed_one)
  have below := belowCount_all host.limits.integerSize stack
  have first := Arguments.one_all stack
  have both := Arguments.two_all stack
  have three := Arguments.three_all stack
  cases behaviour
  -- What comes from elsewhere.
  case constant => exact Ensures.ok ⟨(brings.constant _ _ rfl).1, (brings.constant _ _ rfl).2⟩
  case pushPointer => exact orFault (pointer_composed instruction frame (brings.pointer rfl))
  case systemCall =>
    refine (Ensures.self _).bind fun service named => ?_
    dsimp only
    split
    · exact service.run_composed host frame world arguments.stack fun readOnly =>
        brings.area rfl service readOnly named
    · exact Ensures.throw _
  -- Compound items.
  case pack => exact below.bind fun _ held => one (Item.composed_of_parts rfl held)
  case unpack =>
    exact first.bind fun _ held => (Item.unpack_composed held).bind fun _ parts =>
      Ensures.ok (Results.composed_many parts)
  case newEmpty =>
    unfold run emptyCompound
    dsimp only
    split <;> exact one (Item.composed_of_plain rfl rfl)
  case newSized =>
    exact Ensures.bind_any fun _ => Ensures.bind_any fun _ =>
      orFault (sizedCompound_composed instruction _ initial)
  case keys => exact first.bind fun _ held => orFault (Item.keys_composed held)
  case values => exact first.bind fun _ held => orFault (Item.values_composed held)
  case pickItem => exact both.bind fun _ held => orFault (Item.pickItem_composed _ _ held.2)
  case append => exact both.bind fun _ held => orFault (Item.append_composed held.1 held.2)
  case setItem =>
    exact three.bind fun _ held => orFault (Item.setItem_composed _ held.2.1 held.1 held.2.2)
  case reverseItems => exact first.bind fun _ held => orFault (Item.reverseItems_composed held)
  case removeItem => exact both.bind fun _ held => orFault (Item.removeItem_composed _ _ held.2)
  case clearItems => exact first.bind fun _ _ => orFault (Item.clearItems_composed _)
  case convert =>
    exact Ensures.bind_any fun _ => first.bind fun _ held =>
      orFault (Item.convert_composed _ _ held)
  all_goals first
    | exact absurd rfl moves
    | exact absurd rfl computes

end Behaviour

/-! ## Frames

A step puts on the stacks what was there and what its instruction gave, and the result of a contract
is its top item or `null`. That is all of the machine that the following proofs need. -/

/-- Everything on two stacks has a property. -/
structure Residue.Holds (p : Item → Prop) (residue : Residue) : Prop where
  stack : ∀ item ∈ residue.stack, item.Everywhere p
  alt : ∀ item ∈ residue.alt, item.Everywhere p

theorem Residue.Holds.mono {q : Item → Prop} {residue : Residue} (held : residue.Holds p)
    (weaker : ∀ item, p item → q item) : residue.Holds q :=
  ⟨fun item member => (held.stack item member).mono weaker,
    fun item member => (held.alt item member).mono weaker⟩

/-- Everything that an instruction gives has a property. -/
structure Results.Everywhere (p : Item → Prop) (results : Results) : Prop where
  stack : ∀ item ∈ results.stack, item.Everywhere p
  alt : ∀ item ∈ results.alt, item.Everywhere p

/-- Composed results have a property everywhere if each of them has it. -/
theorem Results.Composed.everywhere_of_each {results : Results} (composed : results.Composed p)
    (each : results.Each p) : results.Everywhere p :=
  ⟨fun item member => (composed.stack item member).everywhere (each.stack item member),
    fun item member => (composed.alt item member).everywhere (each.alt item member)⟩

/-- Composed results have a property everywhere if all that is no reference has it. -/
theorem Results.Composed.everywhere {results : Results} (composed : results.Composed p)
    (ordinary : ∀ item : Item, item.isReference = false → p item) : results.Everywhere p := by
  have every {item : Item} (whole : item.Composed p) : item.Everywhere p := by
    refine whole.everywhere ?_
    cases reference : item.isReference with
    | false => exact ordinary item reference
    | true => exact whole.reference reference
  exact ⟨fun item member => every (composed.stack item member),
    fun item member => every (composed.alt item member)⟩

namespace Frame

variable {frame : Frame} {instruction : Instruction}

theorem holds_charged (held : frame.Holds p) (instruction : Instruction) :
    (frame.charged instruction).Holds p :=
  ⟨fun item member => held.stack item (List.mem_of_mem_drop member),
    fun item member => held.alt item (List.mem_of_mem_drop member)⟩

theorem holds_completed (held : frame.Holds p) {results : Results}
    (every : results.Everywhere p) : (frame.completed instruction results).Holds p := by
  obtain ⟨stack, alt⟩ := holds_charged held instruction
  constructor
  · rw [stack_completed]
    exact List.forall_mem_append.2 ⟨every.stack, stack⟩
  · rw [alt_completed]
    exact List.forall_mem_append.2 ⟨every.alt, alt⟩

theorem holds_resume {caller callee : Frame} (held : caller.Holds p) (nothing : p .null)
    (back : callee.Holds p) (callPc : Nat) : (caller.resume callee callPc).Holds p := by
  unfold resume
  dsimp only
  split
  · refine ⟨List.forall_mem_cons.2 ⟨?_, held.stack⟩, held.alt⟩
    cases items : callee.stack with
    | nil => exact Item.everywhere_of_flat rfl nothing
    | cons top rest => exact back.stack top (items ▸ List.mem_cons_self)
  · exact ⟨held.stack, held.alt⟩

end Frame

namespace Machine

variable {machine : Machine} {invocation : Invocation} {frame : Frame} {world : World}

/-- A step leaves only what was there and what its instruction gave. -/
theorem holds_step (held : frame.Holds p)
    (acted : ∀ instruction results, machine.Acts invocation frame world instruction results →
      results.Everywhere p) :
    (machine.step invocation frame world).1.Holds p := by
  have went := machine.stepTo_step invocation world frame
  generalize machine.step invocation frame world = next at went ⊢
  cases went with
  | failed instruction fault _ _ =>
    have charged := Frame.holds_charged held instruction
    exact ⟨charged.stack, charged.alt⟩
  | overflowed instruction results acts fault =>
    have completed : (frame.completed instruction results).Holds p :=
      Frame.holds_completed held (acted _ _ acts)
    exact ⟨completed.stack, completed.alt⟩
  | acted instruction results acts fits => exact Frame.holds_completed held (acted _ _ acts)
  | _ => exact ⟨held.stack, held.alt⟩

/-- A contract starts with items that its caller had. -/
theorem holds_launch (standard : machine.table = {}) {after : Frame} {next : World}
    {launch : Launch} (held : frame.Holds p) (calm : frame.pending = none)
    (step : machine.step invocation frame world = (after, next))
    (pending : after.pending = some launch) (goesOn : after.isRunning = true) :
    launch.residue.Holds p := by
  have calls := calls_of_pending standard calm step pending goesOn
  obtain ⟨hash, parameters, stack, read⟩ := calls.stack
  have member : parameters ∈ frame.stack := by
    rw [stack]
    exact List.mem_cons_of_mem _ List.mem_cons_self
  constructor
  · exact Service.readCallArguments_everywhere (held.stack parameters member) _ read
  · rw [calls.launchAlt]
    exact List.forall_mem_nil _

end Machine

/-! ## Executions

The property has to hold of callers as well, since their items come back when they go on. With it
any property of items can be followed through a chain: only what instructions bring in has to be
shown for the property at hand (`holds_invariant`). -/

/-- Everything on the stacks of all frames has a property, and no contract is pending. -/
structure Execution.Holds (p : Item → Prop) (execution : Execution) : Prop where
  calm : execution.frame.pending = none
  frame : execution.frame.Holds p
  callers : ∀ caller ∈ execution.callers, caller.frame.Holds p

namespace Execution

variable {machine : Machine} {invocation : Invocation} {execution : Execution}

theorem Holds.mono {q : Item → Prop} (held : execution.Holds p)
    (weaker : ∀ item, p item → q item) : execution.Holds q :=
  ⟨held.calm, held.frame.mono weaker, fun caller member => (held.callers caller member).mono weaker⟩

/-- A tick moves items from frame to frame, so if the instruction at work gives none without the
property, none turn up. -/
theorem holds_tick (standard : machine.table = {}) (unfinished : execution.isFinished = false)
    (held : execution.Holds p) (nothing : p .null)
    (acted : execution.frame.isRunning = true → ∀ instruction results,
      machine.Acts invocation execution.frame execution.world instruction results →
        results.Everywhere p) :
    (execution.tick machine invocation).Holds p := by
  obtain ⟨calm, frame, callers⟩ := held
  have settled := pending_tick machine invocation unfinished
  have move := tickTo_tick machine invocation unfinished
  generalize execution.tick machine invocation = next at move settled ⊢
  cases move with
  | stays running after world step _ =>
    have stepped := Machine.holds_step frame (acted running)
    rw [step] at stepped
    exact ⟨settled, ⟨stepped.stack, stepped.alt⟩, callers⟩
  | calls running after world launch step pending goesOn =>
    have stepped := Machine.holds_step frame (acted running)
    rw [step] at stepped
    obtain ⟨stack, alt⟩ := Machine.holds_launch standard frame calm step pending goesOn
    refine ⟨settled, ⟨stack, alt⟩, List.forall_mem_cons.2 ⟨?_, callers⟩⟩
    exact ⟨stepped.stack, stepped.alt⟩
  | returns ended caller rest waiting =>
    rw [waiting] at callers
    obtain ⟨first, others⟩ := List.forall_mem_cons.1 callers
    exact ⟨settled, Frame.holds_resume first nothing frame _, others⟩

/-- A property that `null` has, and that every instruction passes on to its results, is had by
everything that a chain holds. -/
theorem holds_invariant {allowed : Execution → Prop} (standard : machine.table = {})
    (nothing : p .null)
    (acted : ∀ stage : Execution, allowed stage → stage.Holds p → stage.frame.isRunning = true →
      ∀ instruction results,
        machine.Acts invocation stage.frame stage.world instruction results →
          results.Everywhere p) :
    GuardedInvariant machine invocation allowed (Execution.Holds p)
      (fun progress => progress.residue.Holds p) := by
  constructor
  case opening =>
    rintro progress entry script remaining _ ⟨stack, alt⟩
    exact ⟨rfl, ⟨stack, alt⟩, List.forall_mem_nil _⟩
  case tick =>
    intro execution permitted unfinished held
    exact holds_tick standard unfinished held nothing (acted execution permitted held)
  case closing =>
    rintro progress execution _ held
    exact held.frame

end Execution

/-! ## What the standard table brings in -/

/-- No standard entry has items of its own. -/
theorem Opcode.standardEntry_ne_constant (opcode : Opcode) (stack alt : List Item) :
    opcode.standardEntry.behaviour ≠ .constant stack alt := by
  cases opcode <;> exact fun same => by cases same

namespace Machine

variable {machine : Machine} {invocation : Invocation} {frame : Frame} {world : World}

/-- What an instruction of the standard table gives is composed of what the frame held, if the
pointers into its code and the handles that it may get have the property. -/
theorem Acts.composed (standard : machine.table = {}) {instruction : Instruction}
    {results : Results} (acts : machine.Acts invocation frame world instruction results)
    (held : frame.Holds p) (initial : ∀ kind, p (Item.initial kind))
    (pointer : ∀ position < frame.code.length, p (.pointer frame.script position))
    (area : ∀ service readOnly, machine.serviceAt? invocation frame = some service →
      service.area? = some readOnly → p (Service.nextArea frame world readOnly)) :
    results.Composed p := by
  refine Behaviour.run_composed instruction.behaviour _ instruction _ world _ initial ?_ ?_ ?_
    results acts.ran
  · constructor
    case constant =>
      intro stack alt same
      rw [behaviour_of_standard standard acts.found] at same
      exact absurd same (Opcode.standardEntry_ne_constant _ _ _)
    case pointer => exact fun _ => pointer
    case area =>
      intro system service readOnly named gives
      have opcode := opcode_of_systemCall standard acts.found system
      exact area service readOnly (serviceAt?_eq_some_iff.2 ⟨_, acts.found, opcode, named⟩) gives
  · exact fun item member => held.stack item (List.mem_of_mem_take member)
  · exact fun item member => held.alt item (List.mem_of_mem_take member)

end Machine

end GasMachine
