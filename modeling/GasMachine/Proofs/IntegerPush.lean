import GasMachine.Proofs.Compact
import GasMachine.Proofs.ShortestForm
import GasMachine.Proofs.SingleStep
import GasMachine.Proofs.Stepping

/-!
# Pushing a number

The code for a number is one byte, or a fixed push with the narrowest operand whose range the
number is in, or a push of bytes and a conversion if there is no such operand (`IntegerForm`).
Whatever follows it, the code leaves the number on top of the stack; only a conversion can go wrong,
if the number has more bytes than numbers may have (`Machine.LeavesInteger`).

The run follows the listing of the code: an instruction that is read back is in front of the frame,
and what is read back behind it is in front of the frame afterwards (`Machine.Faces`).
-/

set_option autoImplicit false

namespace GasMachine

open TwosComplement (InRange width)
open Directive (integerWidths pushInteger)

/-! ## The code of a number

The form goes by the range of the number, and each form has one price. What was read back of the
code (`PushesInteger`) has this form because the widths of the fixed pushes are those of ranges. -/

/-- The instructions that push a number. -/
inductive IntegerForm (value : Int) : List Instruction → Prop where
  /-- The opcode says which number. -/
  | small {instruction : Instruction} (near : -1 ≤ value ∧ value ≤ 16)
    (number : instruction.opcode.smallInt? = some value) : IntegerForm value [instruction]
  /-- The number is in an operand of the narrowest width. -/
  | fixed {instruction : Instruction} {size : Nat} (far : ¬(-1 ≤ value ∧ value ≤ 16))
    (form : (size, instruction.opcode) ∈ integerWidths) (inside : InRange size value)
    (narrowest : ∀ other ∈ integerWidths, InRange other.1 value → size ≤ other.1)
    (length : instruction.operand.length = size)
    (number : TwosComplement.decode instruction.operand = value) : IntegerForm value [instruction]
  /-- The bytes of the number are pushed and converted. -/
  | converted {push convert : Instruction} (wide : ∀ other ∈ integerWidths, ¬InRange other.1 value)
    (counted : push.opcode ∈ [Opcode.PUSHDATA1, .PUSHDATA2, .PUSHDATA4])
    (data : push.operand = TwosComplement.encode value) (opcode : convert.opcode = .CONVERT)
    (kind : convert.operand = [ItemKind.integer.code]) : IntegerForm value [push, convert]

/-- The price of some instructions. -/
def Instruction.totalPrice (instructions : List Instruction) : Nat :=
  (instructions.map fun instruction => instruction.opcode.price).sum

namespace Directive

theorem inRange_iff_of_mem {form : Nat × Opcode} (member : form ∈ integerWidths) {value : Int} :
    InRange form.1 value ↔ width value ≤ form.1 := by
  have positive : ∀ form ∈ integerWidths, 1 ≤ form.1 := by decide
  exact (TwosComplement.width_le_iff (positive form member)).symm

theorem integerWidths_le : ∀ form ∈ integerWidths, form.1 ≤ 32 := by decide

theorem mem_of_counted {opcode : Opcode} {size : Nat} (layout : opcode.layout = .counted size) :
    opcode ∈ [Opcode.PUSHDATA1, .PUSHDATA2, .PUSHDATA4] := by
  cases opcode <;> first | decide | cases layout

/-- Instructions that push a number do it in the form for its range. -/
theorem PushesInteger.form {value : Int} {instructions : List Instruction}
    (pushes : PushesInteger value instructions) : IntegerForm value instructions := by
  cases pushes with
  | small pushed bare => exact .small (Opcode.smallInt?_bounds pushed) pushed
  | fixed large form length pushed narrowest =>
    refine .fixed large form ((inRange_iff_of_mem form).2 ?_) (fun other member inside => ?_)
      length pushed
    · rw [← pushed, ← length]
      exact TwosComplement.width_decode_le _
    · by_contra less
      have enough := (inRange_iff_of_mem member).1 inside
      exact absurd enough (Nat.not_le.2 (narrowest other member (Nat.not_le.1 less)))
  | converted wide pushes pushed opcode kind =>
    obtain ⟨data, size, layout, _⟩ := pushes
    refine .converted (fun other member inside => ?_) (mem_of_counted layout) data opcode kind
    have enough := (inRange_iff_of_mem member).1 inside
    exact absurd (enough.trans (integerWidths_le other member)) (Nat.not_le.2 wide)

/-- One byte is enough from -1 to 16, and for no other number. -/
theorem length_pushInteger_eq_one_iff {value : Int} :
    (pushInteger value).length = 1 ↔ -1 ≤ value ∧ value ≤ 16 := by
  unfold pushInteger
  split
  · rename_i near
    exact iff_of_true rfl near
  · rename_i far
    refine iff_of_false ?_ far
    split
    · rename_i size opcode found
      have positive : ∀ form ∈ integerWidths, form.1 ≠ 0 := by decide
      have some_ := positive _ (List.mem_of_find?_eq_some found)
      rw [List.length_cons, TwosComplement.length_encodeIn]
      omega
    · rw [List.length_append]
      exact fun one => absurd one (by simp)

end Directive

/-- What the opcodes of the small numbers have in common. -/
structure Opcode.PushesSmall (opcode : Opcode) : Prop where
  entry : opcode.standardEntry = .of 0 1 .pushSmall
  layout : opcode.layout = .none
  price : opcode.price = 30

theorem Opcode.pushesSmall_of_smallInt? {opcode : Opcode} {value : Int}
    (number : opcode.smallInt? = some value) : opcode.PushesSmall := by
  cases opcode <;> first
    | exact ⟨rfl, rfl, rfl⟩
    | exact absurd (number.symm.trans rfl : _ = none) nofun

/-- No number costs more than the longest push of bytes and a conversion. -/
theorem IntegerForm.totalPrice_le {value : Int} {instructions : List Instruction}
    (form : IntegerForm value instructions) : Instruction.totalPrice instructions ≤ 190000 := by
  cases form with
  | @small instruction _ number =>
    show instruction.opcode.price ≤ _
    rw [(Opcode.pushesSmall_of_smallInt? number).price]
    decide
  | @fixed instruction size _ form =>
    have cheap : ∀ form ∈ integerWidths, form.2.price ≤ 190000 := by decide
    exact cheap _ form
  | @converted push convert _ counted _ opcode =>
    have cheap : ∀ opcode ∈ [Opcode.PUSHDATA1, .PUSHDATA2, .PUSHDATA4],
        opcode.price + Opcode.CONVERT.price ≤ 190000 := by decide
    show push.opcode.price + convert.opcode.price ≤ _
    rw [opcode]
    exact cheap _ counted

/-! ## Running what has been read back

`Faces` ties the listing to the run: what is read back stands in front of the frame, whatever
follows it. A step that goes on leaves the frame facing the rest. -/

namespace Opcode

variable {opcode : Opcode}

theorem standardEntry_of_integerWidths {size : Nat} (form : (size, opcode) ∈ integerWidths) :
    opcode.standardEntry = .of 0 1 .pushInteger := by
  cases opcode <;> first | rfl | exact absurd form (by simp [integerWidths])

end Opcode

namespace Machine

variable {machine : Machine} {invocation : Invocation} {frame : Frame} {world : World}
  {instruction : Instruction} {others : List Instruction} {code following : Bytes}
  {behaviour : Behaviour} {stackIn stackOut : Nat}

/-- A frame has come to an instruction with others behind it. -/
structure Faces (machine : Machine) (invocation : Invocation) (frame : Frame)
    (instruction : Instruction) (others : List Instruction) (code following : Bytes) : Prop where
  poised : machine.Poised invocation frame instruction
  behind : ∃ later, ReadsBack later others ∧ code.length = instruction.size + later.length ∧
    frame.code.drop (frame.pc + instruction.size) = later ++ following

/-- Code that is read back has its first instruction in front, as the table has it. -/
theorem faces_of_readsBack (invocation : Invocation) (standard : machine.table = {})
    (within : frame.RunsWithin machine.config.limits)
    (reads : ReadsBack code (instruction :: others))
    (here : frame.code.drop frame.pc = code ++ following)
    (entry : instruction.opcode.standardEntry = .of stackIn stackOut behaviour)
    (sized : Instruction.operandItemSize instruction.opcode instruction.operand ≤
      machine.config.limits.itemSize)
    (affordable : (instruction.opcode.price : Int) ≤ frame.gas) :
    instruction.behaviour = behaviour ∧
    (∃ itemSize, instruction.demand = { stackIn, stackOut, itemSize }) ∧
    machine.Faces invocation frame instruction others code following := by
  cases reads with
  | @cons opcode written later operand _ read size rest =>
    have ownEntry : opcode.standardEntry = .of stackIn stackOut behaviour := entry
    have demand : (opcode.withOperand operand).demand =
        { stackIn, stackOut, itemSize := Instruction.operandItemSize opcode operand.bytes } := by
      unfold Opcode.withOperand
      rw [ownEntry]
      rfl
    have resolved : (opcode.withOperand operand).resolve (machine.host invocation) frame =
        .ok (opcode.withOperand operand) := by
      unfold Instruction.resolve Opcode.withOperand
      rw [ownEntry]
      rfl
    have split : frame.code.drop frame.pc = opcode.code :: (written ++ (later ++ following)) := by
      rw [here]
      simp
    refine ⟨congrArg Entry.behaviour ownEntry, ⟨_, demand⟩, ?_⟩
    constructor
    case poised =>
      refine ⟨within, instructionAt?_of_code standard split (read _) resolved, ?_, ?_⟩
      · unfold Instruction.fee
        rw [demand]
        exact affordable
      · rw [demand]
        exact ⟨rfl, rfl, rfl, Nat.zero_le _, sized⟩
    case behind =>
      refine ⟨later, rest, ?_, ?_⟩
      · show _ = 1 + operand.size + _
        rw [size, List.length_append, List.length_cons]
        omega
      · show frame.code.drop (frame.pc + (1 + operand.size)) = _
        rw [← List.drop_drop, split, size, Nat.add_comm 1]
        exact List.drop_left

theorem fee_of_demand {itemSize : Nat}
    (demand : instruction.demand = { stackIn, stackOut, itemSize }) :
    instruction.fee = instruction.opcode.price := by
  unfold Instruction.fee
  rw [demand]
  rfl

/-- There is room for one more item with nothing inside. -/
theorem fits_of_room (within : frame.RunsWithin machine.config.limits)
    (room : frame.totalSize + 1 ≤ machine.config.limits.stackSize) {item : Item}
    (flat : item.nestedCount = 0) (size fee : Nat) :
    (frame.advanced size fee (item :: frame.stack)).totalSize ≤
      machine.config.limits.stackSize := by
  have after := within.counted.totalSize_advanced size fee (item :: frame.stack)
  rw [List.length_cons, Item.nestedCountAll_cons] at after
  omega

/-- An instruction that only puts an item on the stack. -/
theorem step_of_push (poised : machine.Poised invocation frame instruction)
    (demand : ∃ itemSize, instruction.demand = { stackIn := 0, stackOut := 1, itemSize })
    {item : Item} (flat : item.nestedCount = 0)
    (room : frame.totalSize + 1 ≤ machine.config.limits.stackSize)
    (ran : instruction.behaviour.run (machine.host invocation) instruction
      (frame.charged instruction) world ⟨[], []⟩ = .ok (.one item world)) :
    machine.step invocation frame world =
      (frame.advanced instruction.size instruction.opcode.price (item :: frame.stack), world) := by
  obtain ⟨itemSize, demand⟩ := demand
  have fits := fits_of_room poised.within room flat instruction.size instruction.fee
  have before : frame.sizeAfter instruction.demand ≤ machine.config.limits.stackSize := by
    unfold Frame.sizeAfter
    rw [demand]
    dsimp only
    omega
  have gives : instruction.behaviour.run (machine.host invocation) instruction
      (frame.charged instruction) world ⟨frame.stack.take instruction.demand.stackIn, []⟩ =
        .ok (.many [item] world) := by
    rw [demand]
    exact ran
  have stepped := poised.step_of_results (by rw [demand]; exact Nat.zero_le _) before gives
    (by rw [demand]; rfl) (by rw [demand]; exact fits)
  rw [demand, fee_of_demand demand] at stepped
  exact stepped

/-- A single instruction that only puts an item on the stack. -/
theorem step_of_single (standard : machine.table = {})
    (within : frame.RunsWithin machine.config.limits) (reads : ReadsBack code [instruction])
    (here : frame.code.drop frame.pc = code ++ following)
    (entry : instruction.opcode.standardEntry = .of 0 1 behaviour)
    (sized : Instruction.operandItemSize instruction.opcode instruction.operand ≤
      machine.config.limits.itemSize)
    (affordable : (instruction.opcode.price : Int) ≤ frame.gas)
    (room : frame.totalSize + 1 ≤ machine.config.limits.stackSize) {item : Item}
    (flat : item.nestedCount = 0)
    (ran : behaviour.run (machine.host invocation) instruction (frame.charged instruction) world
      ⟨[], []⟩ = .ok (.one item world)) :
    machine.step invocation frame world =
      (frame.advanced code.length instruction.opcode.price (item :: frame.stack), world) := by
  obtain ⟨same, demand, faces⟩ :=
    faces_of_readsBack invocation standard within reads here entry sized affordable
  obtain ⟨later, nothing, length, _⟩ := faces.behind
  cases nothing
  rw [← same] at ran
  rw [length]
  exact step_of_push faces.poised demand flat room ran

/-! ## Running the code of a number

There are one or two instructions, so the run is put together of single steps. A conversion reads
the bytes just pushed and fails only if they are too many; that is the one case in which the number
is not left on the stack. -/

/-- What becomes of a frame in as many steps as the code of a number has instructions. -/
structure StepsToInteger (machine : Machine) (invocation : Invocation) (frame : Frame)
    (world : World) (value : Int) (instructions : List Instruction) : Prop where
  /-- The number is on top if it is short enough for an operand or for a conversion. -/
  pushes : width value ≤ 32 ∨ width value ≤ machine.config.limits.integerSize →
    machine.stepFor invocation instructions.length frame world =
      (frame.advanced (pushInteger value).length (Instruction.totalPrice instructions)
        (.integer value :: frame.stack), world)
  /-- Otherwise the conversion fails. -/
  overflows : ¬(width value ≤ 32 ∨ width value ≤ machine.config.limits.integerSize) →
    ∃ passed paid, machine.stepFor invocation instructions.length frame world =
      ((frame.advanced passed paid
        (.byteString (TwosComplement.encode value) :: frame.stack)).stopped Opcode.CONVERT.price
          frame.stack .CONVERT (.integerOverflow machine.config.limits.integerSize), world)
  /-- No contract is called meanwhile. -/
  calm : ∀ taken ≤ instructions.length,
    (machine.stepFor invocation taken frame world).1.pending = frame.pending

theorem stepFor_of_step {after : Frame} {next : World}
    (step : machine.step invocation frame world = (after, next)) (steps : Nat) :
    machine.stepFor invocation (steps + 1) frame world =
      machine.stepFor invocation steps after next := by
  rw [stepFor, step]

/-- One step that puts the number on the stack is all that there is to do. -/
theorem stepsToInteger_of_step {value : Int} (narrow : width value ≤ 32)
    (step : machine.step invocation frame world =
      (frame.advanced (pushInteger value).length instruction.opcode.price
        (.integer value :: frame.stack), world)) :
    machine.StepsToInteger invocation frame world value [instruction] := by
  constructor
  case pushes => exact fun _ => step
  case overflows => exact fun wide => absurd (.inl narrow) wide
  case calm =>
    intro taken few
    match taken with
    | 0 => rfl
    | 1 =>
      show (machine.step invocation frame world).1.pending = _
      rw [step]
      rfl

/-- A conversion reads the bytes that have been pushed. -/
theorem run_convert {host : Host} (kind : instruction.operand = [ItemKind.integer.code])
    (bytes : Bytes) :
    Behaviour.convert.run host instruction frame world ⟨[.byteString bytes], []⟩ =
      ((Item.readInteger host.limits.integerSize bytes).map .integer).map (.one · world) := by
  have wanted : Behaviour.operandKind instruction = .ok .integer := by
    unfold Behaviour.operandKind Instruction.byteOperand
    rw [kind]
    rfl
  unfold Behaviour.run
  dsimp only
  rw [wanted]
  rfl

/-- A conversion of bytes to a number, with nothing behind it. -/
theorem step_of_conversion (standard : machine.table = {})
    (within : frame.RunsWithin machine.config.limits) (reads : ReadsBack code [instruction])
    (here : frame.code.drop frame.pc = code ++ following) (opcode : instruction.opcode = .CONVERT)
    (kind : instruction.operand = [ItemKind.integer.code])
    (affordable : (instruction.opcode.price : Int) ≤ frame.gas) {bytes : Bytes} {rest : List Item}
    (stack : frame.stack = .byteString bytes :: rest) :
    (bytes.length ≤ machine.config.limits.integerSize →
      machine.step invocation frame world =
        (frame.advanced code.length instruction.opcode.price
          (.integer (TwosComplement.decode bytes) :: rest), world)) ∧
    (machine.config.limits.integerSize < bytes.length →
      machine.step invocation frame world =
        (frame.stopped instruction.opcode.price rest instruction.opcode
          (.integerOverflow machine.config.limits.integerSize), world)) := by
  have entry : instruction.opcode.standardEntry = .of 1 1 .convert := by
    rw [opcode]
    rfl
  have sized : Instruction.operandItemSize instruction.opcode instruction.operand ≤
      machine.config.limits.itemSize := by
    rw [opcode]
    exact Nat.zero_le _
  obtain ⟨same, ⟨itemSize, demand⟩, poised, later, nothing, length, _⟩ :=
    faces_of_readsBack invocation standard within reads here entry sized affordable
  cases nothing
  have stackIn : instruction.demand.stackIn = [Item.byteString bytes].length := by rw [demand]; rfl
  have fewer : (instruction.demand.stackOut : Int) + instruction.demand.growth ≤
      instruction.demand.stackIn := by
    rw [demand]
    exact Int.le_refl 1
  have ran : instruction.behaviour.run (machine.host invocation) instruction
      (frame.charged instruction) world ⟨[.byteString bytes], []⟩ =
        ((Item.readInteger machine.config.limits.integerSize bytes).map .integer).map
          (.one · world) := by
    rw [same]
    exact run_convert kind bytes
  rw [length, ← fee_of_demand demand]
  unfold Item.readInteger at ran
  constructor
  · intro short
    rw [if_neg (Nat.not_lt.2 short)] at ran
    exact poised.step_of_exchange stack stackIn fewer ran (by rw [demand]; rfl) (Nat.le_refl 1)
  · intro long
    rw [if_pos long] at ran
    exact poised.step_of_loss stack stackIn fewer ran rfl

theorem stepsToInteger_of_converted {value : Int} {push convert : Instruction}
    (wide : 32 < width value) (counted : push.opcode.standardEntry = .of 0 1 .pushData)
    (data : push.operand = TwosComplement.encode value) (opcode : convert.opcode = .CONVERT)
    (kind : convert.operand = [ItemKind.integer.code]) (standard : machine.table = {})
    (within : frame.RunsWithin machine.config.limits)
    (reads : ReadsBack (pushInteger value) [push, convert])
    (here : frame.code.drop frame.pc = pushInteger value ++ following)
    (affordable : (Instruction.totalPrice [push, convert] : Int) ≤ frame.gas)
    (room : frame.totalSize + 1 ≤ machine.config.limits.stackSize)
    (sized : Instruction.operandItemSize push.opcode push.operand ≤
      machine.config.limits.itemSize) :
    machine.StepsToInteger invocation frame world value [push, convert] := by
  have total : Instruction.totalPrice [push, convert] =
      push.opcode.price + convert.opcode.price := rfl
  rw [total] at affordable
  obtain ⟨same, demand, poised, later, laterReads, length, behind⟩ :=
    faces_of_readsBack invocation standard within reads here counted sized (by omega)
  have pushed : machine.step invocation frame world =
      (frame.advanced push.size push.opcode.price
        (.byteString (TwosComplement.encode value) :: frame.stack), world) := by
    refine step_of_push poised demand rfl room ?_
    rw [same, ← data]
    rfl
  have flat : (Item.byteString (TwosComplement.encode value)).nestedCount = 0 := rfl
  have between := within.advanced
    (fits_of_room within room flat push.size push.opcode.price)
  have payable : (convert.opcode.price : Int) ≤ frame.gas - push.opcode.price := by omega
  have converts : (_ → machine.step invocation _ world = _) ∧ (_ → machine.step _ _ _ = _) :=
    step_of_conversion standard between laterReads behind opcode kind payable rfl
  rw [TwosComplement.decode_encode, TwosComplement.length_encode, Frame.advanced_advanced, ← length]
    at converts
  constructor
  case pushes =>
    intro fits
    show machine.stepFor invocation 2 frame world = _
    rw [stepFor_of_step pushed]
    exact converts.1 (fits.resolve_left (Nat.not_le.2 wide))
  case overflows =>
    intro long
    have failed := converts.2 (Nat.not_le.1 fun short => long (.inr short))
    rw [opcode] at failed
    exact ⟨push.size, push.opcode.price, (stepFor_of_step pushed 1).trans failed⟩
  case calm =>
    intro taken few
    match taken with
    | 0 => rfl
    | 1 =>
      rw [stepFor_of_step pushed]
      rfl
    | 2 =>
      rw [stepFor_of_step pushed]
      show (machine.step _ _ _).1.pending = _
      rcases Nat.lt_or_ge machine.config.limits.integerSize (width value) with long | short
      · rw [converts.2 long]
        rfl
      · rw [converts.1 short]
        rfl

/-- Each form does what it is for. -/
theorem stepsToInteger_of_form {value : Int} {instructions : List Instruction}
    (form : IntegerForm value instructions) (standard : machine.table = {})
    (within : frame.RunsWithin machine.config.limits)
    (reads : ReadsBack (pushInteger value) instructions)
    (here : frame.code.drop frame.pc = pushInteger value ++ following)
    (affordable : (Instruction.totalPrice instructions : Int) ≤ frame.gas)
    (room : frame.totalSize + 1 ≤ machine.config.limits.stackSize)
    (sized : width value ≤ machine.config.limits.itemSize) :
    machine.StepsToInteger invocation frame world value instructions := by
  cases form with
  | @small instruction near number =>
    have inside : InRange 1 value := ⟨by norm_num; omega, by norm_num; omega⟩
    have narrow := (TwosComplement.width_le_iff (by decide)).2 inside
    have unsized : Instruction.operandItemSize instruction.opcode instruction.operand = 0 := by
      unfold Instruction.operandItemSize
      rw [(Opcode.pushesSmall_of_smallInt? number).layout]
    refine stepsToInteger_of_step (by omega) (step_of_single standard within reads here
      (Opcode.pushesSmall_of_smallInt? number).entry (by omega) affordable room rfl ?_)
    show (Behaviour.smallInteger instruction.opcode).map _ = _
    unfold Behaviour.smallInteger
    rw [number]
    rfl
  | @fixed instruction size far form inside narrowest length number =>
    have enough := (Directive.inRange_iff_of_mem form).1 inside
    have unsized : Instruction.operandItemSize instruction.opcode instruction.operand = 0 := by
      unfold Instruction.operandItemSize
      rw [Directive.layout_of_mem_integerWidths _ form]
    have narrow := enough.trans (Directive.integerWidths_le _ form)
    refine stepsToInteger_of_step narrow (step_of_single standard within reads here
      (Opcode.standardEntry_of_integerWidths form) (by omega) affordable room rfl ?_)
    rw [← number]
    rfl
  | @converted push convert wide counted data opcode kind =>
    have widest : 32 < width value := by
      have outside := wide (32, .PUSHINT256) (by decide)
      rw [Directive.inRange_iff_of_mem (by decide)] at outside
      exact Nat.not_le.1 outside
    have entry : push.opcode.standardEntry = .of 0 1 .pushData ∧
        Instruction.operandItemSize push.opcode push.operand = push.operand.length := by
      unfold Instruction.operandItemSize
      generalize push.opcode = other at counted
      simp only [List.mem_cons, List.not_mem_nil, or_false] at counted
      rcases counted with rfl | rfl | rfl <;> exact ⟨rfl, rfl⟩
    have length : push.operand.length = width value := by
      rw [data, TwosComplement.length_encode]
    exact stepsToInteger_of_converted widest entry.1 data opcode kind standard within reads here
      affordable room (by omega)

/-- What becomes of a frame that has come to the code of a number. -/
structure LeavesInteger (machine : Machine) (invocation : Invocation) (frame : Frame)
    (world : World) (value : Int) (instructions : List Instruction) : Prop
    extends StepsToInteger machine invocation frame world value instructions where
  /-- If nothing follows, the run ends with the number on top. -/
  ends : width value ≤ 32 ∨ width value ≤ machine.config.limits.integerSize →
    frame.pending = none → frame.code.drop frame.pc = pushInteger value →
      machine.runFrame invocation frame world =
        ((frame.advanced (pushInteger value).length (Instruction.totalPrice instructions)
          (.integer value :: frame.stack)).halt, world)
  /-- Whatever follows, a run with a conversion that fails ends there. -/
  faults : ¬(width value ≤ 32 ∨ width value ≤ machine.config.limits.integerSize) →
    frame.pending = none → machine.runFrame invocation frame world =
      machine.stepFor invocation instructions.length frame world

theorem StepsToInteger.leaves {value : Int} {instructions : List Instruction}
    (steps : machine.StepsToInteger invocation frame world value instructions)
    (running : frame.isRunning = true) :
    machine.LeavesInteger invocation frame world value instructions := by
  refine ⟨steps, fun fits quiet here => ?_, fun long quiet => ?_⟩
  · have whole := runFrame_stepFor instructions.length fun taken few =>
      (steps.calm taken few).trans quiet
    rw [steps.pushes fits] at whole
    have atEnd : frame.code.drop (frame.pc + (pushInteger value).length) = [] := by
      rw [← List.drop_drop, here, List.drop_length]
    -- The frame that has the number is looked at as a whole.
    generalize same : frame.advanced (pushInteger value).length
      (Instruction.totalPrice instructions) (.integer value :: frame.stack) = after at whole ⊢
    have goesOn : after.isRunning = true := by rw [← same]; exact running
    have calm : after.halt.pending = none := by rw [← same]; exact quiet
    have halts : machine.step invocation after world = (after.halt, world) :=
      step_of_end machine invocation world goesOn (by rw [← same]; exact atEnd)
    rw [← whole, runFrame_of_calm goesOn halts (.inl calm),
      Frame.settled_of_pending_eq_none calm]
    exact runFrame_of_ended rfl
  · have whole := runFrame_stepFor instructions.length fun taken few =>
      (steps.calm taken few).trans quiet
    obtain ⟨passed, paid, stopped⟩ := steps.overflows long
    rw [stopped] at whole ⊢
    rw [← whole]
    exact runFrame_of_ended rfl

/-- The code of a number has the form for its range, and where there is gas and room for it, it
leaves the number on the stack. -/
theorem leavesInteger (value : Int) (short : (TwosComplement.encode value).length < 2 ^ 32) :
    ((pushInteger value).length = 1 ↔ -1 ≤ value ∧ value ≤ 16) ∧
    ∃ instructions, IntegerForm value instructions ∧
      ReadsBack (pushInteger value) instructions ∧
      ∀ (machine : Machine) (invocation : Invocation) (frame : Frame) (world : World)
        (following : Bytes), machine.table = {} → frame.RunsWithin machine.config.limits →
          frame.code.drop frame.pc = pushInteger value ++ following →
          (Instruction.totalPrice instructions : Int) ≤ frame.gas →
          frame.totalSize + 1 ≤ machine.config.limits.stackSize →
          (TwosComplement.encode value).length ≤ machine.config.limits.itemSize →
            machine.LeavesInteger invocation frame world value instructions := by
  obtain ⟨instructions, pushes, reads⟩ := Directive.readsBack_pushInteger short
  refine ⟨Directive.length_pushInteger_eq_one_iff, instructions, pushes.form, reads, ?_⟩
  intro machine invocation frame world following standard within here affordable room sized
  rw [TwosComplement.length_encode] at sized
  exact (stepsToInteger_of_form pushes.form standard within reads here affordable room sized).leaves
    within.running

/-- A frame that is about to push the smallest number that no operand holds. -/
def wideFrame : Frame :=
  Launch.start
    { code := pushInteger (2 ^ 256)
      gas := 190000
      depth := 1
      entry := Hash.zero
      calling := none }

/-- The number has 33 bytes: it is left on the stack where numbers may have as many, and overflows
where they may have 32. -/
theorem leavesInteger_wide :
    let roomy : Machine := standard { limits := { integerSize := 33 } }
    let tight : Machine := standard { limits := { integerSize := 32 } }
    ((TwosComplement.encode (2 ^ 256)).length = 33 ∧
      wideFrame.RunsWithin roomy.config.limits ∧ wideFrame.RunsWithin tight.config.limits) ∧
    (roomy.runFrame {} wideFrame {}).1.stack = [.integer (2 ^ 256)] ∧
    ∃ position, (tight.runFrame {} wideFrame {}).1.status =
      .faulted ⟨.integerOverflow 32, position, some .CONVERT⟩ := by
  have bytes : (TwosComplement.encode (2 ^ 256)).length = 33 := by decide +kernel
  obtain ⟨_, instructions, form, _, leaves⟩ := leavesInteger (2 ^ 256) (by rw [bytes]; decide)
  have here : wideFrame.code.drop wideFrame.pc = pushInteger (2 ^ 256) ++ [] :=
    (List.append_nil _).symm
  have affordable : (Instruction.totalPrice instructions : Int) ≤ wideFrame.gas :=
    Int.ofNat_le.2 form.totalPrice_le
  have inRoomy : wideFrame.RunsWithin { integerSize := 33 } := ⟨rfl, rfl, by decide, by decide⟩
  have inTight : wideFrame.RunsWithin { integerSize := 32 } := ⟨rfl, rfl, by decide, by decide⟩
  have goes := leaves (standard { limits := { integerSize := 33 } }) {} wideFrame {} [] rfl inRoomy
    here affordable (by decide) (by rw [bytes]; decide)
  have stops := leaves (standard { limits := { integerSize := 32 } }) {} wideFrame {} [] rfl inTight
    here affordable (by decide) (by rw [bytes]; decide)
  rw [TwosComplement.length_encode] at bytes
  refine ⟨⟨by rw [TwosComplement.length_encode, bytes], inRoomy, inTight⟩, ?_, ?_⟩
  · rw [goes.ends (.inr (Nat.le_of_eq bytes)) rfl rfl]
    rfl
  · have long : ¬(width (2 ^ 256) ≤ 32 ∨ width (2 ^ 256) ≤ 32) := by rw [bytes]; decide
    obtain ⟨passed, paid, stopped⟩ := stops.overflows long
    rw [stops.faults long rfl, stopped]
    exact ⟨_, rfl⟩

end Machine

end GasMachine
