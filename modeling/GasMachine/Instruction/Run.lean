import GasMachine.Instruction.Refine
import GasMachine.Integer.Operation
import GasMachine.Item.Keyed
import GasMachine.Item.Slice
import GasMachine.Service.Run

/-!
# What the instructions do

The behaviours, family by family. Arguments and results are lists with the former or new top
first. A behaviour sees the frame without its arguments; the position is still that of the
instruction.
-/

set_option autoImplicit false

namespace GasMachine.Behaviour

/-! ## Constants -/

/-- The pointer of an instruction: a position of the code, its end excluded. -/
def pointer (instruction : Instruction) (frame : Frame) : Except Fault Item :=
  let position := frame.pc + instruction.signedOperand
  if 0 ≤ position ∧ position < frame.code.length then
    .ok (.pointer frame.script position.toNat)
  else .error (.invalidJump position)

def smallInteger (opcode : Opcode) : Except Fault Item :=
  match opcode.smallInt? with
  | some value => .ok (.integer value)
  | none => .error (.internal (.unsuitable opcode .smallInteger))

/-! ## Flow control -/

def relativeTarget (instruction : Instruction) (frame : Frame) : Except Fault Nat :=
  frame.target (frame.pc + instruction.signedOperand)

def jumpWhen (taken : Bool) (instruction : Instruction) (frame : Frame) : Except Fault Effect :=
  if taken then (relativeTarget instruction frame).map .jump else .ok .none

/-- The truth value under which a conditional jump is taken. -/
def jumpsOn (opcode : Opcode) : Bool := opcode = .JMPIF || opcode = .JMPIF_L

def comparisonHolds (opcode : Opcode) (x y : Int) : Except Fault Bool :=
  match Comparison.ofJump? opcode with
  | some comparison => .ok (comparison.holds x y)
  | none => .error (.internal (.unsuitable opcode .comparisonJump))

/-- The position that a pointer leads to, if it leads into the running script. -/
def pointerTarget (frame : Frame) : Item → Except Fault Nat
  | .pointer script position =>
    if script = frame.script then frame.target (TwosComplement.signed position)
    else .error (.invalidArgument .foreignPointer)
  | item => .error (.invalidType (.kinds [.pointer]) item.kind)

/-- Where the end of a routine leads: behind its call, or to the end of the code if the routine is
the script itself. -/
def leaveEffect (frame : Frame) : Except Fault Effect :=
  match frame.returnStack with
  | address :: _ => (frame.target address).map .leave
  | [] => .ok (.jump frame.code.length)

/-! ## Arithmetic -/

def unaryResult (limit : Nat) (opcode : Opcode) (argument : Item) : Except Fault Item := do
  let x ← argument.toInteger limit
  match UnaryOperation.ofOpcode? opcode with
  | some operation => Item.ofInteger limit (operation.apply x)
  | none => throw (.internal (.unsuitable opcode .unary))

/-- The result of an operation on two numbers, the second one from the top. -/
def binaryResult (limit : Nat) (opcode : Opcode) (second first : Item) : Except Fault Item := do
  let x ← first.toInteger limit
  let y ← second.toInteger limit
  match BinaryOperation.ofOpcode? opcode with
  | some operation => Item.ofInteger limit (← operation.apply x y)
  | none => throw (.internal (.unsuitable opcode .binary))

def comparisonResult (limit : Nat) (opcode : Opcode) (second first : Item) : Except Fault Item := do
  let x ← first.toInteger limit
  let y ← second.toInteger limit
  match Comparison.ofOpcode? opcode with
  | some comparison => return .boolean (comparison.holds x y)
  | none => throw (.internal (.unsuitable opcode .comparison))

/-- Whether a number is inside a range, the upper end excluded. -/
def withinResult (limit : Nat) (upper lower value : Item) : Except Fault Item := do
  let x ← value.toInteger limit
  let low ← lower.toInteger limit
  let high ← upper.toInteger limit
  return .boolean (low ≤ x ∧ x < high)

/-! ## Memory -/

/-- The bytes that an element takes up in a compound item. -/
def elementWidth : Nat := 40

/-- Ask for memory before an item is made. The number of bytes has to be a signed 64-bit word. -/
def reserve (bytes : Nat) : Except Fault Unit :=
  if bytes ≤ TwosComplement.signedMax then .ok () else .error (.internal .capacity)

def zeros (size : Nat) : Except Fault Bytes := do
  reserve size
  return List.replicate size 0

def replicated (size : Nat) (element : Item) : Except Fault (List Item) := do
  reserve (elementWidth * size)
  return List.replicate size element

/-! ## Compound items and kinds -/

def emptyCompound : Opcode → Item
  | .NEWARRAY0 => .array []
  | .NEWSTRUCT0 => .struct []
  | _ => .map []

def sizedCompound (instruction : Instruction) (size : Nat) : Except Fault Item :=
  match instruction.opcode with
  | .NEWSTRUCT => do
    return .struct (← replicated size .null)
  | .NEWARRAY_T => do
    let byte ← instruction.byteOperand
    match ItemKind.ofByte? byte with
    | some kind => return .array (← replicated size (Item.initial kind))
    | none => throw (.malformedInstruction instruction.opcode (.unknownKind byte))
  | _ => do
    return .array (← replicated size .null)

def operandKind (instruction : Instruction) : Except Fault ItemKind := do
  let byte ← instruction.byteOperand
  match ItemKind.ofByte? byte with
  | some .any | none => throw (.malformedInstruction instruction.opcode (.invalidKind byte))
  | some kind => return kind

/-! ## Moves -/

/-- The items below a count, without the count. -/
def belowCount (limit : Nat) (arguments : List Item) : Except Fault (List Item) := do
  let (count, items) ← Arguments.counted arguments
  let _ ← count.toCount limit
  return items

def lastToFront (items : List Item) : List Item :=
  match items.getLast? with
  | some last => last :: items.dropLast
  | none => []

def copyLastToFront (items : List Item) : List Item :=
  items.getLast?.getD .null :: items

/-! ## All behaviours -/

def run (behaviour : Behaviour) (host : Host) (instruction : Instruction) (frame : Frame)
    (world : World) (arguments : Arguments) : Except Fault Results :=
  let limits := host.limits
  let limit := limits.integerSize
  let opcode := instruction.opcode
  let stack := arguments.stack
  let one (item : Item) : Except Fault Results := .ok (.one item world)
  let orFault (result : Except Fault Item) : Except Fault Results := result.map (.one · world)
  let many (items : List Item) : Except Fault Results := .ok (.many items world)
  let nothing : Except Fault Results := .ok (.nothing world)
  let effect (wanted : Except Fault Effect) : Except Fault Results :=
    wanted.map fun effect => { effect, world }
  match behaviour with
  -- Constants.
  | .pushInteger => one (.integer (TwosComplement.decode instruction.operand))
  | .pushBoolean value => one (.boolean value)
  | .pushNull => one .null
  | .pushData => one (.byteString instruction.operand)
  | .pushSmall => orFault (smallInteger opcode)
  | .pushPointer => orFault (pointer instruction frame)
  -- Flow control.
  | .pass => nothing
  | .jump => effect (jumpWhen true instruction frame)
  | .jumpIf => do
    let condition ← Arguments.one stack
    effect (jumpWhen (condition.isTrue == jumpsOn opcode) instruction frame)
  | .jumpCompare => do
    let (second, first) ← Arguments.two stack
    let x ← first.toInteger limit
    let y ← second.toInteger limit
    effect (jumpWhen (← comparisonHolds opcode x y) instruction frame)
  | .call => effect ((relativeTarget instruction frame).map .enter)
  | .callPointer => do
    let item ← Arguments.one stack
    effect ((pointerTarget frame item).map .enter)
  | .abort => .error .abort
  | .assert => do
    let condition ← Arguments.one stack
    if condition.isTrue then nothing else throw .assertFailed
  | .throwItem => do throw (.thrown (← Arguments.one stack).thrownText)
  | .leave => effect (leaveEffect frame)
  | .systemCall => do
    let service ← host.service instruction
    let trigger := host.invocation.trigger
    if service.allows trigger then service.run host frame world stack
    else throw (.triggerNotAllowed service trigger)
  -- Moves.
  | .countItems => one (.integer frame.stack.length)
  | .dropItems => nothing
  | .dropSecond => do
    let (top, _) ← Arguments.two stack
    one top
  | .dropAt => do many (← belowCount limit stack).dropLast
  | .copyTop => do
    let top ← Arguments.one stack
    many [top, top]
  | .copySecond => do
    let (b, a) ← Arguments.two stack
    many [a, b, a]
  | .copyAt => do many (copyLastToFront (← belowCount limit stack))
  | .tuck => do
    let (b, a) ← Arguments.two stack
    many [b, a, b]
  | .swap => do
    let (b, a) ← Arguments.two stack
    many [a, b]
  | .rotate => do
    let (c, b, a) ← Arguments.three stack
    many [a, c, b]
  | .roll => do many (lastToFront (← belowCount limit stack))
  | .reverse => many stack.reverse
  | .reverseCounted => do many (← belowCount limit stack).reverse
  | .copyFromAlt =>
    let item := arguments.alt.headD .null
    .ok { stack := [item], alt := [item], world }
  | .toAlt => do
    let item ← Arguments.one stack
    return { alt := [item], world }
  | .fromAlt => one (arguments.alt.headD .null)
  -- Byte items.
  | .newBuffer => do
    let size ← (← Arguments.one stack).toCount limit
    one (.buffer (← zeros size))
  | .copyInto => do
    let (length, sourceIndex, source, targetIndex, target) ← Arguments.five stack
    orFault (Item.copyInto limit length sourceIndex source targetIndex target)
  | .join => do
    let (second, first) ← Arguments.two stack
    orFault (first.join second)
  | .substring => do
    let (length, index, source) ← Arguments.three stack
    orFault (Item.substring limit length index source)
  | .left => do
    let (length, source) ← Arguments.two stack
    orFault (Item.left limit length source)
  | .right => do
    let (length, source) ← Arguments.two stack
    orFault (Item.right limit length source)
  -- Logic and arithmetic.
  | .unary => do orFault (unaryResult limit opcode (← Arguments.one stack))
  | .binary => do
    let (second, first) ← Arguments.two stack
    orFault (binaryResult limit opcode second first)
  | .compare => do
    let (second, first) ← Arguments.two stack
    orFault (comparisonResult limit opcode second first)
  | .equal => do
    let (second, first) ← Arguments.two stack
    one (.boolean ((first == second) == (opcode == .EQUAL)))
  | .not => do one (.boolean !(← Arguments.one stack).isTrue)
  | .nonZero => do
    let value ← (← Arguments.one stack).toInteger limit
    one (.boolean (value != 0))
  | .booleanBinary => do
    let (second, first) ← Arguments.two stack
    one (.boolean (if opcode = .BOOLAND then first.isTrue && second.isTrue
      else first.isTrue || second.isTrue))
  | .within => do
    let (upper, lower, value) ← Arguments.three stack
    orFault (withinResult limit upper lower value)
  -- Compound items.
  | .pack => do one (.array (← belowCount limit stack))
  | .unpack => do many (← (← Arguments.one stack).unpack)
  | .newEmpty => one (emptyCompound opcode)
  | .newSized => do
    let size ← (← Arguments.one stack).toCount limit
    orFault (sizedCompound instruction size)
  | .size => do
    let item ← Arguments.one stack
    match item.size? with
    | some count => one (.integer count)
    | none => throw (.invalidType .sized item.kind)
  | .hasKey => do
    let (key, item) ← Arguments.two stack
    one (.boolean (← Item.hasKey limits key item))
  | .keys => do orFault (← Arguments.one stack).keys
  | .values => do orFault (← Arguments.one stack).values
  | .pickItem => do
    let (key, item) ← Arguments.two stack
    orFault (Item.pickItem limits key item)
  | .append => do
    let (element, item) ← Arguments.two stack
    orFault (Item.append element item)
  | .setItem => do
    let (value, key, item) ← Arguments.three stack
    orFault (Item.setItem limits key value item)
  | .reverseItems => do orFault (← Arguments.one stack).reverseItems
  | .removeItem => do
    let (key, item) ← Arguments.two stack
    orFault (Item.removeItem limits key item)
  | .clearItems => do orFault (← Arguments.one stack).clearItems
  -- Kinds.
  | .isNull => do one (.boolean (← Arguments.one stack).isNull)
  | .isKind => do
    let kind ← operandKind instruction
    let item ← Arguments.one stack
    one (.boolean (item.kind = kind))
  | .convert => do
    let kind ← operandKind instruction
    orFault ((← Arguments.one stack).convert limit kind)
  -- Behaviours that a host adds.
  | .constant stack alt => .ok { stack, alt, world }
  | .demanding count =>
    if stack.length = count then nothing
    else .error (.internal (.argumentCount count stack.length))
  | .crashing text => .error (.internal (.crash text))

end GasMachine.Behaviour
