import GasMachine.Instruction.Behaviour
import GasMachine.Opcode.Price

/-!
# Instruction tables

A table says what the opcodes do. The standard table has an entry for every opcode; a host may
take entries out or put others in. Price and operand layout belong to the opcode and do not change
with its entry.
-/

set_option autoImplicit false

namespace GasMachine

def Opcode.standardEntry : Opcode → Entry
  -- Constants.
  | .PUSHINT8 | .PUSHINT16 | .PUSHINT32 | .PUSHINT64 | .PUSHINT128 | .PUSHINT256 =>
    .of 0 1 .pushInteger
  | .PUSHT => .of 0 1 (.pushBoolean true)
  | .PUSHF => .of 0 1 (.pushBoolean false)
  | .PUSHA => .of 0 1 .pushPointer
  | .PUSHNULL => .of 0 1 .pushNull
  | .PUSHDATA1 | .PUSHDATA2 | .PUSHDATA4 => .of 0 1 .pushData
  | .PUSHM1 | .PUSH0 | .PUSH1 | .PUSH2 | .PUSH3 | .PUSH4 | .PUSH5 | .PUSH6 | .PUSH7 | .PUSH8
  | .PUSH9 | .PUSH10 | .PUSH11 | .PUSH12 | .PUSH13 | .PUSH14 | .PUSH15 | .PUSH16 =>
    .of 0 1 .pushSmall
  -- Flow control.
  | .NOP => .of 0 0 .pass
  | .JMP | .JMP_L => .of 0 0 .jump
  | .JMPIF | .JMPIF_L | .JMPIFNOT | .JMPIFNOT_L => .of 1 0 .jumpIf
  | .JMPEQ | .JMPEQ_L | .JMPNE | .JMPNE_L | .JMPGT | .JMPGT_L | .JMPGE | .JMPGE_L | .JMPLT
  | .JMPLT_L | .JMPLE | .JMPLE_L => .of 2 0 .jumpCompare
  | .CALL | .CALL_L => (Entry.of 0 0 .call).withInvocation 1
  | .CALLA => (Entry.of 1 0 .callPointer).withInvocation 1
  | .ABORT => .of 0 0 .abort
  | .ASSERT => .of 1 0 .assert
  | .THROW => .of 1 0 .throwItem
  | .RET => .of 0 0 .leave
  | .SYSCALL => .of 0 0 .systemCall (some .service)
  -- Evaluation stack.
  | .DEPTH => .of 0 1 .countItems
  | .DROP => .of 1 0 .dropItems
  | .NIP => .of 2 1 .dropSecond
  | .XDROP => .of 1 0 .dropAt (some .dropAt)
  | .CLEAR => .of 0 0 .dropItems (some .clear)
  | .DUP => .of 1 2 .copyTop (some .copyTop)
  | .OVER => .of 2 3 .copySecond (some .copySecond)
  | .PICK => .of 1 1 .copyAt (some .copyAt)
  | .TUCK => .of 2 3 .tuck (some .copyTop)
  | .SWAP => .of 2 2 .swap
  | .ROT => .of 3 3 .rotate
  | .ROLL => .of 1 0 .roll (some .roll)
  | .REVERSE3 => .of 3 3 .reverse
  | .REVERSE4 => .of 4 4 .reverse
  | .REVERSEN => .of 1 0 .reverseCounted (some .reverseCounted)
  -- Alt stack.
  | .DUPFROMALTSTACK =>
    { behaviour := .copyFromAlt, refinement := some .copyFromAlt,
      demand := { stackOut := 1, altIn := 1, altOut := 1 } }
  | .TOALTSTACK => { behaviour := .toAlt, demand := { stackIn := 1, altOut := 1 } }
  | .FROMALTSTACK => { behaviour := .fromAlt, demand := { stackOut := 1, altIn := 1 } }
  -- Byte strings.
  | .NEWBUFFER => .of 1 1 .newBuffer (some .newBuffer)
  | .MEMCPY => .of 5 1 .copyInto
  | .CAT => .of 2 1 .join (some .join)
  | .SUBSTR => .of 3 1 .substring
  | .LEFT => .of 2 1 .left
  | .RIGHT => .of 2 1 .right
  -- Logic and arithmetic.
  | .INVERT | .SIGN | .ABS | .NEGATE | .INC | .DEC => .of 1 1 .unary
  | .AND | .OR | .XOR | .ADD | .SUB | .MUL | .DIV | .MOD | .SHL | .SHR | .MIN | .MAX =>
    .of 2 1 .binary
  | .NUMEQUAL | .NUMNOTEQUAL | .LT | .LE | .GT | .GE => .of 2 1 .compare
  | .EQUAL | .NOTEQUAL => .of 2 1 .equal
  | .NOT => .of 1 1 .not
  | .NZ => .of 1 1 .nonZero
  | .BOOLAND | .BOOLOR => .of 2 1 .booleanBinary
  | .WITHIN => .of 3 1 .within
  -- Compound items.
  | .PACK => .of 1 1 .pack (some .pack)
  | .UNPACK => .of 1 1 .unpack (some .unpack)
  | .NEWARRAY0 | .NEWSTRUCT0 | .NEWMAP => .of 0 1 .newEmpty
  | .NEWARRAY | .NEWARRAY_T | .NEWSTRUCT => .of 1 1 .newSized (some .newSized)
  | .SIZE => .of 1 1 .size
  | .HASKEY => .of 2 1 .hasKey
  | .KEYS => .of 1 1 .keys
  | .VALUES => .of 1 1 .values
  | .PICKITEM => .of 2 1 .pickItem
  | .APPEND =>
    { behaviour := .append, refinement := some .append,
      demand := { stackIn := 2, stackOut := 1, growth := 1 } }
  | .SETITEM => .of 3 1 .setItem (some .setItem)
  | .REVERSEITEMS => .of 1 1 .reverseItems
  | .REMOVE => .of 2 1 .removeItem
  | .CLEARITEMS => .of 1 1 .clearItems
  -- Kinds.
  | .ISNULL => .of 1 1 .isNull
  | .ISTYPE => .of 1 1 .isKind
  | .CONVERT => .of 1 1 .convert

structure InstructionTable where
  find? : Opcode → Option Entry := fun opcode => some opcode.standardEntry

namespace InstructionTable

def empty : InstructionTable := ⟨fun _ => none⟩

/-- Put in an entry, in place of one that is there. -/
def insert (table : InstructionTable) (opcode : Opcode) (entry : Entry) : InstructionTable :=
  ⟨fun other => if other = opcode then some entry else table.find? other⟩

def erase (table : InstructionTable) (opcode : Opcode) : InstructionTable :=
  ⟨fun other => if other = opcode then none else table.find? other⟩

def size (table : InstructionTable) : Nat :=
  Opcode.all.countP fun opcode => (table.find? opcode).isSome

@[simp] theorem find?_insert (table : InstructionTable) (opcode other : Opcode) (entry : Entry) :
    (table.insert opcode entry).find? other =
      if other = opcode then some entry else table.find? other := rfl

@[simp] theorem find?_erase (table : InstructionTable) (opcode other : Opcode) :
    (table.erase opcode).find? other = if other = opcode then none else table.find? other := rfl

end InstructionTable

end GasMachine
