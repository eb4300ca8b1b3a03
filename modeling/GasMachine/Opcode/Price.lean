import GasMachine.Opcode

/-!
# Prices

Every opcode has a fixed price, charged before the instruction acts. Pushes of byte strings are
priced by the width of their length, not by the bytes pushed. No instruction is free: the cheapest
cost 30, which is what bounds the length of a run.
-/

set_option autoImplicit false

namespace GasMachine.Opcode

/-- The price of an instruction, without the fee of the service that a system call names. -/
def price : Opcode → Nat
  -- Small constants and instructions that do next to nothing.
  | .PUSHINT8 | .PUSHINT16 | .PUSHINT32 | .PUSHINT64 | .PUSHT | .PUSHF | .PUSHNULL | .PUSHM1
  | .PUSH0 | .PUSH1 | .PUSH2 | .PUSH3 | .PUSH4 | .PUSH5 | .PUSH6 | .PUSH7 | .PUSH8 | .PUSH9
  | .PUSH10 | .PUSH11 | .PUSH12 | .PUSH13 | .PUSH14 | .PUSH15 | .PUSH16 | .NOP | .ABORT
  | .ASSERT | .RET | .SYSCALL => 30
  -- Large constants and pointers.
  | .PUSHINT128 | .PUSHINT256 | .PUSHA => 120
  | .PUSHDATA1 => 180
  | .PUSHDATA2 => 13000
  | .PUSHDATA4 => 110000
  -- Jumps.
  | .JMP | .JMP_L | .JMPIF | .JMPIF_L | .JMPIFNOT | .JMPIFNOT_L | .JMPEQ | .JMPEQ_L | .JMPNE
  | .JMPNE_L | .JMPGT | .JMPGT_L | .JMPGE | .JMPGE_L | .JMPLT | .JMPLT_L | .JMPLE
  | .JMPLE_L => 70
  -- Calls and throws.
  | .CALL | .CALL_L | .CALLA | .THROW => 22000
  -- Moves of a fixed number of items.
  | .DEPTH | .DROP | .NIP | .DUP | .OVER | .PICK | .TUCK | .SWAP | .ROT | .REVERSE3 | .REVERSE4
  | .DUPFROMALTSTACK | .TOALTSTACK | .FROMALTSTACK | .ISNULL | .ISTYPE => 60
  -- Moves of any number of items, and empty compound items.
  | .XDROP | .CLEAR | .ROLL | .REVERSEN | .NEWARRAY0 | .NEWSTRUCT0 | .CLEARITEMS => 400
  -- Byte strings.
  | .NEWBUFFER | .MEMCPY | .CAT | .SUBSTR | .LEFT | .RIGHT | .CONVERT => 80000
  -- Arithmetic of one number, of two, and of two with products or shifts.
  | .INVERT | .SIGN | .ABS | .NEGATE | .INC | .DEC | .NOT | .NZ => 100
  | .AND | .OR | .XOR | .EQUAL | .NOTEQUAL | .ADD | .SUB | .BOOLAND | .BOOLOR | .NUMEQUAL
  | .NUMNOTEQUAL | .LT | .LE | .GT | .GE | .MIN | .MAX | .WITHIN | .NEWMAP => 200
  | .MUL | .DIV | .MOD | .SHL | .SHR => 300
  -- Compound items.
  | .PACK | .UNPACK | .VALUES => 7000
  | .NEWARRAY | .NEWARRAY_T | .NEWSTRUCT | .APPEND => 15000
  | .SIZE => 150
  | .HASKEY | .PICKITEM | .SETITEM => 270000
  | .KEYS | .REVERSEITEMS | .REMOVE => 500

theorem le_price (opcode : Opcode) : 30 ≤ opcode.price := by
  cases opcode <;> decide

end GasMachine.Opcode
