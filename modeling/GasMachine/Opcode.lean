import GasMachine.Bytes

/-!
# The instruction set

An instruction begins with one byte. This file names the bytes that mean something, says how many
operand bytes follow each, and which opcodes are jumps or push a small number. The constructors are
the instruction set's own mnemonics.
-/

set_option autoImplicit false

namespace GasMachine

/-- The opcodes, in the order of their bytes. -/
inductive Opcode where
  -- Constants.
  | PUSHINT8 | PUSHINT16 | PUSHINT32 | PUSHINT64 | PUSHINT128 | PUSHINT256 | PUSHT | PUSHF
  | PUSHA | PUSHNULL | PUSHDATA1 | PUSHDATA2 | PUSHDATA4 | PUSHM1 | PUSH0 | PUSH1 | PUSH2 | PUSH3
  | PUSH4 | PUSH5 | PUSH6 | PUSH7 | PUSH8 | PUSH9 | PUSH10 | PUSH11 | PUSH12 | PUSH13 | PUSH14
  | PUSH15 | PUSH16
  -- Flow control.
  | NOP | JMP | JMP_L | JMPIF | JMPIF_L | JMPIFNOT | JMPIFNOT_L | JMPEQ | JMPEQ_L | JMPNE
  | JMPNE_L | JMPGT | JMPGT_L | JMPGE | JMPGE_L | JMPLT | JMPLT_L | JMPLE | JMPLE_L | CALL
  | CALL_L | CALLA | ABORT | ASSERT | THROW | RET | SYSCALL
  -- Evaluation stack.
  | DEPTH | DROP | NIP | XDROP | CLEAR | DUP | OVER | PICK | TUCK | SWAP | ROT | ROLL | REVERSE3
  | REVERSE4 | REVERSEN
  -- Alt stack.
  | DUPFROMALTSTACK | TOALTSTACK | FROMALTSTACK
  -- Byte strings.
  | NEWBUFFER | MEMCPY | CAT | SUBSTR | LEFT | RIGHT
  -- Bitwise logic and equality.
  | INVERT | AND | OR | XOR | EQUAL | NOTEQUAL
  -- Arithmetic and comparison.
  | SIGN | ABS | NEGATE | INC | DEC | ADD | SUB | MUL | DIV | MOD | SHL | SHR | NOT | BOOLAND
  | BOOLOR | NZ | NUMEQUAL | NUMNOTEQUAL | LT | LE | GT | GE | MIN | MAX | WITHIN
  -- Compound items.
  | PACK | UNPACK | NEWARRAY0 | NEWARRAY | NEWARRAY_T | NEWSTRUCT0 | NEWSTRUCT | NEWMAP | SIZE
  | HASKEY | KEYS | VALUES | PICKITEM | APPEND | SETITEM | REVERSEITEMS | REMOVE | CLEARITEMS
  -- Types.
  | ISNULL | ISTYPE | CONVERT
deriving DecidableEq

namespace Opcode

/-! ## Bytes and names -/

def all : List Opcode :=
  [.PUSHINT8, .PUSHINT16, .PUSHINT32, .PUSHINT64, .PUSHINT128, .PUSHINT256, .PUSHT, .PUSHF,
   .PUSHA, .PUSHNULL, .PUSHDATA1, .PUSHDATA2, .PUSHDATA4, .PUSHM1, .PUSH0, .PUSH1, .PUSH2,
   .PUSH3, .PUSH4, .PUSH5, .PUSH6, .PUSH7, .PUSH8, .PUSH9, .PUSH10, .PUSH11, .PUSH12, .PUSH13,
   .PUSH14, .PUSH15, .PUSH16, .NOP, .JMP, .JMP_L, .JMPIF, .JMPIF_L, .JMPIFNOT, .JMPIFNOT_L,
   .JMPEQ, .JMPEQ_L, .JMPNE, .JMPNE_L, .JMPGT, .JMPGT_L, .JMPGE, .JMPGE_L, .JMPLT, .JMPLT_L,
   .JMPLE, .JMPLE_L, .CALL, .CALL_L, .CALLA, .ABORT, .ASSERT, .THROW, .RET, .SYSCALL, .DEPTH,
   .DROP, .NIP, .XDROP, .CLEAR, .DUP, .OVER, .PICK, .TUCK, .SWAP, .ROT, .ROLL, .REVERSE3,
   .REVERSE4, .REVERSEN, .DUPFROMALTSTACK, .TOALTSTACK, .FROMALTSTACK, .NEWBUFFER, .MEMCPY, .CAT,
   .SUBSTR, .LEFT, .RIGHT, .INVERT, .AND, .OR, .XOR, .EQUAL, .NOTEQUAL, .SIGN, .ABS, .NEGATE,
   .INC, .DEC, .ADD, .SUB, .MUL, .DIV, .MOD, .SHL, .SHR, .NOT, .BOOLAND, .BOOLOR, .NZ, .NUMEQUAL,
   .NUMNOTEQUAL, .LT, .LE, .GT, .GE, .MIN, .MAX, .WITHIN, .PACK, .UNPACK, .NEWARRAY0, .NEWARRAY,
   .NEWARRAY_T, .NEWSTRUCT0, .NEWSTRUCT, .NEWMAP, .SIZE, .HASKEY, .KEYS, .VALUES, .PICKITEM,
   .APPEND, .SETITEM, .REVERSEITEMS, .REMOVE, .CLEARITEMS, .ISNULL, .ISTYPE, .CONVERT]

def code : Opcode → UInt8
  | .PUSHINT8 => 0x00 | .PUSHINT16 => 0x01 | .PUSHINT32 => 0x02 | .PUSHINT64 => 0x03
  | .PUSHINT128 => 0x04 | .PUSHINT256 => 0x05 | .PUSHT => 0x08 | .PUSHF => 0x09 | .PUSHA => 0x0a
  | .PUSHNULL => 0x0b | .PUSHDATA1 => 0x0c | .PUSHDATA2 => 0x0d | .PUSHDATA4 => 0x0e
  | .PUSHM1 => 0x0f | .PUSH0 => 0x10 | .PUSH1 => 0x11 | .PUSH2 => 0x12 | .PUSH3 => 0x13
  | .PUSH4 => 0x14 | .PUSH5 => 0x15 | .PUSH6 => 0x16 | .PUSH7 => 0x17 | .PUSH8 => 0x18
  | .PUSH9 => 0x19 | .PUSH10 => 0x1a | .PUSH11 => 0x1b | .PUSH12 => 0x1c | .PUSH13 => 0x1d
  | .PUSH14 => 0x1e | .PUSH15 => 0x1f | .PUSH16 => 0x20 | .NOP => 0x21 | .JMP => 0x22
  | .JMP_L => 0x23 | .JMPIF => 0x24 | .JMPIF_L => 0x25 | .JMPIFNOT => 0x26 | .JMPIFNOT_L => 0x27
  | .JMPEQ => 0x28 | .JMPEQ_L => 0x29 | .JMPNE => 0x2a | .JMPNE_L => 0x2b | .JMPGT => 0x2c
  | .JMPGT_L => 0x2d | .JMPGE => 0x2e | .JMPGE_L => 0x2f | .JMPLT => 0x30 | .JMPLT_L => 0x31
  | .JMPLE => 0x32 | .JMPLE_L => 0x33 | .CALL => 0x34 | .CALL_L => 0x35 | .CALLA => 0x36
  | .ABORT => 0x38 | .ASSERT => 0x39 | .THROW => 0x3a | .RET => 0x40 | .SYSCALL => 0x41
  | .DEPTH => 0x43 | .DROP => 0x45 | .NIP => 0x46 | .XDROP => 0x48 | .CLEAR => 0x49
  | .DUP => 0x4a | .OVER => 0x4b | .PICK => 0x4d | .TUCK => 0x4e | .SWAP => 0x50 | .ROT => 0x51
  | .ROLL => 0x52 | .REVERSE3 => 0x53 | .REVERSE4 => 0x54 | .REVERSEN => 0x55
  | .DUPFROMALTSTACK => 0x6a | .TOALTSTACK => 0x6b | .FROMALTSTACK => 0x6c | .NEWBUFFER => 0x88
  | .MEMCPY => 0x89 | .CAT => 0x8b | .SUBSTR => 0x8c | .LEFT => 0x8d | .RIGHT => 0x8e
  | .INVERT => 0x90 | .AND => 0x91 | .OR => 0x92 | .XOR => 0x93 | .EQUAL => 0x97
  | .NOTEQUAL => 0x98 | .SIGN => 0x99 | .ABS => 0x9a | .NEGATE => 0x9b | .INC => 0x9c
  | .DEC => 0x9d | .ADD => 0x9e | .SUB => 0x9f | .MUL => 0xa0 | .DIV => 0xa1 | .MOD => 0xa2
  | .SHL => 0xa8 | .SHR => 0xa9 | .NOT => 0xaa | .BOOLAND => 0xab | .BOOLOR => 0xac | .NZ => 0xb1
  | .NUMEQUAL => 0xb3 | .NUMNOTEQUAL => 0xb4 | .LT => 0xb5 | .LE => 0xb6 | .GT => 0xb7
  | .GE => 0xb8 | .MIN => 0xb9 | .MAX => 0xba | .WITHIN => 0xbb | .PACK => 0xc0 | .UNPACK => 0xc1
  | .NEWARRAY0 => 0xc2 | .NEWARRAY => 0xc3 | .NEWARRAY_T => 0xc4 | .NEWSTRUCT0 => 0xc5
  | .NEWSTRUCT => 0xc6 | .NEWMAP => 0xc8 | .SIZE => 0xca | .HASKEY => 0xcb | .KEYS => 0xcc
  | .VALUES => 0xcd | .PICKITEM => 0xce | .APPEND => 0xcf | .SETITEM => 0xd0
  | .REVERSEITEMS => 0xd1 | .REMOVE => 0xd2 | .CLEARITEMS => 0xd3 | .ISNULL => 0xd8
  | .ISTYPE => 0xd9 | .CONVERT => 0xdb

def ofByte? (byte : UInt8) : Option Opcode :=
  all.find? fun opcode => opcode.code == byte

def mnemonic : Opcode → String
  | .PUSHINT8 => "PUSHINT8" | .PUSHINT16 => "PUSHINT16" | .PUSHINT32 => "PUSHINT32"
  | .PUSHINT64 => "PUSHINT64" | .PUSHINT128 => "PUSHINT128" | .PUSHINT256 => "PUSHINT256"
  | .PUSHT => "PUSHT" | .PUSHF => "PUSHF" | .PUSHA => "PUSHA" | .PUSHNULL => "PUSHNULL"
  | .PUSHDATA1 => "PUSHDATA1" | .PUSHDATA2 => "PUSHDATA2" | .PUSHDATA4 => "PUSHDATA4"
  | .PUSHM1 => "PUSHM1" | .PUSH0 => "PUSH0" | .PUSH1 => "PUSH1" | .PUSH2 => "PUSH2"
  | .PUSH3 => "PUSH3" | .PUSH4 => "PUSH4" | .PUSH5 => "PUSH5" | .PUSH6 => "PUSH6"
  | .PUSH7 => "PUSH7" | .PUSH8 => "PUSH8" | .PUSH9 => "PUSH9" | .PUSH10 => "PUSH10"
  | .PUSH11 => "PUSH11" | .PUSH12 => "PUSH12" | .PUSH13 => "PUSH13" | .PUSH14 => "PUSH14"
  | .PUSH15 => "PUSH15" | .PUSH16 => "PUSH16" | .NOP => "NOP" | .JMP => "JMP" | .JMP_L => "JMP_L"
  | .JMPIF => "JMPIF" | .JMPIF_L => "JMPIF_L" | .JMPIFNOT => "JMPIFNOT"
  | .JMPIFNOT_L => "JMPIFNOT_L" | .JMPEQ => "JMPEQ" | .JMPEQ_L => "JMPEQ_L" | .JMPNE => "JMPNE"
  | .JMPNE_L => "JMPNE_L" | .JMPGT => "JMPGT" | .JMPGT_L => "JMPGT_L" | .JMPGE => "JMPGE"
  | .JMPGE_L => "JMPGE_L" | .JMPLT => "JMPLT" | .JMPLT_L => "JMPLT_L" | .JMPLE => "JMPLE"
  | .JMPLE_L => "JMPLE_L" | .CALL => "CALL" | .CALL_L => "CALL_L" | .CALLA => "CALLA"
  | .ABORT => "ABORT" | .ASSERT => "ASSERT" | .THROW => "THROW" | .RET => "RET"
  | .SYSCALL => "SYSCALL" | .DEPTH => "DEPTH" | .DROP => "DROP" | .NIP => "NIP"
  | .XDROP => "XDROP" | .CLEAR => "CLEAR" | .DUP => "DUP" | .OVER => "OVER" | .PICK => "PICK"
  | .TUCK => "TUCK" | .SWAP => "SWAP" | .ROT => "ROT" | .ROLL => "ROLL" | .REVERSE3 => "REVERSE3"
  | .REVERSE4 => "REVERSE4" | .REVERSEN => "REVERSEN" | .DUPFROMALTSTACK => "DUPFROMALTSTACK"
  | .TOALTSTACK => "TOALTSTACK" | .FROMALTSTACK => "FROMALTSTACK" | .NEWBUFFER => "NEWBUFFER"
  | .MEMCPY => "MEMCPY" | .CAT => "CAT" | .SUBSTR => "SUBSTR" | .LEFT => "LEFT"
  | .RIGHT => "RIGHT" | .INVERT => "INVERT" | .AND => "AND" | .OR => "OR" | .XOR => "XOR"
  | .EQUAL => "EQUAL" | .NOTEQUAL => "NOTEQUAL" | .SIGN => "SIGN" | .ABS => "ABS"
  | .NEGATE => "NEGATE" | .INC => "INC" | .DEC => "DEC" | .ADD => "ADD" | .SUB => "SUB"
  | .MUL => "MUL" | .DIV => "DIV" | .MOD => "MOD" | .SHL => "SHL" | .SHR => "SHR" | .NOT => "NOT"
  | .BOOLAND => "BOOLAND" | .BOOLOR => "BOOLOR" | .NZ => "NZ" | .NUMEQUAL => "NUMEQUAL"
  | .NUMNOTEQUAL => "NUMNOTEQUAL" | .LT => "LT" | .LE => "LE" | .GT => "GT" | .GE => "GE"
  | .MIN => "MIN" | .MAX => "MAX" | .WITHIN => "WITHIN" | .PACK => "PACK" | .UNPACK => "UNPACK"
  | .NEWARRAY0 => "NEWARRAY0" | .NEWARRAY => "NEWARRAY" | .NEWARRAY_T => "NEWARRAY_T"
  | .NEWSTRUCT0 => "NEWSTRUCT0" | .NEWSTRUCT => "NEWSTRUCT" | .NEWMAP => "NEWMAP"
  | .SIZE => "SIZE" | .HASKEY => "HASKEY" | .KEYS => "KEYS" | .VALUES => "VALUES"
  | .PICKITEM => "PICKITEM" | .APPEND => "APPEND" | .SETITEM => "SETITEM"
  | .REVERSEITEMS => "REVERSEITEMS" | .REMOVE => "REMOVE" | .CLEARITEMS => "CLEARITEMS"
  | .ISNULL => "ISNULL" | .ISTYPE => "ISTYPE" | .CONVERT => "CONVERT"

instance : ToString Opcode := ⟨mnemonic⟩

def ofMnemonic? (name : String) : Option Opcode :=
  all.find? fun opcode => opcode.mnemonic == name

theorem getElem?_all_ctorIdx (opcode : Opcode) : all[opcode.ctorIdx]? = some opcode := by
  cases opcode <;> rfl

theorem mem_all (opcode : Opcode) : opcode ∈ all :=
  List.mem_of_getElem? (getElem?_all_ctorIdx opcode)

@[simp] theorem ofByte?_code (opcode : Opcode) : ofByte? opcode.code = some opcode :=
  have every : ∀ o ∈ all, ofByte? o.code = some o := by decide +kernel
  every opcode (mem_all opcode)

/-! ## Operands -/

/-- How the operand is written behind the opcode. -/
inductive Layout where
  | none
  | fixed (size : Nat)
  /-- A little-endian length of the given width, then that many bytes. -/
  | counted (width : Nat)
deriving DecidableEq

def layout : Opcode → Layout
  | .PUSHINT8 | .JMP | .JMPIF | .JMPIFNOT | .JMPEQ | .JMPNE | .JMPGT | .JMPGE | .JMPLT | .JMPLE
  | .CALL | .NEWARRAY_T | .ISTYPE | .CONVERT => .fixed 1
  | .PUSHINT16 => .fixed 2
  | .PUSHINT32 | .PUSHA | .JMP_L | .JMPIF_L | .JMPIFNOT_L | .JMPEQ_L | .JMPNE_L | .JMPGT_L
  | .JMPGE_L | .JMPLT_L | .JMPLE_L | .CALL_L | .SYSCALL => .fixed 4
  | .PUSHINT64 => .fixed 8
  | .PUSHINT128 => .fixed 16
  | .PUSHINT256 => .fixed 32
  | .PUSHDATA1 => .counted 1
  | .PUSHDATA2 => .counted 2
  | .PUSHDATA4 => .counted 4
  | _ => .none

/-! ## Classes -/

/-- The number that an opcode pushes by itself: `PUSHM1` to `PUSH16`. -/
def smallInt? (opcode : Opcode) : Option Int :=
  let byte := opcode.code.toNat
  if 0x0f ≤ byte ∧ byte ≤ 0x20 then some ((byte : Int) - 0x10) else Option.none

def isJump (opcode : Opcode) : Bool :=
  let byte := opcode.code.toNat
  0x22 ≤ byte && byte ≤ 0x33

def isLongForm (opcode : Opcode) : Bool :=
  opcode.layout = .fixed 4 && (opcode.isJump || opcode = .CALL_L)

/-- The form of a jump or call that takes its offset in four bytes; the long form of a short one
has the next byte. -/
def longForm? : Opcode → Option Opcode
  | .JMP => some .JMP_L | .JMPIF => some .JMPIF_L | .JMPIFNOT => some .JMPIFNOT_L
  | .JMPEQ => some .JMPEQ_L | .JMPNE => some .JMPNE_L | .JMPGT => some .JMPGT_L
  | .JMPGE => some .JMPGE_L | .JMPLT => some .JMPLT_L | .JMPLE => some .JMPLE_L
  | .CALL => some .CALL_L
  | _ => Option.none

end Opcode

end GasMachine
