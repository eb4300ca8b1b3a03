import GasMachine.Bytes.TwosComplement
import GasMachine.Fault
import GasMachine.Instruction.Table

/-!
# Instructions

An instruction is read from the code at a position: the opcode byte, then an operand as the opcode
lays it out. Reading looks at nothing before the position and at nothing behind the instruction.
-/

set_option autoImplicit false

namespace GasMachine

/-! ## Operands -/

/-- An operand as read, with the number of bytes that were read for it. -/
structure Operand where
  bytes : Bytes
  size : Nat
deriving DecidableEq

def Opcode.Layout.read : Opcode.Layout → Bytes → Except Malformation Operand
  | .none, _ => .ok ⟨[], 0⟩
  | .fixed size, following =>
    if following.length < size then .error (.operandBytes size following.length)
    else .ok ⟨following.take size, size⟩
  | .counted width, following =>
    if following.length < width then .error (.lengthBytes width)
    else
      let declared := Bytes.toNat (following.take width)
      let data := following.drop width
      if data.length < declared then .error (.dataBytes declared data.length)
      else .ok ⟨data.take declared, width + declared⟩

/-! ## Instructions -/

structure Instruction where
  opcode : Opcode
  /-- The operand; of a counted operand, the data without their length. -/
  operand : Bytes
  /-- The number of bytes of the whole instruction. -/
  size : Nat
  demand : Demand
  behaviour : Behaviour
  refinement : Option Refinement

namespace Instruction

def fee (instruction : Instruction) : Nat :=
  instruction.opcode.price + instruction.demand.surcharge

theorem le_fee (instruction : Instruction) : 30 ≤ instruction.fee :=
  Nat.le_trans instruction.opcode.le_price (Nat.le_add_right _ _)

/-- Instructions with a counted operand make an item of its size. -/
def operandItemSize (opcode : Opcode) (operand : Bytes) : Nat :=
  match opcode.layout with
  | .counted _ => operand.length
  | _ => 0

/-- The instruction with a given opcode, of a table, at the front of the bytes that follow. -/
def ofEntry (opcode : Opcode) (entry : Entry) (following : Bytes) : Except Fault Instruction :=
  match opcode.layout.read following with
  | .error reason => .error (.malformedInstruction opcode reason)
  | .ok operand =>
    .ok {
      opcode
      operand := operand.bytes
      size := 1 + operand.size
      demand := { entry.demand with itemSize := operandItemSize opcode operand.bytes }
      behaviour := entry.behaviour
      refinement := entry.refinement }

def read (table : InstructionTable) (byte : UInt8) (following : Bytes) :
    Except Fault Instruction :=
  match Opcode.ofByte? byte with
  | none => .error (.invalidOpcode byte)
  | some opcode =>
    match table.find? opcode with
    | none => .error (.invalidOpcode byte)
    | some entry => ofEntry opcode entry following

/-! ## The operand as a number -/

/-- The operand as a signed number. Operands of one, two or four bytes have a sign; of others the
first eight bytes make a signed 64-bit word. -/
def signedOperand (instruction : Instruction) : Int :=
  match instruction.operand.length with
  | 1 | 2 | 4 => TwosComplement.decode instruction.operand
  | _ => TwosComplement.signed (Bytes.toNat (instruction.operand.take 8))

def wordOperand (instruction : Instruction) : Except Fault Nat :=
  if instruction.operand.length = 4 then .ok (Bytes.toNat instruction.operand)
  else
    .error (.malformedInstruction instruction.opcode (.operandBytes 4 instruction.operand.length))

def byteOperand (instruction : Instruction) : Except Fault UInt8 :=
  match instruction.operand with
  | byte :: _ => .ok byte
  | [] => .error (.malformedInstruction instruction.opcode .missingOperand)

def summary (instruction : Instruction) : String :=
  s!"Op \x7b opcode: {instruction.opcode}, size: {instruction.size}, "
    ++ s!"stack_in: {instruction.demand.stackIn}, stack_out: {instruction.demand.stackOut}, "
    ++ s!"fee: {instruction.fee} \x7d"

end Instruction

/-! ## Listings -/

structure ListingLine where
  position : Nat
  content : Except Fault Instruction

/-- Read instruction after instruction up to the end of the code or to the first that cannot be
read. The fuel is the number of bytes that are left. -/
def listFrom (table : InstructionTable) : Nat → Nat → Bytes → List ListingLine
  | 0, _, _ => []
  | _, _, [] => []
  | fuel + 1, position, byte :: following =>
    match Instruction.read table byte following with
    | .error fault => [⟨position, .error fault⟩]
    | .ok instruction =>
      ⟨position, .ok instruction⟩ ::
        listFrom table fuel (position + instruction.size) (following.drop (instruction.size - 1))

def listing (table : InstructionTable) (code : Bytes) : List ListingLine :=
  listFrom table code.length 0 code

end GasMachine
