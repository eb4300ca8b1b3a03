import GasMachine.Instruction

/-!
# Assembly

Scripts are written as lists of directives. A directive stands for one instruction, or for two if
a number is too long for the fixed pushes. Numbers, byte strings and jumps get the shortest form
that holds them.
-/

set_option autoImplicit false

namespace GasMachine

/-- One line of an assembly. -/
inductive Directive where
  | plain (opcode : Opcode)
  | withOperand (opcode : Opcode) (operand : Bytes)
  | raw (bytes : Bytes)
  /-- A number in four bytes. -/
  | word (value : Nat)
  | integer (value : Int)
  | bytes (data : Bytes)
  | boolean (value : Bool)
  | null
  /-- Jump or call by an offset. -/
  | jump (opcode : Opcode) (offset : Int)
  | syscall (name : String)

namespace Directive

/-! ## Pushes -/

/-- The widths of the pushes of numbers, with their opcodes, smallest first. -/
def integerWidths : List (Nat × Opcode) :=
  [(1, .PUSHINT8), (2, .PUSHINT16), (4, .PUSHINT32), (8, .PUSHINT64), (16, .PUSHINT128),
   (32, .PUSHINT256)]

/-- A push of bytes, with the shortest length field that holds their number. -/
def pushBytes (data : Bytes) : Bytes :=
  if data.length < 2 ^ 8 then Opcode.code .PUSHDATA1 :: (Bytes.ofNat 1 data.length ++ data)
  else if data.length < 2 ^ 16 then Opcode.code .PUSHDATA2 :: (Bytes.ofNat 2 data.length ++ data)
  else Opcode.code .PUSHDATA4 :: (Bytes.ofNat 4 data.length ++ data)

/-- A push of a number: one byte from -1 to 16, the narrowest fixed push otherwise. A number that
fits none of them is pushed as bytes and converted. -/
def pushInteger (value : Int) : Bytes :=
  if -1 ≤ value ∧ value ≤ 16 then [UInt8.ofNat (value + Opcode.PUSH0.code.toNat).toNat]
  else match integerWidths.find? fun (width, _) => TwosComplement.width value ≤ width with
    | some (width, opcode) => opcode.code :: TwosComplement.encodeIn width value
    | none =>
      pushBytes (TwosComplement.encode value) ++ [Opcode.CONVERT.code, ItemKind.integer.code]

/-! ## Jumps -/

/-- A jump or call. A short form becomes the long one if its offset does not fit one byte; any
other opcode gets its offset in four bytes. -/
def jumpBy (opcode : Opcode) (offset : Int) : Bytes :=
  match opcode.longForm? with
  | some long =>
    if -128 ≤ offset ∧ offset ≤ 127 then opcode.code :: TwosComplement.encodeIn 1 offset
    else long.code :: TwosComplement.encodeIn 4 offset
  | none => opcode.code :: TwosComplement.encodeIn 4 offset

/-! ## Directives -/

/-- The bytes of a directive. Only a push of more bytes than a length field can count has none. -/
def encode : Directive → Except Fault Bytes
  | .plain opcode => .ok [opcode.code]
  | .withOperand opcode operand => .ok (opcode.code :: operand)
  | .raw code => .ok code
  | .word value => .ok (Bytes.ofNat 4 value)
  | .integer value => .ok (pushInteger value)
  | .bytes data =>
    if data.length < 2 ^ 32 then .ok (pushBytes data)
    else .error (.invalidArgument (.unpushable data.length))
  | .boolean value => .ok [if value then Opcode.code .PUSHT else Opcode.code .PUSHF]
  | .null => .ok [Opcode.code .PUSHNULL]
  | .jump opcode offset => .ok (jumpBy opcode offset)
  | .syscall name => .ok (Opcode.code .SYSCALL :: Bytes.ofNat 4 (serviceId (Utf8.encode name)))

end Directive

def assemble (directives : List Directive) : Except Fault Bytes := do
  return (← directives.mapM Directive.encode).flatten

end GasMachine
