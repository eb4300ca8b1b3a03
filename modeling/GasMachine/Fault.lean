import GasMachine.Item
import GasMachine.Opcode
import GasMachine.Service
import GasMachine.Store.Snapshot

/-!
# Faults

Why a script stopped. Every fault is final for the frame that raised it. A fault is a cause; its
message and its short name are functions of the cause, and a record adds the place.
-/

set_option autoImplicit false

namespace GasMachine

/-! ## Causes in detail -/

inductive Malformation where
  | operandBytes (expected found : Nat)
  /-- The length in front of the operand is cut off. -/
  | lengthBytes (width : Nat)
  /-- The operand is cut off. -/
  | dataBytes (declared found : Nat)
  | missingOperand
  /-- The operand stands for no kind that items can be tested for or converted to. -/
  | invalidKind (byte : UInt8)
  /-- The operand stands for no kind. -/
  | unknownKind (byte : UInt8)
deriving DecidableEq

def Malformation.message : Malformation → String
  | .operandBytes expected found => s!"expected {expected} operand bytes, found {found}"
  | .lengthBytes width => s!"expected {width}-byte length prefix"
  | .dataBytes declared found => s!"declared {declared} data bytes, found {found}"
  | .missingOperand => "missing operand"
  | .invalidKind byte => s!"invalid item type 0x{Hex.padded 2 byte.toNat}"
  | .unknownKind byte => s!"unknown item type 0x{Hex.padded 2 byte.toNat}"

/-- The families of instructions whose behaviour asks which of them it is. -/
inductive OperationClass where
  | unary | binary | comparison | comparisonJump | smallInteger
deriving DecidableEq

def OperationClass.description : OperationClass → String
  | .unary => "a unary operation"
  | .binary => "a binary operation"
  | .comparison => "a comparison"
  | .comparisonJump => "a comparison jump"
  | .smallInteger => "a small integer push"

/-- How a behaviour reaches into a list or into bytes. -/
inductive Access where
  | place
  /-- To take an element out and close the gap. -/
  | removal
  /-- To take an element out and leave the others as they may. -/
  | extraction
  | range
deriving DecidableEq

/-- The wording of an access to an index that is not below the size. -/
def Access.message (access : Access) (index size : Nat) : String :=
  match access with
  | .place => s!"index out of bounds: the len is {size} but the index is {index}"
  | .removal => s!"removal index (is {index}) should be < len (is {size})"
  | .extraction => s!"swap_remove index (is {index}) should be < len (is {size})"
  | .range => s!"range end index {index} out of range for slice of length {size}"

/-- How an instruction table and a behaviour can disagree. -/
inductive Defect where
  | argumentCount (expected got : Nat)
  /-- The behaviour gave another number of results than declared, on either stack. -/
  | resultCount (opcode : Opcode) (stack alt declaredStack declaredAlt : Nat)
  | unsuitable (opcode : Opcode) (wanted : OperationClass)
  /-- The behaviour broke off, leaving a text if it left anything readable. -/
  | crash (text : Option String)
  /-- The behaviour broke off because an item would take up more than memory can address. -/
  | capacity
  | outOfRange (access : Access) (index size : Nat)
  | overflow
deriving DecidableEq

def Defect.message : Defect → String
  | .argumentCount expected got => s!"expected {expected} arguments, got {got}"
  | .resultCount opcode stack alt declaredStack declaredAlt =>
    s!"{opcode} produced {stack}/{alt} results, declared {declaredStack}/{declaredAlt}"
  | .unsuitable opcode wanted => s!"{opcode} is not {wanted.description}"
  | .crash text => text.getD "handler panicked"
  | .capacity => "capacity overflow"
  | .outOfRange access index size => access.message index size
  | .overflow => "attempt to add with overflow"

inductive Expectation where
  | kinds (choices : List ItemKind)
  /-- Items with elements or bytes. -/
  | sized
deriving DecidableEq

/-- Names in a row, the last one after "or". -/
def alternatives : List String → String
  | [] => ""
  | [name] => name
  | [name, last] => name ++ " or " ++ last
  | name :: rest => name ++ ", " ++ alternatives rest

def Expectation.description : Expectation → String
  | .kinds choices => alternatives (choices.map ItemKind.name)
  | .sized => "compound or byte item"

/-- What is wrong with an argument of a suitable kind. -/
inductive BadArgument where
  /-- The number does not fit a signed 64-bit word. -/
  | beyondWord (value : Int)
  /-- The number is no count: it is negative or does not fit an unsigned 64-bit word. -/
  | notCount (value : Int)
  | shiftDistance (value : Int) (largest : Nat)
  /-- The number does not fit a byte, with or without sign. -/
  | notByte (value : Int)
  /-- The pointer leads into another script. -/
  | foreignPointer
  | notHash (cause : Hash.Error)
  | longText (size limit : Nat)
  | wrongHandle (typeName : String)
  | longKey (size limit : Nat)
  | emptyContract
  /-- A script cannot hold so many bytes in one push. -/
  | unpushable (size : Nat)
deriving DecidableEq

def BadArgument.message : BadArgument → String
  | .beyondWord value => s!"{value} does not fit in 64 bits"
  | .notCount value => s!"{value} is not a valid count or index"
  | .shiftDistance value largest => s!"shift {value} outside 0..={largest}"
  | .notByte value => s!"{value} is not a byte"
  | .foreignPointer => "pointer belongs to another script"
  | .notHash cause => cause.message
  | .longText size limit => s!"{size} bytes exceeds limit {limit}"
  | .wrongHandle typeName => s!"expected storage context, got {typeName}"
  | .longKey size limit => s!"storage key of {size} bytes exceeds limit {limit}"
  | .emptyContract => "empty contract script"
  | .unpushable size => s!"{size} bytes cannot be pushed"

inductive BadKey where
  | notPrimitive (kind : ItemKind)
  | tooLong (size limit : Nat)
deriving DecidableEq

def BadKey.message : BadKey → String
  | .notPrimitive kind => s!"{kind} is not a primitive"
  | .tooLong size limit => s!"key of {size} bytes exceeds limit {limit}"

/-! ## Faults -/

inductive Fault where
  | invalidOpcode (byte : UInt8)
  | malformedInstruction (opcode : Opcode) (reason : Malformation)
  | stackUnderflow (opcode : Opcode) (required actual : Nat)
  | altStackUnderflow (opcode : Opcode) (required actual : Nat)
  | stackOverflow (size limit : Nat)
  | invocationStackOverflow (depth limit : Nat)
  | arrayOverflow (size limit : Nat)
  | itemOverflow (size limit : Nat)
  | outOfGas (required : Nat) (available : Int)
  /-- The instruction table is at fault, not the script. -/
  | internal (defect : Defect)
  | invalidJump (target : Int)
  | invalidType (expected : Expectation) (found : ItemKind)
  | invalidConversion (source target : ItemKind)
  | integerOverflow (limit : Nat)
  | divisionByZero
  | indexOutOfRange (index : Int) (size : Nat)
  | invalidArgument (reason : BadArgument)
  | keyNotFound
  | invalidMapKey (reason : BadKey)
  | abort
  | assertFailed
  | thrown (message : String)
  | unknownSyscall (id : Nat)
  | triggerNotAllowed (service : Service) (trigger : Trigger)
  | readOnlyContext
  | contractNotFound (hash : ScriptHash)
  | contractExists (hash : ScriptHash)
  | missingPersistingBlock
  | storage (cause : StoreError)
  /-- A called contract faulted: the innermost fault, with its depth and place. -/
  | contractFault (depth : Nat) (cause : Fault) (pc : Nat) (opcode : Option Opcode)
deriving DecidableEq

namespace Fault

def placed (message : String) (pc : Nat) : Option Opcode → String
  | some opcode => s!"{message} (pc={pc}, opcode={opcode})"
  | none => s!"{message} (pc={pc})"

def message : Fault → String
  | .invalidOpcode byte => s!"invalid opcode: 0x{Hex.padded 2 byte.toNat}"
  | .malformedInstruction opcode reason => s!"malformed {opcode} instruction: {reason.message}"
  | .stackUnderflow opcode required actual =>
    s!"stack underflow: {opcode} requires {required} items, found {actual}"
  | .altStackUnderflow opcode required actual =>
    s!"alt stack underflow: {opcode} requires {required} items, found {actual}"
  | .stackOverflow size limit => s!"stack overflow: size {size} exceeds limit {limit}"
  | .invocationStackOverflow depth limit =>
    s!"invocation stack overflow: depth {depth} exceeds limit {limit}"
  | .arrayOverflow size limit => s!"array overflow: {size} elements exceeds limit {limit}"
  | .itemOverflow size limit => s!"item overflow: {size} bytes exceeds limit {limit}"
  | .outOfGas required available =>
    s!"out of gas: required {required}, available {available}"
  | .internal defect => s!"internal error: {defect.message}"
  | .invalidJump target => s!"invalid jump target: {target}"
  | .invalidType expected found =>
    s!"invalid type: expected {expected.description}, found {found}"
  | .invalidConversion source target => s!"cannot convert {source} to {target}"
  | .integerOverflow limit => s!"integer exceeds {limit} bytes"
  | .divisionByZero => "division by zero"
  | .indexOutOfRange index size => s!"index {index} out of range for size {size}"
  | .invalidArgument reason => s!"invalid argument: {reason.message}"
  | .keyNotFound => "key not found"
  | .invalidMapKey reason => s!"invalid map key: {reason.message}"
  | .abort => "execution aborted"
  | .assertFailed => "assertion failed"
  | .thrown message => s!"script threw: {message}"
  | .unknownSyscall id => s!"unknown syscall: 0x{Hex.padded 8 id}"
  | .triggerNotAllowed service trigger =>
    s!"{service.name} is not allowed under trigger {trigger}"
  | .readOnlyContext => "storage context is read-only"
  | .contractNotFound hash => s!"contract not found: {hash}"
  | .contractExists hash => s!"contract already exists: {hash}"
  | .missingPersistingBlock => "no persisting block"
  | .storage cause => s!"storage error: {cause.message}"
  | .contractFault depth cause pc opcode =>
    s!"contract call faulted at depth {depth}: {placed cause.message pc opcode}"

/-- The short name of a fault, under which it is counted. -/
def kind : Fault → String
  | .invalidOpcode _ => "invalid_opcode"
  | .malformedInstruction _ _ => "malformed_instruction"
  | .stackUnderflow _ _ _ => "stack_underflow"
  | .altStackUnderflow _ _ _ => "alt_stack_underflow"
  | .stackOverflow _ _ => "stack_overflow"
  | .invocationStackOverflow _ _ => "invocation_stack_overflow"
  | .arrayOverflow _ _ => "array_overflow"
  | .itemOverflow _ _ => "item_overflow"
  | .outOfGas _ _ => "out_of_gas"
  | .internal _ => "internal"
  | .invalidJump _ => "invalid_jump"
  | .invalidType _ _ => "invalid_type"
  | .invalidConversion _ _ => "invalid_conversion"
  | .integerOverflow _ => "integer_overflow"
  | .divisionByZero => "division_by_zero"
  | .indexOutOfRange _ _ => "index_out_of_range"
  | .invalidArgument _ => "invalid_argument"
  | .keyNotFound => "key_not_found"
  | .invalidMapKey _ => "invalid_map_key"
  | .abort => "abort"
  | .assertFailed => "assert_failed"
  | .thrown _ => "throw"
  | .unknownSyscall _ => "unknown_syscall"
  | .triggerNotAllowed _ _ => "trigger_not_allowed"
  | .readOnlyContext => "read_only_context"
  | .contractNotFound _ => "contract_not_found"
  | .contractExists _ => "contract_exists"
  | .missingPersistingBlock => "missing_persisting_block"
  | .storage _ => "storage"
  | .contractFault _ _ _ _ => "contract_fault"

/-- Whether a fault tells of a behaviour that broke off. -/
def isCrash : Fault → Bool
  | .internal (.crash _) | .internal .capacity | .internal (.outOfRange _ _ _)
  | .internal .overflow => true
  | _ => false

end Fault

structure FaultRecord where
  fault : Fault
  pc : Nat
  opcode : Option Opcode
deriving DecidableEq

namespace FaultRecord

def message (record : FaultRecord) : String :=
  Fault.placed record.fault.message record.pc record.opcode

/-- What the caller of a contract faults with: the innermost fault, whatever lies in between. -/
def asContractFault (record : FaultRecord) (depth : Nat) : Fault :=
  match record.fault with
  | .contractFault innermost cause pc opcode => .contractFault innermost cause pc opcode
  | fault => .contractFault depth fault record.pc record.opcode

end FaultRecord

end GasMachine
