import GasMachine.Bytes.TwosComplement
import GasMachine.Json.Reading

/-!
# Configuration

The ceilings of the machine and the gas that is given away before anything is charged to the
caller. In JSON every field may be left out; what has been read is then checked, so that a loaded
configuration has positive ceilings and an allowance that is not negative.
-/

set_option autoImplicit false

namespace GasMachine

structure Limits where
  /-- Items on the stacks of all frames, nested items included. -/
  stackSize : Nat := 2048
  invocationDepth : Nat := 1024
  arraySize : Nat := 1024
  /-- Bytes of a byte string or buffer. -/
  itemSize : Nat := 1024 * 1024
  /-- Bytes of an integer in its shortest form. -/
  integerSize : Nat := 32
  mapKeySize : Nat := 64
deriving DecidableEq, Inhabited

namespace Limits

/-- The ceilings with their names, in the order in which they are written and checked. -/
def fields (limits : Limits) : List (String × Nat) :=
  [("max_stack_size", limits.stackSize), ("max_invocation_depth", limits.invocationDepth),
   ("max_array_size", limits.arraySize), ("max_item_size", limits.itemSize),
   ("max_integer_size", limits.integerSize), ("max_map_key_size", limits.mapKeySize)]

def reading : Json.Reading Limits :=
  Json.Reading.record ((fields {}).map Prod.fst) fun budget given => do
    let field (name : String) (default : Nat) :=
      given.withDefault budget name Json.Reading.word default
    let standard : Limits := {}
    return {
      stackSize := ← field "max_stack_size" standard.stackSize
      invocationDepth := ← field "max_invocation_depth" standard.invocationDepth
      arraySize := ← field "max_array_size" standard.arraySize
      itemSize := ← field "max_item_size" standard.itemSize
      integerSize := ← field "max_integer_size" standard.integerSize
      mapKeySize := ← field "max_map_key_size" standard.mapKeySize }

def toJson (limits : Limits) : Json :=
  .object (limits.fields.map fun (name, value) => (name, .int value))

end Limits

structure Config where
  limits : Limits := {}
  /-- Gas that a chain may use before its caller pays. -/
  freeGas : Int := 0
deriving DecidableEq, Inhabited

namespace Config

/-- The gas usually given away to chains that users start. -/
def freeAllowance : Nat := 1_000_000_000

def withFreeAllowance : Config := { freeGas := freeAllowance }

inductive Invalid where
  | zeroLimit (name : String)
  | negativeFreeGas (freeGas : Int)
deriving DecidableEq

def Invalid.message : Invalid → String
  | .zeroLimit name => s!"invalid config: {name} must be positive"
  | .negativeFreeGas freeGas => s!"invalid config: free_gas must not be negative, got {freeGas}"

/-- Check a configuration; the first zero ceiling is reported, and only then the free gas. -/
def validate (config : Config) : Except Invalid Unit :=
  match config.limits.fields.find? fun (_, value) => value == 0 with
  | some (name, _) => .error (.zeroLimit name)
  | none => if config.freeGas < 0 then .error (.negativeFreeGas config.freeGas) else .ok ()

def reading : Json.Reading Config :=
  Json.Reading.record ["limits", "free_gas"] fun budget given => do
    let limits ← given.withDefault budget "limits" Limits.reading {}
    let freeGas ← given.withDefault budget "free_gas" Json.Reading.signedWord 0
    return { limits, freeGas }

def toJson (config : Config) : Json :=
  .object [("limits", config.limits.toJson), ("free_gas", .int config.freeGas)]

inductive LoadError where
  | notJson
  | invalid (cause : Invalid)
deriving DecidableEq

def load (text : String) : Except LoadError Config :=
  match reading.ofText? text with
  | none => .error .notJson
  | some config =>
    match config.validate with
    | .error cause => .error (.invalid cause)
    | .ok () => .ok config

end Config

end GasMachine
