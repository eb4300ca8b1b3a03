import GasMachine.Chain
import GasMachine.Text.Quoted

/-!
# Fixtures

A fixture is a chain with the outcome it should have, in JSON. It is run on an empty snapshot with
a machine of its own. What the expected outcome leaves out is not checked; the first thing that
differs is reported.
-/

set_option autoImplicit false

namespace GasMachine

/-! ## Contents -/

structure Expected where
  /-- The name of the outcome, in any case. -/
  state : String
  /-- The stack in JSON, top first. -/
  stack : Option Json := none
  gasConsumed : Option Int := none
  gasCost : Option Int := none
  errorContains : Option String := none

structure Fixture where
  scripts : List Bytes
  gas : Int
  freeGas : Option Int := none
  trigger : Option Trigger := none
  limits : Option Limits := none
  expected : Expected

/-! ## Reading -/

open Json (Reading)

/-- Bytes in JSON: a text of hexadecimal digits, with or without a leading `0x`. -/
def Bytes.reading : Reading Bytes := fun budget doc => do
  (Hex.decode (Hex.dropMarker (← Reading.text budget doc))).toOption

/-- A field that may be left out or `null`. -/
def Json.Reading.Fields.optional {α : Type} (given : Reading.Fields) (budget : Nat)
    (name : String) (value : Reading α) : Option (Option α) :=
  given.withDefault budget name (Reading.nullable value) none

def Expected.reading : Reading Expected :=
  Reading.record ["state", "stack", "gas_consumed", "gas_cost", "error_contains"]
    fun budget given => do
      return {
        state := ← given.required budget "state" Reading.text
        stack := ← given.optional budget "stack" Reading.json
        gasConsumed := ← given.optional budget "gas_consumed" Reading.signedWord
        gasCost := ← given.optional budget "gas_cost" Reading.signedWord
        errorContains := ← given.optional budget "error_contains" Reading.text }

def Fixture.reading : Reading Fixture :=
  Reading.record ["scripts", "gas", "free_gas", "trigger", "limits", "expected"]
    fun budget given => do
      return {
        scripts := ← given.required budget "scripts" (Reading.list Bytes.reading)
        gas := ← given.required budget "gas" Reading.signedWord
        freeGas := ← given.optional budget "free_gas" Reading.signedWord
        trigger := ← given.optional budget "trigger" Trigger.reading
        limits := ← given.optional budget "limits" Limits.reading
        expected := ← given.required budget "expected" Expected.reading }

namespace Fixture

/-! ## Running -/

inductive Mismatch where
  | state (expected actual : String) (problem : Option String)
  | gasConsumed (expected actual : Int)
  | gasCost (expected actual : Int)
  | stack (expected actual : Json)
  | error (message fragment : String)

def Mismatch.message : Mismatch → String
  | .state expected actual problem =>
    s!"state mismatch: expected {expected}, got {actual} ("
      ++ problem.getD "no error" ++ ")"
  | .gasConsumed expected actual => s!"gas consumed mismatch: expected {expected}, got {actual}"
  | .gasCost expected actual => s!"gas cost mismatch: expected {expected}, got {actual}"
  | .stack expected actual =>
    s!"stack mismatch: expected {expected.compact}, got {actual.compact}"
  | .error message fragment =>
    s!"error message {Quoted.string message} does not contain {Quoted.string fragment}"

inductive Failure where
  | config (cause : Config.Invalid)
  | mismatch (difference : Mismatch)

def Failure.message (name : String) : Failure → String
  | .config cause => s!"Parse error: {name}: {cause.message}"
  | .mismatch difference => s!"Assertion failed: {name}: {difference.message}"

/-- Texts are the same but for the case of ASCII letters. -/
def sameName (a b : String) : Bool :=
  a.toList.map Char.toLower == b.toList.map Char.toLower

/-- Whether characters occur in a row among others. -/
def occursIn (fragment : List Char) : List Char → Bool
  | [] => fragment.isEmpty
  | c :: rest => fragment.isPrefixOf (c :: rest) || occursIn fragment rest

def checkGas (expected : Option Int) (actual : Int) (difference : Int → Int → Mismatch) :
    Except Failure Unit :=
  match expected with
  | some amount => if actual = amount then .ok () else .error (.mismatch (difference amount actual))
  | none => .ok ()

def checkStack (expected : Option Json) (actual : Json) : Except Failure Unit :=
  match expected with
  | some value =>
    if actual == value then .ok () else .error (.mismatch (.stack value actual))
  | none => .ok ()

def checkError (expected : Option String) (message : String) : Except Failure Unit :=
  match expected with
  | some fragment =>
    if occursIn fragment.toList message.toList then .ok ()
    else .error (.mismatch (.error message fragment))
  | none => .ok ()

def check (expected : Expected) (receipt : Receipt) : Except Failure Unit := do
  if !sameName expected.state receipt.stateName then
    throw (.mismatch (.state expected.state receipt.stateName receipt.errorMessage))
  checkGas expected.gasConsumed receipt.gasConsumed .gasConsumed
  checkGas expected.gasCost receipt.gasCost .gasCost
  checkStack expected.stack (.array (receipt.stack.map Parameter.toJson))
  checkError expected.errorContains (receipt.errorMessage.getD "")

def config (fixture : Fixture) : Config :=
  { limits := fixture.limits.getD {}, freeGas := fixture.freeGas.getD 0 }

def run (fixture : Fixture) : Except Failure Unit := do
  match fixture.config.validate with
  | .error cause => throw (.config cause)
  | .ok () =>
    let machine : Machine := { config := fixture.config }
    let invocation : Invocation := { trigger := fixture.trigger.getD .application }
    let scripts := fixture.scripts.map fun code => { code : Script }
    check fixture.expected (machine.executeChain invocation {} fixture.gas scripts).receipt

end Fixture

end GasMachine
