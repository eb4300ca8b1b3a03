import GasMachine.Hash
import GasMachine.Json.Reading

/-!
# Invocations

What the caller says about a chain of scripts beside the scripts: why it is run, which block is
being persisted, and which scripts have signed. Services report these things to scripts, and the
trigger decides whether a script may write.
-/

set_option autoImplicit false

namespace GasMachine

/-- Why a chain is run. -/
inductive Trigger where
  | onPersist | postPersist | verification | application
deriving DecidableEq

namespace Trigger

/-- Every trigger, in the order of their codes. -/
def all : List Trigger := [.onPersist, .postPersist, .verification, .application]

/-- The number of a trigger, as scripts see it. -/
def code : Trigger → Nat
  | .onPersist => 0x01
  | .postPersist => 0x02
  | .verification => 0x20
  | .application => 0x40

def name : Trigger → String
  | .onPersist => "OnPersist"
  | .postPersist => "PostPersist"
  | .verification => "Verification"
  | .application => "Application"

def ofName? (name : String) : Option Trigger :=
  all.find? fun trigger => trigger.name == name

def allowsWrites : Trigger → Bool
  | .application => true
  | _ => false

instance : ToString Trigger := ⟨name⟩

/-- A trigger in JSON: its name, alone or as the only member of an object with the value `null`. -/
def reading : Json.Reading Trigger
  | _, .text name => do ofName? (← name.decode?)
  | _ + 1, .object [(name, .null)] => do ofName? (← name.decode?)
  | _, _ => none

def toJson (trigger : Trigger) : Json := .string trigger.name

end Trigger

structure Block where
  index : Nat
  /-- Milliseconds. -/
  timestamp : Nat
  hash : BlockHash

structure Invocation where
  trigger : Trigger := .application
  block : Option Block := none
  /-- The scripts that have signed. -/
  witnesses : List ScriptHash := []

end GasMachine
