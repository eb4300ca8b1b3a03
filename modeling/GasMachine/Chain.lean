import GasMachine.Execution
import GasMachine.Metrics

/-!
# Chains

A chain is a list of scripts that run one after the other. Each starts with the stacks that the
one before left, and with the gas it did not use. Writes are held back in a layer over the caller's
snapshot and handed on only if every script halts. The receipt says how it ended, what is on the
stacks, and what it cost; events are in it only if the chain halted.
-/

set_option autoImplicit false

namespace GasMachine

open TwosComplement (signedMax signedMin)

structure Script where
  code : Bytes
  offset : Nat := 0

def Script.hash (script : Script) : ScriptHash := scriptHash script.code

/-! ## Receipts -/

/-- What the caller of a chain gets to know. -/
structure Receipt where
  fault : Option FaultRecord := none
  /-- The stack, top first. -/
  stack : List Parameter := []
  alt : List Parameter := []
  /-- The gas charged to the caller. -/
  gasConsumed : Int := 0
  /-- The gas used, the free allowance included. -/
  gasCost : Int := 0
  notifications : List Notification := []
  logs : List LogEntry := []

namespace Receipt

/-- Whether every script halted and the writes reached the snapshot. -/
def isHalt (receipt : Receipt) : Bool := receipt.fault.isNone

def stateName (receipt : Receipt) : String := if receipt.isHalt then "HALT" else "FAULT"

def errorMessage (receipt : Receipt) : Option String := receipt.fault.map FaultRecord.message

end Receipt

/-! ## Scripts in a row -/

/-- How far a chain has come. -/
structure Progress where
  gas : Int
  calling : Option ScriptHash := none
  residue : Residue := {}
  world : World
  fault : Option FaultRecord := none
  scripts : Nat := 0
  steps : Nat := 0

namespace Progress

/-- The launch of the next script. Scripts that are still to come count as depth. -/
def launch (progress : Progress) (entry : ScriptHash) (script : Script) (remaining : Nat) :
    Launch :=
  { code := script.code
    offset := script.offset
    gas := progress.gas
    depth := remaining + 1
    entry
    calling := progress.calling
    residue := progress.residue }

def after (progress : Progress) (execution : Execution) : Progress :=
  { gas := execution.frame.gas
    calling := some execution.frame.script
    residue := execution.frame.toResidue
    world := execution.world
    fault := execution.frame.fault?
    scripts := progress.scripts + execution.scripts
    steps := progress.steps + execution.steps }

/-- Run scripts in a row, up to the first that faults. -/
def runAll (machine : Machine) (invocation : Invocation) (entry : ScriptHash) :
    List Script → Progress → Progress
  | [], progress => progress
  | script :: rest, progress =>
    let launch := progress.launch entry script rest.length
    let execution : Execution := { frame := launch.start, world := progress.world }
    let next := progress.after (execution.run machine invocation)
    if next.fault.isSome then next else runAll machine invocation entry rest next

end Progress

/-! ## Executing a chain -/

/-- A number as far as signed 64-bit words go. -/
def clamp (value : Int) : Int := max signedMin (min value signedMax)

structure Outcome where
  receipt : Receipt
  snapshot : Snapshot
  scripts : Nat := 0
  steps : Nat := 0

/-- Hand the writes of a chain to the snapshot, if no script has faulted. A refusal is a fault that
has no instruction. -/
def Progress.settle (progress : Progress) : Option FaultRecord × Snapshot :=
  match progress.fault with
  | some record => (some record, progress.world.store.base)
  | none =>
    let (store, refusal) := progress.world.store.commit
    (refusal.map fun cause => ⟨.storage cause, 0, none⟩, store.base)

def Machine.executeFrom (machine : Machine) (invocation : Invocation) (snapshot : Snapshot)
    (gas : Int) (first : Script) (rest : List Script) : Outcome :=
  let free := machine.config.freeGas
  let budget := clamp (gas + free)
  let store : LayeredStore := LayeredStore.begin { base := snapshot }
  let progress := Progress.runAll machine invocation first.hash (first :: rest)
    { gas := budget, world := { store } }
  let (fault, snapshot) := progress.settle
  let cost := clamp (budget - progress.gas)
  { snapshot
    scripts := progress.scripts
    steps := progress.steps
    receipt :=
      { fault
        stack := progress.residue.stack.map Item.toParameter
        alt := progress.residue.alt.map Item.toParameter
        gasCost := cost
        gasConsumed := max (clamp (cost - free)) 0
        notifications := if fault.isNone then progress.residue.notifications else []
        logs := if fault.isNone then progress.residue.logs else [] } }

/-- Execute a chain. A chain without scripts halts and costs nothing. -/
def Machine.executeChain (machine : Machine) (invocation : Invocation) (snapshot : Snapshot)
    (gas : Int) : List Script → Outcome
  | [] => { receipt := {}, snapshot }
  | first :: rest => machine.executeFrom invocation snapshot gas first rest

/-! ## Engines -/

structure Engine where
  machine : Machine := {}
  metrics : Metrics := {}

namespace Metrics

def addEnd (metrics : Metrics) (fault : Option FaultRecord) : Metrics :=
  match fault with
  | some record => (metrics.add "faults" 1).addFault record.fault.kind
  | none => metrics.add "halts" 1

end Metrics

namespace Engine

def execute (engine : Engine) (invocation : Invocation) (snapshot : Snapshot) (gas : Int)
    (scripts : List Script) : Engine × Outcome :=
  let outcome := engine.machine.executeChain invocation snapshot gas scripts
  let counted := engine.metrics.add "chains" 1
  let counted :=
    if scripts.isEmpty then counted
    else (counted.addRun outcome.scripts outcome.steps).addGas outcome.receipt.gasConsumed
  ({ engine with metrics := counted.addEnd outcome.receipt.fault }, outcome)

end Engine

end GasMachine
