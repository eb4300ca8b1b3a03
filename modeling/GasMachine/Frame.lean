import GasMachine.Event
import GasMachine.Fault
import Std.Data.ExtTreeSet

/-!
# Frames

A frame is the state of one running script. Its stacks are lists, top first. Items nested inside
others count towards the size of the stacks, so a frame keeps their number; items that wait on the
stacks of suspended callers count too, which is why a frame is told how many they are.

What a frame hands on when it ends (the stacks, the events, the contracts made) is its residue. A
frame about to start is a launch: code, gas, identity and a residue.
-/

set_option autoImplicit false

namespace GasMachine

/-! ## Before and after -/

/-- What a frame hands on to the next. -/
structure Residue where
  /-- The evaluation stack, top first. -/
  stack : List Item := []
  alt : List Item := []
  /-- Items on the stacks of callers. -/
  callerStack : Nat := 0
  callerAlt : Nat := 0
  created : Std.ExtTreeSet ScriptHash := ∅
  /-- Notifications so far, oldest first. -/
  notifications : List Notification := []
  logs : List LogEntry := []

structure Launch where
  code : Bytes
  offset : Nat := 0
  gas : Int
  depth : Nat
  /-- The first script of the chain. -/
  entry : ScriptHash
  /-- The script that called, or that ran before. -/
  calling : Option ScriptHash
  residue : Residue := {}

/-! ## Frames -/

inductive Status where
  | running
  | halted
  | faulted (record : FaultRecord)
deriving DecidableEq

structure Frame extends Residue where
  code : Bytes
  pc : Nat
  /-- Items nested inside the items of both stacks. -/
  nested : Nat
  gas : Int
  depth : Nat
  script : ScriptHash
  entry : ScriptHash
  calling : Option ScriptHash
  /-- Where the open calls inside the script return to, innermost first. -/
  returnStack : List Nat := []
  /-- A called contract that has not started yet. -/
  pending : Option Launch := none
  status : Status := .running

namespace Launch

def start (launch : Launch) : Frame :=
  { launch.residue with
    code := launch.code
    pc := launch.offset
    nested := Item.nestedCountAll launch.residue.stack + Item.nestedCountAll launch.residue.alt
    gas := launch.gas
    depth := launch.depth
    script := scriptHash launch.code
    entry := launch.entry
    calling := launch.calling }

end Launch

namespace Frame

def isRunning (frame : Frame) : Bool := frame.status = .running

def fault? (frame : Frame) : Option FaultRecord :=
  match frame.status with
  | .faulted record => some record
  | _ => none

def peek? (frame : Frame) (place : Nat) : Option Item := frame.stack[place]?

def peekAlt? (frame : Frame) (place : Nat) : Option Item := frame.alt[place]?

/-! ## Size -/

/-- The items of the frame itself, nested ones included. -/
def ownSize (frame : Frame) : Nat := frame.stack.length + frame.alt.length + frame.nested

/-- The items of the frame and of its callers. -/
def totalSize (frame : Frame) : Nat := frame.ownSize + frame.callerStack + frame.callerAlt

/-! ## Ending -/

def halt (frame : Frame) : Frame := { frame with status := .halted }

/-- End a frame with a fault at a position. A behaviour that breaks off leaves no opcode behind. -/
def failAt (frame : Frame) (pc : Nat) (opcode : Option Opcode) (fault : Fault) : Frame :=
  { frame with status := .faulted ⟨fault, pc, if fault.isCrash then none else opcode⟩ }

def fail (frame : Frame) (opcode : Option Opcode) (fault : Fault) : Frame :=
  frame.failAt frame.pc opcode fault

/-! ## Gas and items -/

/-- Pay a fee as far as the gas goes. Gas below zero stays as it is. -/
def pay (frame : Frame) (fee : Nat) : Frame :=
  { frame with gas := frame.gas - min (fee : Int) (max frame.gas 0) }

def pop (frame : Frame) (stackIn altIn : Nat) : Frame :=
  { frame with
    stack := frame.stack.drop stackIn
    alt := frame.alt.drop altIn
    nested := frame.nested - (Item.nestedCountAll (frame.stack.take stackIn)
      + Item.nestedCountAll (frame.alt.take altIn)) }

/-- Put items on both stacks, the first on top. -/
def push (frame : Frame) (stack alt : List Item) : Frame :=
  { frame with
    stack := stack ++ frame.stack
    alt := alt ++ frame.alt
    nested := frame.nested + (Item.nestedCountAll stack + Item.nestedCountAll alt) }

/-! ## Positions -/

/-- A jump target: any position of the code, its end included. -/
def target (frame : Frame) (position : Int) : Except Fault Nat :=
  if 0 ≤ position ∧ position ≤ frame.code.length then .ok position.toNat
  else .error (.invalidJump position)

/-! ## Calls between contracts -/

/-- The launch of a contract called by a frame: it gets the gas, the events and the contracts made
so far, and the frame's items count as items of its callers. -/
def launch (frame : Frame) (code : Bytes) (arguments : List Item) : Launch :=
  { code
    gas := frame.gas
    depth := frame.depth + 1
    entry := frame.entry
    calling := some frame.script
    residue :=
      { stack := arguments
        callerStack := frame.ownSize + frame.callerStack
        callerAlt := frame.callerAlt
        created := frame.created
        notifications := frame.notifications
        logs := frame.logs } }

/-- Go on after a called contract has ended. The gas, the events and the contracts made come back
from it. If it halted, its top item becomes the result of the call; if it faulted, the frame faults
at the call. -/
def resume (caller callee : Frame) (callPc : Nat) : Frame :=
  let back : Frame :=
    { caller with
      gas := callee.gas
      created := callee.created
      notifications := callee.notifications
      logs := callee.logs
      pending := none }
  match callee.fault? with
  | none => back.push [callee.stack.headD .null] []
  | some record =>
    { back with status := .faulted ⟨record.asContractFault callee.depth, callPc, some .SYSCALL⟩ }

end Frame

end GasMachine
