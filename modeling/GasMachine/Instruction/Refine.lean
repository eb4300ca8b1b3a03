import GasMachine.Instruction
import GasMachine.Item.Conversion
import GasMachine.Item.OrderedMap
import GasMachine.Machine.Result

/-!
# Resolving demands

Some instructions demand as many items as a count on the stack says, some make items whose size
depends on what is there, and a system call demands what its service demands. All this is worked
out before anything is checked or charged. An argument that is missing or of no use is left alone:
the checks or the behaviour will report it. A system call fails here if it names no service.

Counts are words: what would go beyond the largest word stays there, which is always too much. The
one place where a word is exceeded is a copy from the depth of the stack, whose place is counted
from one: a count of the two largest words breaks it off.
-/

set_option autoImplicit false

namespace GasMachine

open TwosComplement (wordMax signedMax)

/-- A count, as far as words go. -/
def saturate (count : Nat) : Nat := min count wordMax

/-- A number of items as growth, as far as signed words go. -/
def slots (count : Nat) : Int := (min count signedMax : Nat)

/-- The items that a copy adds beside itself. -/
def copyGrowth (item : Option Item) : Int :=
  match item with
  | some item => slots item.nestedCount
  | none => 0

def Host.service (host : Host) (instruction : Instruction) : Except Fault Service := do
  let id ← instruction.wordOperand
  match host.services.find? id with
  | some service => return service
  | none => throw (.unknownSyscall id)

namespace Frame

def peekCount? (frame : Frame) (limits : Limits) (place : Nat) : Option Nat := do
  let item ← frame.peek? place
  match item.toCount limits.integerSize with
  | .ok count => some count
  | .error _ => none

/-- The number of bytes of the item at a place below the top; none if it has no bytes. -/
def peekLength (frame : Frame) (place : Nat) : Nat :=
  ((frame.peek? place).bind Item.byteLength?).getD 0

end Frame

namespace Refinement

def resolve (refinement : Refinement) (host : Host) (frame : Frame) (instruction : Instruction) :
    Except Fault Demand :=
  let demand := instruction.demand
  let counted (refined : Nat → Demand) : Except Fault Demand :=
    .ok (match frame.peekCount? host.limits 0 with
      | some n => refined n
      | none => demand)
  match refinement with
  | .dropAt => counted fun n => { demand with stackIn := saturate (n + 2), stackOut := n }
  | .copyTop => .ok { demand with growth := copyGrowth (frame.peek? 0) }
  | .copySecond => .ok { demand with growth := copyGrowth (frame.peek? 1) }
  | .copyFromAlt => .ok { demand with growth := copyGrowth (frame.peekAlt? 0) }
  | .clear => .ok { demand with stackIn := frame.stack.length }
  | .copyAt =>
    match frame.peekCount? host.limits 0 with
    | some n =>
      if n + 1 < wordMax then
        .ok { demand with
          stackIn := saturate (n + 2)
          stackOut := saturate (n + 2)
          growth := copyGrowth (frame.peek? (n + 1)) }
      else .error (.internal .overflow)
    | none => .ok demand
  | .roll => counted fun n =>
    { demand with stackIn := saturate (n + 2), stackOut := saturate (n + 1) }
  | .reverseCounted => counted fun n =>
    { demand with stackIn := saturate (n + 1), stackOut := n }
  | .newBuffer => counted fun n => { demand with itemSize := n }
  | .join => .ok { demand with itemSize := saturate (frame.peekLength 1 + frame.peekLength 0) }
  | .pack => counted fun n =>
    { demand with stackIn := saturate (n + 1), arraySize := n, growth := slots n }
  | .unpack =>
    .ok (match frame.peek? 0 with
      | some (.array items) | some (.struct items) =>
        { demand with stackOut := items.length + 1, growth := -slots items.length }
      | some (.map entries) =>
        { demand with stackOut := 2 * entries.length + 1, growth := -slots (2 * entries.length) }
      | _ => demand)
  | .newSized => counted fun n => { demand with arraySize := n, growth := slots n }
  | .append =>
    .ok (match (frame.peek? 1).bind Item.elementCount? with
      | some count => { demand with arraySize := count + 1 }
      | none => demand)
  | .setItem =>
    .ok (match frame.peek? 2, frame.peek? 1 with
      | some (.map entries), some key =>
        if ItemMap.contains key entries then demand
        else { demand with arraySize := entries.length + 1, growth := 2 }
      | _, _ => demand)
  | .service => do
    let service ← host.service instruction
    return {
      demand with
      surcharge := demand.surcharge + service.price
      stackIn := service.arity
      stackOut := service.results
      growth := service.growth
      invocation := service.invocation }

end Refinement

def Instruction.resolve (instruction : Instruction) (host : Host) (frame : Frame) :
    Except Fault Instruction :=
  match instruction.refinement with
  | none => .ok instruction
  | some refinement => do
    return { instruction with demand := ← refinement.resolve host frame instruction }

end GasMachine
