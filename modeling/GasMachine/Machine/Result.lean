import GasMachine.Config
import GasMachine.Frame
import GasMachine.Store.Layered

/-!
# Results of instructions

A behaviour computes results from arguments; it does not touch the frame. Whatever else is to
happen to the frame it asks for with an effect. What it may read beside the frame is the host, and
what it may change beside the frame is the world: the store, and the supply of handles.
-/

set_option autoImplicit false

namespace GasMachine

structure Host where
  limits : Limits := {}
  services : ServiceRegistry := {}
  invocation : Invocation := {}

/-- What outlives the frames of a run. -/
structure World where
  store : LayeredStore := {}
  nextSerial : Nat := 0

/-- What an instruction does to its frame beside taking and putting items. -/
inductive Effect where
  | none
  | jump (target : Nat)
  /-- Go on at a position and come back later. -/
  | enter (target : Nat)
  | leave (target : Nat)
  | log (message : String)
  | notify (name : String) (state : Parameter)
  | create (hash : ScriptHash)
  /-- Have a contract run with the given stack. -/
  | call (code : Bytes) (arguments : List Item)

/-- The results of an instruction, top first. -/
structure Results where
  stack : List Item := []
  alt : List Item := []
  effect : Effect := .none
  world : World

/-- What an instruction got from the stacks, top first. -/
structure Arguments where
  stack : List Item
  alt : List Item

namespace Results

def nothing (world : World) : Results := { world }

def one (item : Item) (world : World) : Results := { stack := [item], world }

def many (items : List Item) (world : World) : Results := { stack := items, world }

end Results

namespace Arguments

def one : List Item → Except Fault Item
  | [a] => .ok a
  | items => .error (.internal (.argumentCount 1 items.length))

def two : List Item → Except Fault (Item × Item)
  | [a, b] => .ok (a, b)
  | items => .error (.internal (.argumentCount 2 items.length))

def three : List Item → Except Fault (Item × Item × Item)
  | [a, b, c] => .ok (a, b, c)
  | items => .error (.internal (.argumentCount 3 items.length))

def five : List Item → Except Fault (Item × Item × Item × Item × Item)
  | [a, b, c, d, e] => .ok (a, b, c, d, e)
  | items => .error (.internal (.argumentCount 5 items.length))

def counted : List Item → Except Fault (Item × List Item)
  | count :: items => .ok (count, items)
  | [] => .error (.internal (.outOfRange .place 0 0))

end Arguments

namespace Frame

def perform (frame : Frame) (size : Nat) : Effect → Frame
  | .none => { frame with pc := frame.pc + size }
  | .jump target => { frame with pc := target }
  | .enter target =>
    { frame with
      pc := target
      returnStack := (frame.pc + size) :: frame.returnStack
      depth := frame.depth + 1 }
  | .leave target =>
    { frame with
      pc := target
      returnStack := frame.returnStack.tail
      depth := frame.depth - 1 }
  | .log message =>
    { frame with
      pc := frame.pc + size
      logs := frame.logs ++ [⟨frame.script, message⟩] }
  | .notify name state =>
    { frame with
      pc := frame.pc + size
      notifications := frame.notifications ++ [⟨frame.script, name, state⟩] }
  | .create hash =>
    { frame with
      pc := frame.pc + size
      created := frame.created.insert hash }
  | .call code arguments =>
    { frame with
      pc := frame.pc + size
      pending := some (frame.launch code arguments)
      created := ∅
      notifications := []
      logs := [] }

end Frame

end GasMachine
