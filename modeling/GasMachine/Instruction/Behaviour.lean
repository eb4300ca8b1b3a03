import GasMachine.Item

/-!
# Behaviours

What an instruction does is a value, so that an instruction table can be listed, edited and
compared. A behaviour may serve a whole family of opcodes and then asks which of them it is run
for. A refinement says how an instruction's demands follow from its operand and the stacks, where
they are not fixed.

Beside the standard behaviours there are three that a host can put into its table: one that gives
the same results whatever happens, one that insists on a number of arguments, and one that breaks
off.
-/

set_option autoImplicit false

namespace GasMachine

/-- What an instruction does with its arguments. -/
inductive Behaviour where
  -- Constants.
  | pushInteger | pushBoolean (value : Bool) | pushNull | pushData | pushSmall | pushPointer
  -- Flow control.
  | pass | jump | jumpIf | jumpCompare | call | callPointer | abort | assert | throwItem | leave
  | systemCall
  -- Moves.
  | countItems | dropItems | dropSecond | dropAt | copyTop | copySecond | copyAt | tuck | swap
  | rotate | roll | reverse | reverseCounted | copyFromAlt | toAlt | fromAlt
  -- Byte items.
  | newBuffer | copyInto | join | substring | left | right
  -- Logic and arithmetic.
  | unary | binary | compare | equal | not | nonZero | booleanBinary | within
  -- Compound items.
  | pack | unpack | newEmpty | newSized | size | hasKey | keys | values | pickItem | append
  | setItem | reverseItems | removeItem | clearItems
  -- Kinds.
  | isNull | isKind | convert
  -- Behaviours that a host adds.
  | constant (stack alt : List Item)
  | demanding (count : Nat)
  | crashing (text : Option String)

/-- How the demands of an instruction follow from its operand and the stacks. -/
inductive Refinement where
  | dropAt | copyTop | copySecond | copyFromAlt | clear | copyAt | roll | reverseCounted
  | newBuffer | join | pack | unpack | newSized | append | setItem | service
deriving DecidableEq

/-! ## Demands -/

/-- What an instruction asks of the machine before it acts. -/
structure Demand where
  stackIn : Nat := 0
  altIn : Nat := 0
  stackOut : Nat := 0
  altOut : Nat := 0
  /-- How many more items are nested inside others than before. -/
  growth : Int := 0
  /-- How much deeper the script is nested. -/
  invocation : Int := 0
  /-- Elements of a compound item that is made. -/
  arraySize : Nat := 0
  itemSize : Nat := 0
  /-- Gas on top of the price of the opcode. -/
  surcharge : Nat := 0
deriving DecidableEq

/-! ## Entries -/

/-- What an instruction table says about an opcode. -/
structure Entry where
  behaviour : Behaviour
  /-- The demands as far as they are fixed. -/
  demand : Demand := {}
  refinement : Option Refinement := none

namespace Entry

/-- An entry that takes and puts items on the stack. -/
def of (stackIn stackOut : Nat) (behaviour : Behaviour) (refinement : Option Refinement := none) :
    Entry :=
  { behaviour, refinement, demand := { stackIn, stackOut } }

def withInvocation (entry : Entry) (invocation : Int) : Entry :=
  { entry with demand := { entry.demand with invocation } }

end Entry

end GasMachine
