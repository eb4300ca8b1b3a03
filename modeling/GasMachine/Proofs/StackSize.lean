import GasMachine.Proofs.Call

/-!
# The number of items on the stacks

A frame keeps the number of its nested items up to date and is told how many items its callers
hold. Here the number is what a count would give (`Frame.Counted`), whatever the instructions do,
and what a frame was told is what its callers hold (`Frame.Linked`); so the size that a frame works
with is the number of items on the stacks of all frames.
-/

set_option autoImplicit false

namespace GasMachine

/-! ## Counting -/

namespace Item

@[simp] theorem nestedCountAll_nil : nestedCountAll [] = 0 := rfl

@[simp] theorem nestedCountAll_cons (item : Item) (rest : List Item) :
    nestedCountAll (item :: rest) = nestedCount item + nestedCountAll rest :=
  rfl

@[simp] theorem nestedCountAll_append (items others : List Item) :
    nestedCountAll (items ++ others) = nestedCountAll items + nestedCountAll others := by
  induction items with
  | nil => rw [List.nil_append, nestedCountAll_nil, Nat.zero_add]
  | cons item rest ih =>
    rw [List.cons_append, nestedCountAll_cons, nestedCountAll_cons, ih, Nat.add_assoc]

theorem nestedCountAll_take_add_drop (items : List Item) (taken : Nat) :
    nestedCountAll (items.take taken) + nestedCountAll (items.drop taken) =
      nestedCountAll items := by
  rw [← nestedCountAll_append, List.take_append_drop]

theorem nodeCountAll_eq (items : List Item) :
    nodeCountAll items = items.length + nestedCountAll items := by
  induction items with
  | nil => rfl
  | cons item rest ih =>
    have pos := nodeCount_pos item
    rw [nodeCountAll, ih, nestedCountAll_cons, nestedCount, List.length_cons]
    omega

/-- The elements of an array are nested inside it, and so is what is nested inside them. -/
theorem nestedCount_array (items : List Item) :
    nestedCount (.array items) = items.length + nestedCountAll items := by
  rw [nestedCount, nodeCount, nodeCountAll_eq]
  omega

theorem nestedCount_struct (items : List Item) :
    nestedCount (.struct items) = items.length + nestedCountAll items := by
  rw [nestedCount, nodeCount, nodeCountAll_eq]
  omega

end Item

/-- The items that the second argument of a call holds were nested inside it. -/
theorem Service.readCallArguments_ensures (parameters : Item) :
    Ensures (fun items => items.length + Item.nestedCountAll items ≤ parameters.nestedCount)
      (readCallArguments parameters) := by
  cases parameters
  case array items => exact Ensures.ok (Nat.le_of_eq (Item.nestedCount_array items).symm)
  case struct items => exact Ensures.ok (Nat.le_of_eq (Item.nestedCount_struct items).symm)
  case null => exact Ensures.ok (Nat.zero_le _)
  all_goals exact Ensures.error _

/-- The items on both stacks, those inside others included. -/
def Residue.itemCount (residue : Residue) : Nat :=
  residue.stack.length + residue.alt.length
    + (Item.nestedCountAll residue.stack + Item.nestedCountAll residue.alt)

/-! ## Frames that count right

The counter is right after each of the parts of a step, whatever the instruction is. Taking off is
the part to look at: it subtracts, and never more than was counted. -/

namespace Frame

/-- The number of nested items that a frame keeps is the true one. -/
def Counted (frame : Frame) : Prop :=
  frame.nested = Item.nestedCountAll frame.stack + Item.nestedCountAll frame.alt

namespace Counted

variable {frame : Frame}

theorem ownSize (counted : frame.Counted) : frame.ownSize = frame.itemCount := by
  rw [Frame.ownSize, counted]
  rfl

theorem pay (counted : frame.Counted) (fee : Nat) : (frame.pay fee).Counted := counted

theorem failAt (counted : frame.Counted) (pc : Nat) (opcode : Option Opcode) (fault : Fault) :
    (frame.failAt pc opcode fault).Counted := counted

theorem halt (counted : frame.Counted) : frame.halt.Counted := counted

theorem settled (counted : frame.Counted) : frame.settled.Counted := counted

/-- What is taken off is subtracted in full, since it was counted. -/
theorem pop (counted : frame.Counted) (stackIn altIn : Nat) :
    (frame.pop stackIn altIn).Counted := by
  have stack := Item.nestedCountAll_take_add_drop frame.stack stackIn
  have alt := Item.nestedCountAll_take_add_drop frame.alt altIn
  unfold Counted at counted
  unfold Counted Frame.pop
  dsimp only
  omega

theorem push (counted : frame.Counted) (stack alt : List Item) :
    (frame.push stack alt).Counted := by
  unfold Counted at counted
  unfold Counted Frame.push
  dsimp only
  rw [counted, Item.nestedCountAll_append, Item.nestedCountAll_append]
  omega

theorem perform (counted : frame.Counted) (size : Nat) (effect : Effect) :
    (frame.perform size effect).Counted := by
  unfold Counted
  rw [nested_perform, stack_perform, alt_perform]
  exact counted

theorem charged (counted : frame.Counted) (instruction : Instruction) :
    (frame.charged instruction).Counted :=
  (counted.pay _).pop _ _

theorem completed (counted : frame.Counted) (instruction : Instruction) (results : Results) :
    (frame.completed instruction results).Counted :=
  ((counted.charged instruction).perform _ _).push _ _

theorem start (launch : Launch) : launch.start.Counted := rfl

theorem resume (counted : frame.Counted) (callee : Frame) (callPc : Nat) :
    (frame.resume callee callPc).Counted := by
  unfold Frame.resume
  dsimp only
  split
  · exact counted.push [callee.stack.headD .null] []
  · exact counted

theorem step (counted : frame.Counted) (machine : Machine) (invocation : Invocation)
    (world : World) : (machine.step invocation frame world).1.Counted := by
  have went := machine.stepTo_step invocation world frame
  generalize machine.step invocation frame world = next at went ⊢
  cases went with
  | rests ended => exact counted
  | ended _ here => exact counted.halt
  | unreadable byte following fault here refused => exact counted.failAt _ _ _
  | refused instruction fault found => exact (counted.pay _).failAt _ _ _
  | failed instruction fault found affordable => exact (counted.charged _).failAt _ _ _
  | overflowed instruction results acts fault => exact (counted.completed _ _).failAt _ _ _
  | acted instruction results acts fits => exact counted.completed _ _

end Counted

/-! ## What a frame was told

A frame is told when it starts what its callers hold, and they do not move while they wait. So what
it was told stays true, and the link is a property of the list of callers, by recursion on it. -/

/-- A frame was told what its callers hold: no items if it has none, and else what its caller holds
and what this one was told. -/
def Linked : Frame → List Suspended → Prop
  | frame, [] => frame.callerStack = 0 ∧ frame.callerAlt = 0
  | frame, caller :: rest =>
    frame.callerStack = caller.frame.ownSize + caller.frame.callerStack ∧
      frame.callerAlt = caller.frame.callerAlt ∧ Linked caller.frame rest

namespace Linked

theorem congr {frame other : Frame} {callers : List Suspended} (linked : frame.Linked callers)
    (stack : other.callerStack = frame.callerStack) (alt : other.callerAlt = frame.callerAlt) :
    other.Linked callers := by
  cases callers with
  | nil => exact ⟨stack.trans linked.1, alt.trans linked.2⟩
  | cons caller rest => exact ⟨stack.trans linked.1, alt.trans linked.2.1, linked.2.2⟩

/-- The caller of a frame is left out of the size that it works with itself. -/
theorem totalSize_cons {frame : Frame} {caller : Suspended} {rest : List Suspended}
    (linked : frame.Linked (caller :: rest)) :
    frame.totalSize = frame.ownSize + caller.frame.totalSize := by
  obtain ⟨stack, alt, _⟩ := linked
  unfold totalSize
  rw [stack, alt]
  omega

/-- The size that a frame works with is the number of items of all frames. -/
theorem totalSize {frame : Frame} {callers : List Suspended} (linked : frame.Linked callers)
    (counted : frame.Counted) (allCounted : ∀ caller ∈ callers, caller.frame.Counted) :
    frame.totalSize =
      frame.itemCount + (callers.map fun caller => caller.frame.itemCount).sum := by
  induction callers generalizing frame with
  | nil =>
    obtain ⟨stack, alt⟩ := linked
    rw [Frame.totalSize, counted.ownSize, stack, alt]
    rfl
  | cons caller rest ih =>
    have below := ih linked.2.2 (allCounted caller List.mem_cons_self)
      fun other member => allCounted other (List.mem_cons_of_mem caller member)
    rw [linked.totalSize_cons, counted.ownSize, below, List.map_cons, List.sum_cons]

end Linked

/-! ## What steps leave alone -/

theorem step_callers (machine : Machine) (invocation : Invocation) (frame : Frame)
    (world : World) :
    (machine.step invocation frame world).1.callerStack = frame.callerStack ∧
      (machine.step invocation frame world).1.callerAlt = frame.callerAlt := by
  have went := machine.stepTo_step invocation world frame
  generalize machine.step invocation frame world = next at went ⊢
  cases went with
  | overflowed instruction results acts fault =>
    exact ⟨callerStack_completed _ _ _, callerAlt_completed _ _ _⟩
  | acted instruction results acts fits =>
    exact ⟨callerStack_completed _ _ _, callerAlt_completed _ _ _⟩
  | _ => exact ⟨rfl, rfl⟩

/-! ## The result of a contract

The caller gets one item with what is inside it, and the contract had it on its stack or had
nothing. -/

theorem resume_callers (caller callee : Frame) (callPc : Nat) :
    (caller.resume callee callPc).callerStack = caller.callerStack ∧
      (caller.resume callee callPc).callerAlt = caller.callerAlt := by
  unfold resume
  dsimp only
  split <;> exact ⟨rfl, rfl⟩

/-- A caller that goes on has got one item, with what is nested inside it. -/
theorem totalSize_resume {caller callee : Frame} {callPc : Nat}
    (healthy : (caller.resume callee callPc).fault? = none) :
    callee.fault? = none ∧ (caller.resume callee callPc).totalSize =
      caller.totalSize + (1 + (callee.stack.headD .null).nestedCount) := by
  unfold resume at healthy ⊢
  dsimp only at healthy ⊢
  split at healthy
  · rename_i halted
    refine ⟨halted, ?_⟩
    simp only [push, totalSize, ownSize, List.length_append, List.length_cons,
      List.length_nil, Item.nestedCountAll_cons, Item.nestedCountAll_nil]
    omega
  · cases healthy

/-- The top item of a frame is among its items. -/
theorem top_le_itemCount (frame : Frame) :
    1 + (frame.stack.headD .null).nestedCount ≤ max frame.itemCount 1 := by
  unfold Residue.itemCount
  cases frame.stack with
  | nil => exact Nat.le_max_right _ _
  | cons item rest =>
    rw [List.headD_cons, List.length_cons, Item.nestedCountAll_cons]
    omega

end Frame

end GasMachine
