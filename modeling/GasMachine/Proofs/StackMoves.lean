import GasMachine.Proofs.Declared
import GasMachine.Proofs.Nesting
import GasMachine.Proofs.SingleStep

/-!
# Moves on the stack

Four instructions take a count from the stack and do something with the items below it: copy the
item at a place, bring it to the front, drop it, or turn the first items round. What they do is a
list formula (`StackMove.formula?`), and instructions without a count stand for the same formula
with a count of their own (`Opcode.StandsFor`). If the formula has no value there are too few items,
and the stacks stay as they were; if it has one, this is the new stack, unless it is too large
(`Machine.Rearranges`).

The arguments of such an instruction are the count and the items up to the place in question, so all
formulas come down to what happens at the end of the arguments (`StackMove.formula?_eq`).
-/

set_option autoImplicit false

namespace GasMachine

open TwosComplement (wordMax)

/-! ## The formulas

Formulas speak of lists alone, and have no value if the list is too short. An opcode that stands for
a move with a count of its own is compared with the same formula. -/

/-- What can be done with the item at a place, or with the items before it. -/
inductive StackMove where
  | copy | roll | drop | reverse
deriving DecidableEq

namespace StackMove

/-- The opcode that makes a move with a count from the stack. -/
def opcode : StackMove → Opcode
  | .copy => .PICK
  | .roll => .ROLL
  | .drop => .XDROP
  | .reverse => .REVERSEN

/-- What a move makes of some items, if there are enough. -/
def formula? : StackMove → Nat → List Item → Option (List Item)
  | .copy, n, items => items[n]?.map (· :: items)
  | .roll, n, items => items[n]?.map (· :: items.eraseIdx n)
  | .drop, n, items => if n < items.length then some (items.eraseIdx n) else none
  | .reverse, n, items =>
    if n ≤ items.length then some ((items.take n).reverse ++ items.drop n) else none

/-- The number of items that a move is about. -/
def reach : StackMove → Nat → Nat
  | .reverse, n => n
  | _, n => n + 1

theorem formula?_eq_none_iff (move : StackMove) (n : Nat) (items : List Item) :
    move.formula? n items = none ↔ items.length < move.reach n := by
  cases move with
  | copy | roll =>
    unfold formula? reach
    rw [Option.map_eq_none_iff, List.getElem?_eq_none_iff]
    exact Nat.lt_succ_iff.symm
  | drop =>
    unfold formula? reach
    rw [ite_eq_right_iff, Nat.lt_succ_iff]
    simp
  | reverse =>
    unfold formula? reach
    rw [ite_eq_right_iff]
    simp

end StackMove

/-- The opcodes that stand for a move with a count of their own. -/
inductive Opcode.StandsFor : Opcode → StackMove → Nat → Prop where
  | copyTop : StandsFor .DUP .copy 0
  | copySecond : StandsFor .OVER .copy 1
  | swap : StandsFor .SWAP .roll 1
  | rotate : StandsFor .ROT .roll 2
  | dropTop : StandsFor .DROP .drop 0
  | dropSecond : StandsFor .NIP .drop 1
  | reverse3 : StandsFor .REVERSE3 .reverse 3
  | reverse4 : StandsFor .REVERSE4 .reverse 4

/-- The opcodes that put an item on the stack that is still there. -/
def Opcode.copies (opcode : Opcode) : Bool :=
  opcode = .PICK || opcode = .DUP || opcode = .OVER || opcode = .TUCK

/-- The next instruction replaces the stack, if there are enough items and the new ones fit. -/
structure Machine.Rearranges (machine : Machine) (invocation : Invocation) (frame : Frame)
    (world : World) (opcode : Opcode) (expected : Option (List Item)) : Prop where
  /-- The new stack fits, and the frame goes on with it. -/
  goesOn : ∀ stack, expected = some stack →
    (frame.advanced 1 opcode.price stack).totalSize ≤ machine.config.limits.stackSize →
      machine.step invocation frame world = (frame.advanced 1 opcode.price stack, world)
  /-- The new stack is too large. -/
  tooLarge : ∀ stack, expected = some stack →
    machine.config.limits.stackSize < (frame.advanced 1 opcode.price stack).totalSize →
      ∃ size, (machine.step invocation frame world).1.status =
        .faulted ⟨.stackOverflow size machine.config.limits.stackSize, frame.pc, some opcode⟩
  /-- Only a copy can make it too large. -/
  fits : ∀ stack, expected = some stack → opcode.copies = false →
    (frame.advanced 1 opcode.price stack).totalSize ≤ machine.config.limits.stackSize
  /-- There are too few items, and those that are there stay. -/
  tooFew : expected = none → ∃ required, frame.stack.length < required ∧
    machine.step invocation frame world =
      (frame.stopped opcode.price frame.stack opcode
        (.stackUnderflow opcode required frame.stack.length), world)
  /-- For no other reason there are said to be too few. -/
  underflows :
    (∃ required available, (machine.step invocation frame world).1.status =
      .faulted ⟨.stackUnderflow opcode required available, frame.pc, some opcode⟩) ↔
    expected = none

/-- What the next instruction does, if it is a move. -/
structure Machine.MovesByFormula (machine : Machine) (invocation : Invocation) (frame : Frame)
    (world : World) (opcode : Opcode) : Prop where
  /-- A count on top is taken away, and the move is made with the items below it. A copy counts its
  place from one, so it cannot have the two largest counts; other moves can, and then there are too
  few items in any stack that fits in memory. -/
  counted : ∀ (move : StackMove) count items n, opcode = move.opcode →
    frame.stack = count :: items → count.toCount machine.config.limits.integerSize = .ok n →
      (move = .copy → n + 1 < wordMax) →
      (wordMax ≤ move.reach n → frame.stack.length < wordMax) →
        machine.Rearranges invocation frame world opcode (move.formula? n items)
  /-- There are too few items if there is none at the place. -/
  tooFew : ∀ (move : StackMove) n items, move ≠ .reverse →
    (move.formula? n items = none ↔ items.length ≤ n)
  /-- There are too few to be turned round if there are not as many. -/
  tooFewToReverse : ∀ n items, StackMove.reverse.formula? n items = none ↔ items.length < n
  /-- An opcode with a count of its own makes the same move with the whole stack. -/
  own : ∀ move n, opcode.StandsFor move n →
    machine.Rearranges invocation frame world opcode (move.formula? n frame.stack)
  /-- `TUCK` is a swap, and then a copy of what is now the second item. -/
  tuck : opcode = .TUCK → machine.Rearranges invocation frame world opcode
    ((StackMove.roll.formula? 1 frame.stack).bind (StackMove.copy.formula? 1))

/-! ## From a formula to a step -/

namespace Machine

variable {machine : Machine} {invocation : Invocation} {frame : Frame} {world : World}
  {opcode : Opcode} {stackIn stackOut : Nat} {growth : Int}

/-- The behaviour of an instruction makes a stack out of what is there, as was announced. -/
structure Yields (machine : Machine) (invocation : Invocation) (frame : Frame) (world : World)
    (instruction : Instruction) (stack : List Item) : Prop where
  enough : instruction.demand.stackIn ≤ frame.stack.length
  gives : ∃ items, stack = items ++ frame.stack.drop instruction.demand.stackIn ∧
    items.length = instruction.demand.stackOut ∧
    instruction.behaviour.run (machine.host invocation) instruction (frame.charged instruction)
      world ⟨frame.stack.take instruction.demand.stackIn, []⟩ = .ok (.many items world)
  needs : (instruction.demand.stackOut : Int) + instruction.demand.growth ≤
      instruction.demand.stackIn ∨
    (instruction.demand.stackOut : Int) + instruction.demand.growth
        + (frame.stack.length + Item.nestedCountAll frame.stack) ≤
      instruction.demand.stackIn + (stack.length + Item.nestedCountAll stack)

/-- Whatever makes the right stack out of enough items rearranges them. -/
theorem Poised.rearranges
    (poised : machine.Poised invocation frame (opcode.plain stackIn stackOut growth))
    {expected : Option (List Item)} (few : expected = none → frame.stack.length < stackIn)
    (yields : ∀ stack, expected = some stack →
      machine.Yields invocation frame world (opcode.plain stackIn stackOut growth) stack)
    (keeps : ∀ stack, expected = some stack → opcode.copies = false →
      stack.length + Item.nestedCountAll stack ≤
        frame.stack.length + Item.nestedCountAll frame.stack) :
    machine.Rearranges invocation frame world opcode expected := by
  have goesOn : ∀ stack, expected = some stack →
      (frame.advanced 1 opcode.price stack).totalSize ≤ machine.config.limits.stackSize →
        machine.step invocation frame world = (frame.advanced 1 opcode.price stack, world) := by
    intro stack same fits
    obtain ⟨enough, ⟨items, rfl, count, ran⟩, needs⟩ := yields stack same
    exact poised.step_of_results enough
      (needs.elim poised.room_of_fewer (poised.room_of_fits 1 opcode.price fits)) ran count fits
  have tooLarge : ∀ stack, expected = some stack →
      machine.config.limits.stackSize < (frame.advanced 1 opcode.price stack).totalSize →
        ∃ size, (machine.step invocation frame world).1.status = .faulted
          ⟨.stackOverflow size machine.config.limits.stackSize, frame.pc, some opcode⟩ := by
    intro stack same large
    obtain ⟨enough, ⟨items, rfl, count, ran⟩, needs⟩ := yields stack same
    exact poised.step_of_overflow enough ran count large
  have tooFew : expected = none → ∃ required, frame.stack.length < required ∧
      machine.step invocation frame world =
        (frame.stopped opcode.price frame.stack opcode
          (.stackUnderflow opcode required frame.stack.length), world) :=
    fun none => ⟨stackIn, few none, poised.step_of_few (few none)⟩
  refine ⟨goesOn, tooLarge, fun stack same moves => ?_, tooFew, ?_, fun none => ?_⟩
  · have kept := keeps stack same moves
    have before := poised.within.size
    have after := poised.within.counted.totalSize_advanced 1 opcode.price stack
    omega
  · rintro ⟨required, available, stopped⟩
    cases same : expected with
    | none => rfl
    | some stack =>
      rcases Nat.lt_or_ge machine.config.limits.stackSize
        (frame.advanced 1 opcode.price stack).totalSize with large | fits
      · obtain ⟨size, other⟩ := tooLarge stack same large
        rw [other] at stopped
        cases stopped
      · rw [goesOn stack same fits] at stopped
        have running : frame.status = .running := of_decide_eq_true poised.within.running
        exact absurd (running.symm.trans stopped) nofun
  · obtain ⟨required, _, stops⟩ := tooFew none
    rw [stops]
    exact ⟨_, _, rfl⟩

end Machine

/-! ## What a move takes and gives

A formula changes the items up to a place and leaves the others. What it makes of these is what the
behaviour makes of its arguments, and that reduces to what happens at the end of a list: the last
item is copied, brought to the front or dropped.

Counts that are announced stop at the largest word, so the number of items has to be a word for the
announcement to be true. -/

theorem slots_le (count : Nat) : slots count ≤ count := Int.ofNat_le.2 (Nat.min_le_left _ _)

namespace StackMove

variable (move : StackMove) {n : Nat} {count : Item} {items : List Item}

/-- What the behaviour of a move makes of the items that it is about. -/
def results : StackMove → List Item → List Item
  | .copy => Behaviour.copyLastToFront
  | .roll => Behaviour.lastToFront
  | .drop => List.dropLast
  | .reverse => List.reverse

/-- The number of items that these are. -/
def puts : StackMove → Nat → Nat
  | .copy, n => n + 2
  | .roll, n => n + 1
  | .drop, n | .reverse, n => n

/-- The number of items that a move with a count from the stack announces. -/
def declared : StackMove → Nat → Nat
  | .copy, n => saturate (n + 2)
  | .roll, n => saturate (n + 1)
  | .drop, n | .reverse, n => n

/-- The number of nested items that it adds. -/
def growth : StackMove → Nat → List Item → Int
  | .copy, n, items => copyGrowth items[n]?
  | _, _, _ => 0

theorem run_eq {host : Host} (number : count.toCount host.limits.integerSize = .ok n)
    (instruction : Instruction) (frame : Frame) (world : World) :
    move.opcode.standardEntry.behaviour.run host instruction frame world ⟨count :: items, []⟩ =
      .ok (.many (move.results items) world) := by
  have below : Behaviour.belowCount host.limits.integerSize (count :: items) = .ok items :=
    Behaviour.belowCount_of_toCount number
  cases move
  all_goals
    unfold Behaviour.run
    dsimp only [opcode, Opcode.standardEntry, Entry.of]
    rw [below]
    rfl

theorem resolve_eq (host : Host) {frame : Frame} (top : frame.stack = count :: items)
    (number : count.toCount host.limits.integerSize = .ok n)
    (near : move = .copy → n + 1 < wordMax) :
    (move.opcode.withOperand ⟨[], 0⟩).resolve host frame =
      .ok (move.opcode.plain (saturate (move.reach n + 1)) (move.declared n)
        (move.growth n items)) := by
  have whole : frame.stack.take frame.stack.length = count :: items := List.take_length.trans top
  have counted := Frame.peekCount?_of_take whole number
  have beneath : frame.peek? (n + 1) = items[n]? := by
    unfold Frame.peek?
    rw [top]
    rfl
  cases move
  all_goals
    unfold Instruction.resolve Refinement.resolve
    dsimp only [opcode, Opcode.withOperand, Opcode.standardEntry, Entry.of]
    rw [counted]
  case copy =>
    dsimp only
    rw [if_pos (near rfl), beneath]
    rfl
  all_goals rfl

/-- The last item that a copy or a roll is about is the one at the place. -/
theorem take_succ_eq (inside : n < items.length) :
    items.take (n + 1) = items.take n ++ [items[n]] := by
  rw [List.take_add_one, List.getElem?_eq_getElem inside]
  rfl

/-- A formula changes the items that it is about, as the behaviour does, and leaves the others. -/
theorem formula?_eq (enough : move.reach n ≤ items.length) :
    move.formula? n items =
      some (move.results (items.take (move.reach n)) ++ items.drop (move.reach n)) := by
  cases move with
  | copy =>
    show items[n]?.map _ = some ((items.take (n + 1)).getLast?.getD .null :: items.take (n + 1)
      ++ items.drop (n + 1))
    rw [List.getElem?_eq_getElem enough, List.cons_append, List.take_append_drop,
      take_succ_eq enough, List.getLast?_concat]
    rfl
  | roll =>
    show items[n]?.map _ = some (Behaviour.lastToFront (items.take (n + 1)) ++ items.drop (n + 1))
    rw [List.getElem?_eq_getElem enough, take_succ_eq enough, Behaviour.lastToFront,
      List.getLast?_concat, List.dropLast_concat, List.eraseIdx_eq_take_drop_succ]
    rfl
  | drop =>
    show ite _ _ _ = some ((items.take (n + 1)).dropLast ++ items.drop (n + 1))
    have inside : n < items.length := enough
    rw [if_pos inside, take_succ_eq inside, List.dropLast_concat, List.eraseIdx_eq_take_drop_succ]
  | reverse => exact if_pos enough

theorem length_results (enough : move.reach n ≤ items.length) :
    (move.results (items.take (move.reach n))).length = move.puts n := by
  have length : (items.take (move.reach n)).length = move.reach n := List.length_take_of_le enough
  cases move with
  | copy => exact congrArg Nat.succ length
  | roll => exact (Behaviour.length_lastToFront _).trans length
  | drop => exact List.length_dropLast.trans (congrArg Nat.pred length)
  | reverse => exact List.length_reverse.trans length

/-- If the number of items that a move is about is a word, then it announces what it puts. -/
theorem declared_eq (small : move.reach n < wordMax) : move.declared n = move.puts n := by
  cases move with
  | copy => exact Nat.min_eq_left small
  | roll => exact Nat.min_eq_left (Nat.le_of_lt small)
  | drop | reverse => rfl

/-- What a move makes of enough items. -/
theorem enough_of_made {stack : List Item} (made : move.formula? n items = some stack) :
    move.reach n ≤ items.length ∧
      stack = move.results (items.take (move.reach n)) ++ items.drop (move.reach n) := by
  have enough : move.reach n ≤ items.length := by
    by_contra few
    rw [(move.formula?_eq_none_iff n items).2 (Nat.not_le.1 few)] at made
    cases made
  rw [move.formula?_eq enough] at made
  exact ⟨enough, (Option.some.inj made).symm⟩

/-- No move but a copy makes more of the items than there were. -/
theorem weight_le {stack : List Item} (moves : move ≠ .copy)
    (made : move.formula? n items = some stack) :
    stack.length + Item.nestedCountAll stack ≤ items.length + Item.nestedCountAll items := by
  cases move with
  | copy => exact absurd rfl moves
  | roll =>
    obtain ⟨item, there, rfl⟩ := Option.map_eq_some_iff.1 made
    obtain ⟨inside, rfl⟩ := List.getElem?_eq_some_iff.1 there
    have perm := List.getElem_cons_eraseIdx_perm inside
    rw [perm.length_eq, Item.nestedCountAll_eq_of_perm perm]
  | drop =>
    obtain ⟨inside, same⟩ := Option.ite_none_right_eq_some.1 made
    obtain rfl := Option.some.inj same
    have part := List.eraseIdx_sublist items n
    exact Nat.add_le_add part.length_le (Item.nestedCountAll_le_of_sublist part)
  | reverse =>
    obtain ⟨inside, same⟩ := Option.ite_none_right_eq_some.1 made
    obtain rfl := Option.some.inj same
    have perm : ((items.take n).reverse ++ items.drop n).Perm items := by
      conv => rhs; rw [← List.take_append_drop n items]
      exact (List.reverse_perm _).append_right _
    rw [perm.length_eq, Item.nestedCountAll_eq_of_perm perm]

/-- A move gives no more items than it takes, or it tells how many more. -/
theorem puts_le_or_told {stack : List Item} (made : move.formula? n items = some stack) :
    (move.puts n : Int) + move.growth n items ≤ move.reach n ∨
      (move.puts n : Int) + move.growth n items + (items.length + Item.nestedCountAll items) ≤
        move.reach n + (stack.length + Item.nestedCountAll stack) := by
  cases move with
  | copy =>
    obtain ⟨item, there, rfl⟩ := Option.map_eq_some_iff.1 made
    have told := slots_le item.nestedCount
    refine .inr ?_
    dsimp only [puts, growth, reach]
    rw [there, Item.nestedCountAll_cons, List.length_cons]
    dsimp only [copyGrowth]
    omega
  | roll | drop | reverse =>
    refine .inl ?_
    dsimp only [puts, growth, reach]
    omega

end StackMove

/-! ## The moves as steps

A move goes through if its results fit. Whether the check before it says the same depends on what is
announced: no more than is taken, or else the very number by which the stack grows. -/

namespace Machine

variable {machine : Machine} {invocation : Invocation} {frame : Frame} {world : World}

theorem rearranges_of_count (standard : machine.table = {})
    (within : frame.RunsWithin machine.config.limits) (move : StackMove) {following : Bytes}
    (here : frame.code.drop frame.pc = move.opcode.code :: following)
    (affordable : (move.opcode.price : Int) ≤ frame.gas) {count : Item} {items : List Item}
    (top : frame.stack = count :: items) {n : Nat}
    (number : count.toCount machine.config.limits.integerSize = .ok n)
    (near : move = .copy → n + 1 < wordMax)
    (held : wordMax ≤ move.reach n → frame.stack.length < wordMax) :
    machine.Rearranges invocation frame world move.opcode (move.formula? n items) := by
  have poised := poised_of_plain standard within here affordable (by cases move <;> rfl)
    (move.resolve_eq (machine.host invocation) top number near)
  have all : frame.stack.length = items.length + 1 := by rw [top, List.length_cons]
  have flat := count.toCount_flat _ n number
  refine poised.rearranges (fun none => ?_) (fun stack made => ?_) fun stack made moves => ?_
  · have few := (move.formula?_eq_none_iff n items).1 none
    unfold saturate
    omega
  · obtain ⟨enough, split⟩ := move.enough_of_made made
    have small : move.reach n < wordMax := by omega
    have whole : saturate (move.reach n + 1) = move.reach n + 1 := Nat.min_eq_left small
    have told := move.declared_eq small
    constructor
    case enough =>
      dsimp only [Opcode.plain]
      omega
    case gives =>
      dsimp only [Opcode.plain]
      rw [whole, told, top]
      exact ⟨_, split, move.length_results enough, move.run_eq number _ _ world⟩
    case needs =>
      have needs := move.puts_le_or_told made
      dsimp only [Opcode.plain]
      rw [whole, told, top, List.length_cons, Item.nestedCountAll_cons, flat]
      omega
  · have less := move.weight_le (by rintro rfl; cases moves) made
    rw [top, List.length_cons, Item.nestedCountAll_cons]
    omega

end Machine

namespace Opcode.StandsFor

variable {opcode : Opcode} {move : StackMove} {n : Nat}

theorem resolve_eq (own : opcode.StandsFor move n) (host : Host) (frame : Frame) :
    (opcode.withOperand ⟨[], 0⟩).resolve host frame =
      .ok (opcode.plain (move.reach n) (move.puts n) (move.growth n frame.stack)) := by
  cases own <;> rfl

theorem run_eq (own : opcode.StandsFor move n) {items : List Item}
    (count : items.length = move.reach n) (host : Host) (instruction : Instruction) (frame : Frame)
    (world : World) :
    opcode.standardEntry.behaviour.run host instruction frame world ⟨items, []⟩ =
      .ok (.many (move.results items) world) := by
  cases own
  case copyTop | dropTop =>
    obtain ⟨_, rfl⟩ := List.length_eq_one_iff.1 count
    rfl
  case copySecond | swap | dropSecond =>
    obtain ⟨_, _, rfl⟩ := List.length_eq_two.1 count
    rfl
  case rotate =>
    obtain ⟨_, _, _, rfl⟩ := List.length_eq_three.1 count
    rfl
  case reverse3 | reverse4 => rfl

end Opcode.StandsFor

namespace Machine

variable {machine : Machine} {invocation : Invocation} {frame : Frame} {world : World}

theorem rearranges_of_standsFor (standard : machine.table = {})
    (within : frame.RunsWithin machine.config.limits) {opcode : Opcode} {move : StackMove} {n : Nat}
    (own : opcode.StandsFor move n) {following : Bytes}
    (here : frame.code.drop frame.pc = opcode.code :: following)
    (affordable : (opcode.price : Int) ≤ frame.gas) :
    machine.Rearranges invocation frame world opcode (move.formula? n frame.stack) := by
  have poised := poised_of_plain standard within here affordable (by cases own <;> rfl)
    (own.resolve_eq (machine.host invocation) frame)
  refine poised.rearranges (move.formula?_eq_none_iff n frame.stack).1 (fun stack made => ?_)
    fun stack made moves => move.weight_le (by rintro rfl; cases own <;> cases moves) made
  obtain ⟨enough, split⟩ := move.enough_of_made made
  constructor
  case enough => exact enough
  case gives =>
    exact ⟨_, split, move.length_results enough,
      own.run_eq (List.length_take_of_le enough) _ _ _ world⟩
  case needs => exact move.puts_le_or_told made

/-- What a swap and a copy from below it make of a stack, `TUCK` makes of it at once. -/
theorem rearranges_of_tuck (standard : machine.table = {})
    (within : frame.RunsWithin machine.config.limits) {following : Bytes}
    (here : frame.code.drop frame.pc = Opcode.TUCK.code :: following)
    (affordable : (Opcode.TUCK.price : Int) ≤ frame.gas) :
    machine.Rearranges invocation frame world .TUCK
      ((StackMove.roll.formula? 1 frame.stack).bind (StackMove.copy.formula? 1)) := by
  have poised : machine.Poised invocation frame
      (Opcode.TUCK.plain 2 3 (copyGrowth frame.stack[0]?)) :=
    poised_of_plain standard within here affordable rfl rfl
  refine poised.rearranges ?_ ?_ fun _ _ copies => nomatch copies
  · intro none
    match stack : frame.stack with
    | [] | [_] => simp
    | _ :: _ :: _ =>
      rw [stack] at none
      cases none
  · intro stack made
    match before : frame.stack with
    | [] | [_] =>
      rw [before] at made
      cases made
    | top :: second :: rest =>
      rw [before] at made
      obtain rfl : top :: second :: top :: rest = stack := Option.some.inj made
      have told := slots_le top.nestedCount
      constructor
      case enough =>
        rw [before]
        exact Nat.le_add_left 2 _
      case gives =>
        rw [before]
        exact ⟨[top, second, top], rfl, rfl, rfl⟩
      case needs =>
        refine .inr ?_
        dsimp only [Opcode.plain]
        rw [before, List.getElem?_cons_zero]
        simp only [copyGrowth, List.length_cons, Item.nestedCountAll_cons]
        omega

theorem movesByFormula (machine : Machine) (standard : machine.table = {})
    (invocation : Invocation) (frame : Frame) (world : World)
    (within : frame.RunsWithin machine.config.limits) (opcode : Opcode) (following : Bytes)
    (here : frame.code.drop frame.pc = opcode.code :: following)
    (affordable : (opcode.price : Int) ≤ frame.gas) :
    machine.MovesByFormula invocation frame world opcode := by
  constructor
  case counted =>
    rintro move count items n rfl top number near held
    exact rearranges_of_count standard within move here affordable top number near held
  case tooFew =>
    intro move n items notReverse
    rw [move.formula?_eq_none_iff]
    cases move with
    | reverse => exact absurd rfl notReverse
    | copy | roll | drop => exact Nat.lt_succ_iff
  case tooFewToReverse => exact fun n items => StackMove.reverse.formula?_eq_none_iff n items
  case own => exact fun move n own => rearranges_of_standsFor standard within own here affordable
  case tuck =>
    rintro rfl
    exact rearranges_of_tuck standard within here affordable

/-- A frame that is about to copy the third item below a count, an array, to the top. -/
def pickingFrame : Frame :=
  Launch.start
    { code := [Opcode.PICK.code]
      gas := 60
      depth := 1
      entry := Hash.zero
      calling := none
      residue :=
        { stack := [.byteString [2], .integer 5, .null, .array [.integer 6, .null]]
          alt := [.boolean true] } }

/-- The copy of the array, with its two elements, is on top of all the items, or of none: with a
ceiling of one item less there is no room for it. -/
theorem movesByFormula_picking :
    let roomy : Machine := standard { limits := { stackSize := 9 } }
    let tight : Machine := standard { limits := { stackSize := 8 } }
    (pickingFrame.RunsWithin tight.config.limits ∧
      pickingFrame.code.drop pickingFrame.pc = Opcode.PICK.code :: [] ∧
      (Opcode.PICK.price : Int) ≤ pickingFrame.gas) ∧
    (roomy.step {} pickingFrame {}).1.stack =
      [.array [.integer 6, .null], .integer 5, .null, .array [.integer 6, .null]] ∧
    ∃ size, (tight.step {} pickingFrame {}).1.status =
      .faulted ⟨.stackOverflow size 8, 0, some .PICK⟩ := by
  have inRoomy : pickingFrame.RunsWithin { stackSize := 9 } :=
    ⟨rfl, rfl, by decide +kernel, by decide⟩
  have inTight : pickingFrame.RunsWithin { stackSize := 8 } :=
    ⟨rfl, rfl, by decide +kernel, by decide⟩
  have number : (Item.byteString [2]).toCount 32 = .ok 2 := by decide +kernel
  have near : 2 + 1 < wordMax := by decide +kernel
  have goes := (movesByFormula (standard { limits := { stackSize := 9 } }) rfl {} pickingFrame {}
    inRoomy .PICK [] rfl (by decide)).counted .copy _ _ 2 rfl rfl number (fun _ => near)
      fun far => absurd near (Nat.not_lt.2 far)
  have stops := (movesByFormula (standard { limits := { stackSize := 8 } }) rfl {} pickingFrame {}
    inTight .PICK [] rfl (by decide)).counted .copy _ _ 2 rfl rfl number (fun _ => near)
      fun far => absurd near (Nat.not_lt.2 far)
  refine ⟨⟨inTight, rfl, by decide⟩, ?_, stops.tooLarge _ rfl (by decide +kernel)⟩
  rw [goes.goesOn _ rfl (by decide +kernel)]
  rfl

end Machine

end GasMachine
