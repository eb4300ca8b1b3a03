import GasMachine.Proofs.NestedCounter
import GasMachine.Proofs.Nesting

/-!
# The check of the stack size

Before an instruction acts, the machine works out from the declared counts and the growth how large
the stacks will be, and refuses the instruction if that is too large. With the standard table this
is neither too little nor too much. The growth is what the behaviour needs, so the stacks never get
larger than was worked out; and where they stay smaller, nothing larger than before was worked out
(`Machine.grows_of_run`).

A growth is a signed word, so it stops where more is needed (`Behaviour.tells_or_beyond`). For that,
more items have to be there than a signed word can count (`Behaviour.Beyond`).
-/

set_option autoImplicit false

namespace GasMachine

open TwosComplement (signedMax wordMax)

/-! ## The table and the refinements

Which behaviours have their growth worked out, and by which refinement. All others have a growth
that is fixed in the table, and it is zero but for one. -/

namespace Behaviour

/-- The refinement that works out the growth for a behaviour. -/
def growsBy? : Behaviour → Option Refinement
  | .copyTop | .tuck => some .copyTop
  | .copySecond => some .copySecond
  | .copyAt => some .copyAt
  | .copyFromAlt => some .copyFromAlt
  | .pack => some .pack
  | .unpack => some .unpack
  | .newSized => some .newSized
  | .setItem => some .setItem
  | .systemCall => some .service
  | _ => none

/-- The growth that is declared for a behaviour as far as it is fixed. -/
def fixedGrowth : Behaviour → Int
  | .append => 1
  | _ => 0

theorem gives_of_computes {behaviour : Behaviour} (computes : behaviour.computes = true)
    (count : Nat) : behaviour.gives count + behaviour.givesAlt ≤ 1 := by
  cases behaviour <;> first
    | exact Nat.le_refl 1
    | exact Nat.zero_le 1
    | cases computes

theorem grows_of_computes {behaviour : Behaviour} (computes : behaviour.computes = true) :
    behaviour.growsBy? = none ∧ behaviour.fixedGrowth = 0 := by
  cases behaviour <;> first
    | exact ⟨rfl, rfl⟩
    | cases computes

/-- A behaviour that has made an item of a size has had memory for it. -/
theorem run_hasRoom {behaviour : Behaviour} {host : Host} (instruction : Instruction)
    (frame : Frame) (world : World) (arguments : Arguments) :
    Ensures (fun _ => behaviour.HasRoom host.limits.integerSize arguments.stack)
      (behaviour.run host instruction frame world arguments) := by
  have alone {item : Item} {size : Nat} (only : arguments.stack = [item])
      (counted : item.toCount host.limits.integerSize = .ok size)
      (fits : behaviour.wants size ≤ signedMax) :
      behaviour.HasRoom host.limits.integerSize arguments.stack := by
    intro other count same alsoCounted
    cases only.symm.trans same
    cases counted.symm.trans alsoCounted
    exact fits
  cases behaviour
  case newBuffer =>
    refine Arguments.one_ensures.bind fun item only => ?_
    refine (Ensures.self _).bind fun size counted => ?_
    exact (zeros_ensures size).bind fun _ fits => Ensures.ok (alone only counted fits)
  case newSized =>
    refine Arguments.one_ensures.bind fun item only => ?_
    refine (Ensures.self _).bind fun size counted => ?_
    exact Ensures.map ((sizedCompound_ensures instruction size).mono fun _ held =>
      alone only counted held.1)
  all_goals exact fun _ _ _ _ _ _ => Nat.zero_le _

end Behaviour

theorem Arguments.nestedCount_le {arguments : Arguments} {item : Item}
    (member : item ∈ arguments.stack ∨ item ∈ arguments.alt) :
    item.nestedCount ≤ arguments.nested := by
  unfold Arguments.nested
  rcases member with stack | alt
  · have inside := Item.nestedCount_le_all stack
    omega
  · have inside := Item.nestedCount_le_all alt
    omega

/-! ## Growth in words

What is told and what is needed are the same up to the largest signed word. The cases in which they
are not are set apart as a relation (`Beyond`), each with its reason why so many items must have
been on the stacks already. -/

namespace Behaviour

/-- A growth tells what the results of a behaviour need, as far as signed words go. -/
def Tells (behaviour : Behaviour) (limit : Nat) (arguments : Arguments) (growth : Int) : Prop :=
  match behaviour with
  | .copyTop => ∀ top, arguments.stack = [top] → growth = slots top.nestedCount
  | .tuck => ∀ top below, arguments.stack = [top, below] → growth = slots top.nestedCount
  | .copySecond => ∀ top below, arguments.stack = [top, below] → growth = slots below.nestedCount
  | .copyAt => ∀ count items size, arguments.stack = count :: items →
      count.toCount limit = .ok size → growth = slots (items.getLast?.getD .null).nestedCount
  | .copyFromAlt => ∀ item, arguments.alt = [item] → growth = slots item.nestedCount
  | .pack => ∀ count items size, arguments.stack = count :: items →
      count.toCount limit = .ok size → growth = slots items.length
  | .unpack => ∀ item out, arguments.stack = [item] → item.unpack = .ok out →
      growth = -slots item.parts.length
  | other => other.Foresees limit arguments growth

/-- What is needed is too much for a word, so a growth cannot tell it. -/
inductive Beyond (behaviour : Behaviour) (arguments : Arguments) (growth needed : Int) : Prop where
  /-- What is nested inside a copy. -/
  | copy (full : growth = signedMax) (more : signedMax < needed)
    (inside : needed ≤ arguments.nested)
  /-- The elements of a new item. -/
  | pack (packs : behaviour = .pack) (more : signedMax < needed) (few : needed < arguments.count)
  /-- The elements that come out of an item. -/
  | unpack (less : needed ≤ growth) (inside : signedMax < arguments.nested)

section Words

variable {behaviour : Behaviour} {arguments : Arguments} {growth : Int}

theorem beyond_of_copy {item : Item} (told : growth = slots item.nestedCount)
    (member : item ∈ arguments.stack ∨ item ∈ arguments.alt) :
    growth = item.nestedCount ∨ behaviour.Beyond arguments growth item.nestedCount := by
  have inside := Arguments.nestedCount_le member
  unfold slots at told
  by_cases small : item.nestedCount ≤ signedMax
  · exact .inl (by omega)
  · exact .inr (.copy (by omega) (by omega) (by omega))

theorem beyond_of_pack {items : List Item} (told : growth = slots items.length)
    (few : items.length < arguments.count) :
    growth = items.length ∨ pack.Beyond arguments growth items.length := by
  unfold slots at told
  by_cases small : items.length ≤ signedMax
  · exact .inl (by omega)
  · exact .inr (.pack rfl (by omega) (by omega))

theorem beyond_of_unpack {item : Item} (told : growth = -slots item.parts.length)
    (member : item ∈ arguments.stack ∨ item ∈ arguments.alt) :
    growth = -item.parts.length ∨ behaviour.Beyond arguments growth (-item.parts.length) := by
  have inside := Arguments.nestedCount_le member
  rw [Item.nestedCount_eq, Item.nodeCountAll_eq] at inside
  unfold slots at told
  by_cases small : item.parts.length ≤ signedMax
  · exact .inl (by omega)
  · exact .inr (.unpack (by omega) (by omega))

/-- Where a count stands on top, what is needed is told by the items below it. -/
theorem needed_of_counted {limit : Nat} {stack : List Item} {needs : List Item → Int}
    {beyond : Int → Prop}
    (told : ∀ count items size, stack = count :: items → count.toCount limit = .ok size →
      growth = needs items ∨ beyond (needs items)) :
    ∃ needed,
      (∀ count items size, stack = count :: items → count.toCount limit = .ok size →
        needed = needs items) ∧
      (growth = needed ∨ beyond needed) := by
  match stack with
  | [] => exact ⟨growth, nofun, .inl rfl⟩
  | count :: items =>
    cases counted : count.toCount limit with
    | error fault =>
      refine ⟨growth, ?_, .inl rfl⟩
      rintro _ _ size ⟨⟩ counts
      cases counted.symm.trans counts
    | ok size =>
      refine ⟨needs items, ?_, told count items size rfl counted⟩
      rintro _ _ _ ⟨⟩ _
      rfl

end Words

/-- What is told is what is needed, unless that is beyond a word. -/
theorem tells_or_beyond {behaviour : Behaviour} {limit : Nat} {arguments : Arguments}
    {growth : Int} (tells : behaviour.Tells limit arguments growth) :
    ∃ needed, behaviour.Foresees limit arguments needed ∧
      (growth = needed ∨ behaviour.Beyond arguments growth needed) := by
  -- Where the arguments do not have the shape that a behaviour takes apart, nothing is foreseen.
  obtain ⟨stack, alt⟩ := arguments
  cases behaviour
  case copyTop =>
    match stack with
    | [top] =>
      refine ⟨top.nestedCount, ?_, beyond_of_copy (tells top rfl) (by simp)⟩
      rintro _ ⟨⟩
      rfl
    | [] | _ :: _ :: _ => exact ⟨growth, nofun, .inl rfl⟩
  case tuck =>
    match stack with
    | [top, below] =>
      refine ⟨top.nestedCount, ?_, beyond_of_copy (tells top below rfl) (by simp)⟩
      rintro _ _ ⟨⟩
      rfl
    | [] | [_] | _ :: _ :: _ :: _ => exact ⟨growth, nofun, .inl rfl⟩
  case copySecond =>
    match stack with
    | [top, below] =>
      refine ⟨below.nestedCount, ?_, beyond_of_copy (tells top below rfl) (by simp)⟩
      rintro _ _ ⟨⟩
      rfl
    | [] | [_] | _ :: _ :: _ :: _ => exact ⟨growth, nofun, .inl rfl⟩
  case copyFromAlt =>
    match alt with
    | [item] =>
      refine ⟨item.nestedCount, ?_, beyond_of_copy (tells item rfl) (by simp)⟩
      rintro _ ⟨⟩
      rfl
    | [] | _ :: _ :: _ => exact ⟨growth, nofun, .inl rfl⟩
  case copyAt =>
    refine needed_of_counted fun count items size only counted => ?_
    have told := tells count items size only counted
    cases last : items.getLast? with
    | none =>
      rw [last] at told
      exact .inl told
    | some item =>
      rw [last] at told
      have below : item ∈ stack := by
        rw [show stack = count :: items from only]
        exact List.mem_cons_of_mem count (List.mem_of_getLast? last)
      exact beyond_of_copy told (.inl below)
  case pack =>
    refine needed_of_counted fun count items size only counted => ?_
    have few : items.length < stack.length := by
      rw [show stack = count :: items from only]
      exact Nat.lt_succ_self _
    exact beyond_of_pack (tells count items size only counted) (Nat.lt_add_right _ few)
  case unpack =>
    match stack with
    | [item] =>
      cases unpacked : item.unpack with
      | error fault =>
        refine ⟨growth, ?_, .inl rfl⟩
        rintro _ out ⟨⟩ unpacks
        cases unpacked.symm.trans unpacks
      | ok out =>
        refine ⟨-item.parts.length, ?_, ?_⟩
        · rintro _ _ ⟨⟩ _
          rfl
        exact beyond_of_unpack (tells item out rfl unpacked) (.inl List.mem_cons_self)
    | [] | _ :: _ :: _ => exact ⟨growth, nofun, .inl rfl⟩
  all_goals exact ⟨growth, tells, .inl rfl⟩

end Behaviour

namespace Opcode

theorem altIn_standardEntry (opcode : Opcode) :
    opcode.standardEntry.demand.altIn = opcode.standardEntry.behaviour.takesAlt := by
  cases opcode <;> rfl

theorem growth_standardEntry (opcode : Opcode) :
    opcode.standardEntry.demand.growth = opcode.standardEntry.behaviour.fixedGrowth := by
  cases opcode <;> rfl

theorem stackIn_of_copyFromAlt {opcode : Opcode}
    (copies : opcode.standardEntry.behaviour = .copyFromAlt) :
    opcode.standardEntry.demand.stackIn = 0 := by
  cases opcode <;> first
    | rfl
    | cases copies

theorem refinement_of_growsBy (opcode : Opcode) {refinement : Refinement}
    (own : opcode.standardEntry.behaviour.growsBy? = some refinement) :
    opcode.standardEntry.refinement = some refinement := by
  cases opcode <;> first
    | exact own
    | cases own

end Opcode

namespace Refinement

/-- Whether a refinement leaves the growth alone. -/
def keepsGrowth : Refinement → Bool
  | .dropAt | .clear | .roll | .reverseCounted | .newBuffer | .join | .append => true
  | _ => false

variable (host : Host) (frame : Frame) (instruction : Instruction)

theorem resolve_keepsGrowth {refinement : Refinement} (keeps : refinement.keepsGrowth = true) :
    Ensures (fun demand => demand.growth = instruction.demand.growth)
      (refinement.resolve host frame instruction) := by
  cases refinement
  case dropAt | clear | roll | reverseCounted | newBuffer | join | append =>
    dsimp only [resolve]
    refine Ensures.ok ?_
    repeat' split
    all_goals rfl
  all_goals cases keeps

theorem resolve_altIn (refinement : Refinement) :
    Ensures (fun demand => demand.altIn = instruction.demand.altIn)
      (refinement.resolve host frame instruction) := by
  cases refinement
  case service => exact Ensures.bind_any fun _ => Ensures.pure rfl
  all_goals
    dsimp only [resolve]
    repeat' with_reducible first
      | exact Ensures.error _
      | refine Ensures.ok ?_
      | split
  all_goals rfl

/-! ### Growth, refinement by refinement

What each refinement works out, in terms of what it sees on the stack. Behaviours get the same items
as arguments, so this can be compared with what they need. -/

variable {frame}

/-- A count beyond the largest word is told as the largest signed word, and so are the items that it
counts. -/
theorem slots_of_saturate {size length : Nat} (packed : length + 1 = saturate (size + 1)) :
    slots size = slots length := by
  have words : signedMax < wordMax := by decide
  unfold saturate at packed
  unfold slots
  congr 1
  omega

theorem growth_copyAt {size : Nat} (counts : frame.peekCount? host.limits 0 = some size) :
    Ensures (fun demand => demand.stackIn = size + 2 ∧
        demand.growth = copyGrowth (frame.peek? (size + 1)))
      (copyAt.resolve host frame instruction) := by
  dsimp only [resolve]
  rw [counts]
  dsimp only
  split
  · rename_i near
    refine Ensures.ok ⟨?_, rfl⟩
    show saturate (size + 2) = size + 2
    unfold saturate
    omega
  · exact Ensures.error _

theorem growth_pack {size : Nat} (counts : frame.peekCount? host.limits 0 = some size) :
    Ensures (fun demand => demand.stackIn = saturate (size + 1) ∧ demand.growth = slots size)
      (pack.resolve host frame instruction) := by
  dsimp only [resolve]
  rw [counts]
  exact Ensures.ok ⟨rfl, rfl⟩

theorem growth_newSized {size : Nat} (counts : frame.peekCount? host.limits 0 = some size) :
    Ensures (fun demand => demand.growth = slots size)
      (newSized.resolve host frame instruction) := by
  dsimp only [resolve]
  rw [counts]
  exact Ensures.ok rfl

/-- The parts of an item that can be taken apart are no longer nested. -/
theorem growth_unpack {item : Item} {out : List Item} (there : frame.peek? 0 = some item)
    (unpacked : item.unpack = .ok out) :
    Ensures (fun demand => demand.growth = -slots item.parts.length)
      (unpack.resolve host frame instruction) := by
  dsimp only [resolve]
  rw [there]
  refine Ensures.ok ?_
  cases item with
  | array items | struct items => rfl
  | map entries =>
    have twice : (Item.map entries).parts.length = 2 * entries.length := by
      simp [Item.parts, Nat.mul_comm]
    rw [twice]
  | _ => cases unpacked

theorem growth_setItem {key item : Item} (there : frame.peek? 2 = some item)
    (named : frame.peek? 1 = some key) (plain : instruction.demand.growth = 0) :
    Ensures (fun demand => demand.growth = (Item.newSlots key item : Int))
      (setItem.resolve host frame instruction) := by
  dsimp only [resolve]
  rw [there, named]
  refine Ensures.ok ?_
  cases item with
  | map entries =>
    dsimp only [Item.newSlots]
    split
    · exact plain
    · rfl
  | _ => exact plain

end Refinement

theorem Opcode.stackIn_lt_wordMax (opcode : Opcode) :
    opcode.standardEntry.demand.stackIn < wordMax := by
  cases opcode <;> decide

theorem Opcode.keepsCounts_of_computes (opcode : Opcode)
    (computes : opcode.standardEntry.behaviour.computes = true) {refinement : Refinement}
    (refined : opcode.standardEntry.refinement = some refinement) :
    refinement.keepsCounts = true := by
  cases opcode <;> cases refined <;> first
    | rfl
    | cases computes

theorem Opcode.keepsGrowth_standardEntry (opcode : Opcode)
    (calm : opcode.standardEntry.behaviour.growsBy? = none) {refinement : Refinement}
    (refined : opcode.standardEntry.refinement = some refinement) :
    refinement.keepsGrowth = true := by
  cases opcode <;> cases refined <;> first
    | rfl
    | cases calm

/-! ## What is declared and what is foreseen

The argument of the behaviour and the item that the refinement saw are one and the same, since the
demand itself says how many items are taken. With this the growth of an instruction that is found is
what its behaviour needs. -/

namespace Frame

variable {frame : Frame}

theorem length_le_totalSize (frame : Frame) : frame.stack.length ≤ frame.totalSize := by
  unfold totalSize ownSize
  omega

/-- What an instruction leaves is what there was, less its arguments, and its results. -/
theorem Counted.totalSize_completed (counted : frame.Counted) (instruction : Instruction)
    (results : Results) :
    (frame.completed instruction results).totalSize
        + ((frame.argumentsOf instruction).count + (frame.argumentsOf instruction).nested) =
      frame.totalSize + (results.count + results.nested) := by
  have taken := counted.taken_add_charged instruction
  unfold Frame.totalSize Frame.ownSize Arguments.count Arguments.nested Results.count Results.nested
  rw [stack_completed, alt_completed, nested_completed, callerStack_completed,
    callerAlt_completed]
  unfold argumentsOf at taken ⊢
  dsimp only at taken ⊢
  simp only [List.length_append, List.length_drop, List.length_take]
  omega

theorem count_argumentsOf {instruction : Instruction}
    (stackIn : instruction.demand.stackIn ≤ frame.stack.length)
    (altIn : instruction.demand.altIn ≤ frame.alt.length) :
    (frame.argumentsOf instruction).count =
      instruction.demand.stackIn + instruction.demand.altIn :=
  congrArg₂ (· + ·) (List.length_take_of_le stackIn) (List.length_take_of_le altIn)

/-- The arguments of an instruction have been counted. -/
theorem Counted.arguments_le (counted : frame.Counted) (instruction : Instruction) :
    (frame.argumentsOf instruction).count + (frame.argumentsOf instruction).nested ≤
      frame.totalSize := by
  have taken := counted.taken_add_charged instruction
  unfold Frame.totalSize Frame.ownSize Arguments.count Arguments.nested
  unfold argumentsOf at taken ⊢
  dsimp only at taken ⊢
  simp only [List.length_take]
  omega

end Frame

namespace Machine

variable {machine : Machine} {invocation : Invocation} {frame : Frame} {instruction : Instruction}

theorem altIn_of_found (standard : machine.table = {})
    (found : machine.instructionAt? invocation frame = some instruction) :
    instruction.demand.altIn = instruction.behaviour.takesAlt := by
  obtain ⟨base, readWith, resolves⟩ := readWith_standardEntry standard found
  have declared : base.demand.altIn = base.behaviour.takesAlt := by
    rw [readWith.demand, readWith.behaviour]
    exact base.opcode.altIn_standardEntry
  cases resolves with
  | fixed _ => exact declared
  | refined refinement demand _ resolved =>
    exact (refinement.resolve_altIn _ _ _ demand resolved).trans declared

theorem growth_of_found (standard : machine.table = {})
    (found : machine.instructionAt? invocation frame = some instruction)
    (calm : instruction.behaviour.growsBy? = none) :
    instruction.demand.growth = instruction.behaviour.fixedGrowth := by
  obtain ⟨base, readWith, resolves⟩ := readWith_standardEntry standard found
  have declared : base.demand.growth = base.behaviour.fixedGrowth := by
    rw [readWith.demand, readWith.behaviour]
    exact base.opcode.growth_standardEntry
  cases resolves with
  | fixed _ => exact declared
  | refined refinement demand refined resolved =>
    dsimp only at calm
    rw [readWith.behaviour] at calm
    have keeps := base.opcode.keepsGrowth_standardEntry calm (readWith.refinement ▸ refined)
    exact (Refinement.resolve_keepsGrowth _ _ _ keeps demand resolved).trans declared

/-- The growth of a behaviour that has a refinement for it. -/
theorem grown_of_found (standard : machine.table = {})
    (found : machine.instructionAt? invocation frame = some instruction) {refinement : Refinement}
    (own : instruction.behaviour.growsBy? = some refinement) :
    ∃ base : Instruction, base.demand.growth = instruction.behaviour.fixedGrowth ∧
      base.demand.stackIn = instruction.opcode.standardEntry.demand.stackIn ∧
        refinement.resolve (machine.host invocation) frame base = .ok instruction.demand := by
  have behaviour := behaviour_of_standard standard found
  rw [behaviour] at own ⊢
  obtain ⟨base, readWith, same, resolved⟩ :=
    resolved_of_refinement standard found (instruction.opcode.refinement_of_growsBy own)
  rw [← same]
  refine ⟨base, ?_, ?_, resolved⟩
  · rw [readWith.demand]
    exact base.opcode.growth_standardEntry
  · rw [readWith.demand]

/-- The growth that is declared is what the behaviour needs, as far as signed words go. -/
theorem tells_of_found (standard : machine.table = {})
    (found : machine.instructionAt? invocation frame = some instruction)
    (enough : instruction.demand.stackIn ≤ frame.stack.length)
    (ordinary : instruction.behaviour ≠ .systemCall) :
    instruction.behaviour.Tells machine.config.limits.integerSize
      (frame.argumentsOf instruction) instruction.demand.growth := by
  have taken : (frame.argumentsOf instruction).stack.length = instruction.demand.stackIn :=
    List.length_take_of_le enough
  have peeked {place : Nat} {item : Item}
      (there : (frame.argumentsOf instruction).stack[place]? = some item) :
      frame.peek? place = some item := Frame.peek?_of_take rfl there
  have copied {place : Nat} {item : Item} (there : frame.peek? place = some item) :
      copyGrowth (frame.peek? place) = slots item.nestedCount := by
    rw [there]
    rfl
  have calm := growth_of_found standard found
  have own {refinement : Refinement}
      (grows : instruction.behaviour.growsBy? = some refinement) :=
    grown_of_found standard found grows
  cases behaviour : instruction.behaviour
  all_goals rw [behaviour] at own calm
  case systemCall => exact absurd behaviour ordinary
  case copyTop =>
    obtain ⟨base, _, _, resolved⟩ := own rfl
    intro top only
    rw [← Except.ok.inj resolved]
    exact copied (peeked (by rw [only]; rfl))
  case tuck =>
    obtain ⟨base, _, _, resolved⟩ := own rfl
    intro top below only
    rw [← Except.ok.inj resolved]
    exact copied (peeked (by rw [only]; rfl))
  case copySecond =>
    obtain ⟨base, _, _, resolved⟩ := own rfl
    intro top below only
    rw [← Except.ok.inj resolved]
    exact copied (peeked (by rw [only]; rfl))
  case copyFromAlt =>
    obtain ⟨base, _, _, resolved⟩ := own rfl
    intro item only
    have first : frame.alt.take instruction.demand.altIn = [item] := only
    have there : frame.peekAlt? 0 = some item := by
      have top := congrArg (·[0]?) first
      rw [List.getElem?_take] at top
      split at top
      · exact top
      · cases top
    dsimp only [Refinement.resolve] at resolved
    rw [← Except.ok.inj resolved, there]
    rfl
  case copyAt =>
    obtain ⟨base, _, _, resolved⟩ := own rfl
    intro count items size only counts
    obtain ⟨stackIn, growth⟩ :=
      Refinement.growth_copyAt _ _ (Frame.peekCount?_of_take only counts) _ resolved
    rw [only, List.length_cons] at taken
    have depth : items.length + 1 = size + 2 := taken.trans stackIn
    have some_ : items ≠ [] := List.ne_nil_of_length_eq_add_one (Nat.succ.inj depth)
    have last := List.getLast?_eq_some_getLast some_
    -- The item that is copied lies below the count and as many items as it says.
    have deepest : items[size]? = some (items.getLast some_) := by
      rw [← last, List.getLast?_eq_getElem?, Nat.succ.inj depth]
      rfl
    rw [growth, last]
    refine copied (peeked ?_)
    rw [only, List.getElem?_cons_succ]
    exact deepest
  case pack =>
    obtain ⟨base, _, _, resolved⟩ := own rfl
    intro count items size only counts
    obtain ⟨stackIn, growth⟩ :=
      Refinement.growth_pack _ _ (Frame.peekCount?_of_take only counts) _ resolved
    rw [only, List.length_cons] at taken
    rw [growth]
    exact Refinement.slots_of_saturate (taken.trans stackIn)
  case unpack =>
    obtain ⟨base, _, _, resolved⟩ := own rfl
    intro item out only unpacked
    have there : frame.peek? 0 = some item := peeked (by rw [only]; rfl)
    exact Refinement.growth_unpack _ _ there unpacked _ resolved
  case newSized =>
    obtain ⟨base, _, _, resolved⟩ := own rfl
    intro item size only counts
    exact Refinement.growth_newSized _ _ (Frame.peekCount?_of_take only counts) _ resolved
  case setItem =>
    obtain ⟨base, fixed, _, resolved⟩ := own rfl
    intro value key item only
    have there : frame.peek? 2 = some item := peeked (by rw [only]; rfl)
    have named : frame.peek? 1 = some key := peeked (by rw [only]; rfl)
    exact Refinement.growth_setItem _ _ there named fixed _ resolved
  all_goals exact calm rfl

/-! ## What an instruction leaves

By then all that can differ from what was declared has been excluded: the counts, by what the table
declares, and the growth, by what the behaviours give. -/

theorem fed_of_found (standard : machine.table = {})
    (found : machine.instructionAt? invocation frame = some instruction)
    (enough : instruction.demand.altIn ≤ frame.alt.length) :
    instruction.behaviour.Fed (frame.argumentsOf instruction) := by
  constructor
  case alt =>
    have taken : (frame.argumentsOf instruction).alt.length = instruction.demand.altIn :=
      List.length_take_of_le enough
    exact taken.trans (altIn_of_found standard found)
  case stack =>
    intro copies
    obtain ⟨base, _, stackIn, resolved⟩ := grown_of_found standard found (by rw [copies]; rfl)
    have same : instruction.demand.stackIn = base.demand.stackIn :=
      (Refinement.resolve_keepsCounts _ _ _ rfl _ resolved).stackIn
    rw [behaviour_of_standard standard found] at copies
    have none : instruction.demand.stackIn = 0 := by
      rw [same, stackIn, Opcode.stackIn_of_copyFromAlt copies]
    unfold Frame.argumentsOf
    rw [none]
    rfl

/-- What computes takes a few items, and never as many as it is told. -/
theorem few_of_computes (standard : machine.table = {})
    (found : machine.instructionAt? invocation frame = some instruction)
    (computes : instruction.behaviour.computes = true) :
    instruction.demand.stackIn < wordMax := by
  obtain ⟨base, readWith, resolves⟩ := readWith_standardEntry standard found
  have same : instruction.behaviour = base.opcode.standardEntry.behaviour := by
    cases resolves <;> exact readWith.behaviour
  rw [same] at computes
  have few : base.demand.stackIn < wordMax := by
    rw [readWith.demand]
    exact base.opcode.stackIn_lt_wordMax
  cases resolves with
  | fixed _ => exact few
  | refined refinement demand refined resolved =>
    have keeps := base.opcode.keepsCounts_of_computes computes (readWith.refinement ▸ refined)
    exact (Refinement.resolve_keepsCounts _ _ _ keeps demand resolved).stackIn ▸ few

/-- An instruction that goes through has given as many results as it declares. -/
theorem counts_of_run (standard : machine.table = {})
    (found : machine.instructionAt? invocation frame = some instruction)
    (enough : instruction.demand.stackIn ≤ frame.stack.length)
    (word : instruction.demand.stackIn < wordMax) {world : World} {results : Results}
    (ran : instruction.behaviour.run (machine.host invocation) instruction
      (frame.charged instruction) world (frame.argumentsOf instruction) = .ok results) :
    results.stack.length = instruction.demand.stackOut ∧
      results.alt.length = instruction.demand.altOut := by
  have room := Behaviour.run_hasRoom _ _ _ _ results ran
  exact (run_sound_of_hasRoom standard found enough word room world).ensures results ran

/-- The results of an instruction need no more than the growth that was declared, or than what is
too much to be declared. -/
theorem grows_or_beyond_of_run (standard : machine.table = {})
    (found : machine.instructionAt? invocation frame = some instruction)
    (stackIn : instruction.demand.stackIn ≤ frame.stack.length)
    (altIn : instruction.demand.altIn ≤ frame.alt.length) {world : World} {results : Results}
    (ran : instruction.behaviour.run (machine.host invocation) instruction
      (frame.charged instruction) world (frame.argumentsOf instruction) = .ok results)
    (stackOut : results.stack.length = instruction.demand.stackOut)
    (altOut : results.alt.length = instruction.demand.altOut) :
    ∃ needed, results.Grows (frame.argumentsOf instruction) needed ∧
      (instruction.demand.growth = needed ∨ instruction.behaviour.Beyond
        (frame.argumentsOf instruction) instruction.demand.growth needed) := by
  by_cases system : instruction.behaviour = .systemCall
  · have opcode := opcode_of_systemCall standard found system
    obtain ⟨service, named, demand⟩ := demand_of_SYSCALL standard found opcode
    refine ⟨_, ?_, .inl rfl⟩
    rw [system] at ran
    have served := Behaviour.run_systemCall _ _ _ _ _ named results ran
    rw [demand] at stackOut altOut stackIn ⊢
    have given : (frame.argumentsOf instruction).stack.length = service.arity := by
      rw [Frame.argumentsOf, demand]
      exact List.length_take_of_le stackIn
    exact service.run_grows _ _ _ given results served stackOut altOut
  by_cases computes : instruction.behaviour.computes = true
  · obtain ⟨calm, fixed⟩ := Behaviour.grows_of_computes computes
    have notUnpack : instruction.behaviour ≠ .unpack := by
      intro unpacks
      rw [unpacks] at computes
      cases computes
    have declares := declares_of_found standard found notUnpack system
      (few_of_computes standard found computes)
    have plain := Behaviour.run_computes _ _ _ _ _ _ computes results ran
    refine ⟨_, ?_, .inl rfl⟩
    rw [growth_of_found standard found calm, fixed]
    refine Results.grows_of_flat (plain.mono fun _ => Item.nestedCount_of_isPlain) ?_
    rw [Results.count, stackOut, altOut, declares.stackOut, declares.altOut]
    exact Behaviour.gives_of_computes computes _
  have fed := fed_of_found standard found altIn
  have tells := tells_of_found standard found stackIn system
  obtain ⟨needed, foreseen, told⟩ := Behaviour.tells_or_beyond tells
  refine ⟨needed, ?_, told⟩
  by_cases moves : instruction.behaviour.moves = true
  · exact Behaviour.run_moves_grows _ _ _ moves fed foreseen results ran
  have own (stack alt : List Item) : instruction.behaviour ≠ .constant stack alt := by
    rw [behaviour_of_standard standard found]
    exact Opcode.standardEntry_ne_constant _ _ _
  exact Behaviour.run_makes_grows _ _ _ (Bool.eq_false_iff.2 moves) (Bool.eq_false_iff.2 computes)
    system own fed foreseen results ran

/-- Nothing is beyond a word in a frame that a signed word can count. -/
theorem grows_of_run (standard : machine.table = {})
    (found : machine.instructionAt? invocation frame = some instruction)
    (counted : frame.Counted) (small : frame.totalSize ≤ signedMax)
    (stackIn : instruction.demand.stackIn ≤ frame.stack.length)
    (altIn : instruction.demand.altIn ≤ frame.alt.length) {world : World} {results : Results}
    (ran : instruction.behaviour.run (machine.host invocation) instruction
      (frame.charged instruction) world (frame.argumentsOf instruction) = .ok results)
    (stackOut : results.stack.length = instruction.demand.stackOut)
    (altOut : results.alt.length = instruction.demand.altOut) :
    results.Grows (frame.argumentsOf instruction) instruction.demand.growth := by
  obtain ⟨needed, grows, rfl | beyond⟩ :=
    grows_or_beyond_of_run standard found stackIn altIn ran stackOut altOut
  · exact grows
  have given := counted.arguments_le instruction
  cases beyond with
  | copy full more inside => omega
  | pack packs more few => omega
  | unpack less inside => omega

/-! ## The check before and the size after

The check would be too mild if it let an instruction pass which then leaves too much, and too strict
if it refused one which would have left no more than allowed. What the check says is tied to the
size worked out by `Limits.check_of_size_lt` and `Limits.size_lt_of_check`, and this size to the one
afterwards by what the results need (`Results.Grows`). -/

/-- Results that need no more than the growth leave no more than was worked out. -/
theorem totalSize_le_sizeAfter (counted : frame.Counted) {results : Results}
    (stackIn : instruction.demand.stackIn ≤ frame.stack.length)
    (altIn : instruction.demand.altIn ≤ frame.alt.length)
    (stackOut : results.stack.length = instruction.demand.stackOut)
    (altOut : results.alt.length = instruction.demand.altOut)
    (grows : results.Grows (frame.argumentsOf instruction) instruction.demand.growth) :
    ((frame.completed instruction results).totalSize : Int) ≤
      frame.sizeAfter instruction.demand := by
  obtain ⟨nested, _⟩ := grows
  have size := counted.totalSize_completed instruction results
  have given := Frame.count_argumentsOf stackIn altIn
  have made : results.count = instruction.demand.stackOut + instruction.demand.altOut :=
    congrArg₂ (· + ·) stackOut altOut
  unfold Frame.sizeAfter
  omega

/-- The size that is checked before an instruction acts, and the size that its results leave. -/
structure ForeseesSize (machine : Machine) (invocation : Invocation) (frame : Frame)
    (world : World) (instruction : Instruction) (results : Results) : Prop where
  stackOut : results.stack.length = instruction.demand.stackOut
  altOut : results.alt.length = instruction.demand.altOut
  /-- The stacks get no larger than was worked out. -/
  enough : ((frame.completed instruction results).totalSize : Int) ≤
    frame.sizeAfter instruction.demand
  /-- So nothing is found to be too large afterwards. -/
  goesOn : frame.isRunning = true → machine.config.limits.check frame instruction = .ok () →
    (instruction.fee : Int) ≤ frame.gas →
      machine.step invocation frame world = (frame.completed instruction results, results.world)
  /-- What is refused for its size would have been too large. -/
  needed : (machine.config.limits.stackSize : Int) < frame.sizeAfter instruction.demand →
    machine.config.limits.stackSize < (frame.completed instruction results).totalSize
  /-- The check itself refuses the instruction for its size just if that would have been so. -/
  refuses : (∃ size limit, machine.config.limits.check frame instruction =
      .error (.stackOverflow size limit)) ↔
    machine.config.limits.stackSize < (frame.completed instruction results).totalSize

/-- Whatever instruction of the standard table is found in a frame that counts right and is below a
ceiling that fits a signed word: if its arguments are there and its behaviour goes through, the
check of the stack size has been neither too mild nor too strict. -/
theorem foreseesSize_of_run (config : Config) (invocation : Invocation) (frame : Frame)
    (world : World) (instruction : Instruction) (results : Results)
    (bounded : config.limits.stackSize < 2 ^ 63) (counted : frame.Counted)
    (fits : frame.totalSize ≤ config.limits.stackSize)
    (found : (standard config).instructionAt? invocation frame = some instruction)
    (stackIn : instruction.demand.stackIn ≤ frame.stack.length)
    (altIn : instruction.demand.altIn ≤ frame.alt.length)
    (ran : instruction.behaviour.run ((standard config).host invocation) instruction
      (frame.charged instruction) world (frame.argumentsOf instruction) = .ok results) :
    (standard config).ForeseesSize invocation frame world instruction results := by
  have small : frame.totalSize ≤ signedMax := by
    unfold signedMax
    omega
  have word : instruction.demand.stackIn < wordMax :=
    (stackIn.trans (frame.length_le_totalSize.trans small)).trans_lt (by decide)
  obtain ⟨stackOut, altOut⟩ := counts_of_run rfl found stackIn word ran
  have grows := grows_of_run rfl found counted small stackIn altIn ran stackOut altOut
  have enough := totalSize_le_sizeAfter counted stackIn altIn stackOut altOut grows
  obtain ⟨nested, tight⟩ := grows
  have size := counted.totalSize_completed instruction results
  have given := Frame.count_argumentsOf stackIn altIn
  have made : results.count = instruction.demand.stackOut + instruction.demand.altOut :=
    congrArg₂ (· + ·) stackOut altOut
  have needed : (config.limits.stackSize : Int) < frame.sizeAfter instruction.demand →
      config.limits.stackSize < (frame.completed instruction results).totalSize := by
    intro large
    unfold Frame.sizeAfter at large
    -- Where less is left than was worked out, that was no more than what was there before.
    rcases tight with same | fewer
    · omega
    · omega
  constructor
  case stackOut => exact stackOut
  case altOut => exact altOut
  case enough => exact enough
  case goesOn =>
    intro running passed affordable
    have admitted := Limits.admits_of_check passed
    have room : ((frame.completed instruction results).totalSize : Int) ≤
        config.limits.stackSize := enough.trans admitted.size
    exact step_of_acts running ⟨found, admitted, affordable, ran, stackOut, altOut⟩
      (Int.ofNat_le.1 room)
  case needed => exact needed
  case refuses =>
    constructor
    · rintro ⟨size, limit, refused⟩
      exact needed (Limits.size_lt_of_check refused)
    · intro large
      have foreseen := (Int.ofNat_lt.2 large).trans_le enough
      exact ⟨_, _, Limits.check_of_size_lt stackIn altIn foreseen⟩

/-- A frame that is about to copy an array of one element. -/
def arrayCopier : Frame :=
  Launch.start
    { code := [Opcode.DUP.code]
      gas := 1_000
      depth := 1
      entry := Hash.zero
      calling := none
      residue := { stack := [.array [.null]] } }

/-- With a ceiling of three items the copy is refused, and would have left four. -/
theorem foreseesSize_arrayCopier :
    let config : Config := { limits := { stackSize := 3 } }
    ∃ instruction results,
      (config.limits.stackSize < 2 ^ 63 ∧ arrayCopier.Counted ∧
        arrayCopier.totalSize ≤ config.limits.stackSize) ∧
      (arrayCopier.sizeAfter instruction.demand = 4 ∧
        (arrayCopier.completed instruction results).totalSize = 4) ∧
      config.limits.check arrayCopier instruction = .error (.stackOverflow 4 3) ∧
      (standard config).ForeseesSize {} arrayCopier {} instruction results := by
  let config : Config := { limits := { stackSize := 3 } }
  let instruction : Instruction :=
    { opcode := .DUP
      operand := []
      size := 1
      demand := { stackIn := 1, stackOut := 2, growth := 1 }
      behaviour := .copyTop
      refinement := some .copyTop }
  let results : Results := .many [.array [.null], .array [.null]] {}
  have below : config.limits.stackSize < 2 ^ 63 ∧ arrayCopier.Counted ∧
      arrayCopier.totalSize ≤ config.limits.stackSize :=
    ⟨by decide, rfl, by decide⟩
  have found : (standard config).instructionAt? {} arrayCopier = some instruction := rfl
  have sizes : arrayCopier.sizeAfter instruction.demand = 4 ∧
      (arrayCopier.completed instruction results).totalSize = 4 := by
    decide
  exact ⟨instruction, results, below, sizes, rfl, foreseesSize_of_run config {} arrayCopier {}
    instruction results below.1 below.2.1 below.2.2 found (by decide) (by decide) rfl⟩

end Machine

end GasMachine
