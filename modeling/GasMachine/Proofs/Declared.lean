import GasMachine.Proofs.Arity
import GasMachine.Proofs.Demand

/-!
# Results are as declared

The table declares how many items an instruction takes and gives, the refinement corrects it for the
operand and the stacks at hand, and the behaviour does as it does. Nothing but care keeps the three
in step. Here it is shown that they are: an instruction of the standard table that is admitted gives
what it declared, or fails for a reason of the script's own (`Machine.run_sound`). Where the count
on the stack is of no use the refinement leaves the demand alone, and the behaviour, which reads the
same count, fails.
-/

set_option autoImplicit false

namespace GasMachine

open TwosComplement (signedMax wordMax)

/-! ## What is declared -/

namespace Behaviour

/-- What a demand declares is what a behaviour gives. -/
structure Declares (behaviour : Behaviour) (demand : Demand) : Prop where
  accepts : behaviour.Accepts demand.stackIn
  stackOut : demand.stackOut = behaviour.gives demand.stackIn
  altOut : demand.altOut = behaviour.givesAlt

/-- The refinement on which a behaviour relies for more than the number of arguments. -/
def refinement? : Behaviour → Option Refinement
  | .unpack => some .unpack
  | .newBuffer => some .newBuffer
  | .join => some .join
  | .pack => some .pack
  | .newSized => some .newSized
  | .append => some .append
  | .setItem => some .setItem
  | _ => none

end Behaviour

/-! ## The table and the refinements

The table is checked entry by entry: what it declares fits the behaviour, and each behaviour that
needs a refinement comes with its own. A refinement may then change the counts, but only together
with what the behaviour does (`Suits`, `resolve_declares`).

Counts stop at the largest word, so that a declared count may be too small. Then as many items are
wanted as no stack has, and the instruction is refused before it acts. -/

namespace Refinement

/-- Whether a refinement leaves alone how many items are taken and given. -/
def keepsCounts : Refinement → Bool
  | .copyTop | .copySecond | .copyFromAlt | .newBuffer | .join | .newSized | .append | .setItem =>
    true
  | _ => false

/-- A refinement is made for a behaviour. -/
inductive Suits : Refinement → Behaviour → Prop where
  | dropAt : Suits .dropAt .dropAt
  | clear : Suits .clear .dropItems
  | copyAt : Suits .copyAt .copyAt
  | roll : Suits .roll .roll
  | reverseCounted : Suits .reverseCounted .reverseCounted
  | pack : Suits .pack .pack
  | unpack : Suits .unpack .unpack
  | service : Suits .service .systemCall
  /-- Growth and sizes may be worked out for any behaviour. -/
  | counts {refinement : Refinement} (keeps : refinement.keepsCounts = true)
    (behaviour : Behaviour) : Suits refinement behaviour

/-- What a refinement leaves alone if it keeps the counts. -/
structure SameCounts (before after : Demand) : Prop where
  stackIn : after.stackIn = before.stackIn
  stackOut : after.stackOut = before.stackOut
  altOut : after.altOut = before.altOut

end Refinement

theorem Opcode.knows_standardEntry (opcode : Opcode) :
    opcode.standardEntry.behaviour.knows opcode = true := by
  cases opcode <;> rfl

theorem Opcode.declares_standardEntry (opcode : Opcode)
    (ordinary : opcode.standardEntry.behaviour ≠ .systemCall) :
    opcode.standardEntry.behaviour.Declares opcode.standardEntry.demand := by
  cases opcode
  case SYSCALL => exact absurd rfl ordinary
  all_goals exact ⟨by first | rfl | trivial | exact Nat.one_pos, rfl, rfl⟩

theorem Opcode.suits_standardEntry (opcode : Opcode) {refinement : Refinement}
    (refined : opcode.standardEntry.refinement = some refinement) :
    refinement.Suits opcode.standardEntry.behaviour := by
  cases opcode <;> cases refined <;> first
    | exact .counts rfl _
    | constructor

/-- A behaviour that relies on its refinement for more than the counts comes with it. -/
theorem Opcode.refinement_of_behaviour (opcode : Opcode) {refinement : Refinement}
    (own : opcode.standardEntry.behaviour.refinement? = some refinement) :
    opcode.standardEntry.refinement = some refinement := by
  cases opcode <;> first
    | exact own
    | cases own

namespace Frame

/-- What a refinement sees at a place is what the behaviour gets there. -/
theorem peek?_of_take {frame : Frame} {taken place : Nat} {items : List Item} {item : Item}
    (arguments : frame.stack.take taken = items) (there : items[place]? = some item) :
    frame.peek? place = some item := by
  rw [← arguments, List.getElem?_take] at there
  split at there
  · exact there
  · cases there

theorem peekCount?_of_take {frame : Frame} {limits : Limits} {taken size : Nat} {item : Item}
    {rest : List Item} (top : frame.stack.take taken = item :: rest)
    (counted : item.toCount limits.integerSize = .ok size) :
    frame.peekCount? limits 0 = some size := by
  unfold peekCount?
  rw [peek?_of_take top rfl]
  dsimp only [Option.bind_eq_bind, Option.bind_some]
  rw [counted]

theorem peekLength_of_toBytes {frame : Frame} {place : Nat} {item : Item} {content : Bytes}
    (there : frame.peek? place = some item) (bytes : item.toBytes = .ok content) :
    frame.peekLength place = content.length := by
  have length : item.byteLength? = some content.length :=
    Item.byteLength?_eq_some_iff.2 ⟨content, bytes, rfl⟩
  unfold peekLength
  rw [there, Option.bind_some, length]
  rfl

end Frame

namespace Refinement

variable (host : Host) (frame : Frame) (instruction : Instruction)

theorem resolve_keepsCounts {refinement : Refinement} (keeps : refinement.keepsCounts = true) :
    Ensures (SameCounts instruction.demand) (refinement.resolve host frame instruction) := by
  cases refinement
  case dropAt | clear | copyAt | roll | reverseCounted | pack | unpack | service => cases keeps
  all_goals
    dsimp only [resolve]
    refine Ensures.ok ?_
    repeat' split
  all_goals exact ⟨rfl, rfl, rfl⟩

theorem saturate_of_le {less count : Nat} (le : less ≤ count) (small : saturate count < wordMax) :
    saturate less = less := by
  unfold saturate at small ⊢
  omega

theorem saturate_pos (count : Nat) : 0 < saturate (count + 1) := by
  unfold saturate wordMax
  omega

/-- A refined demand declares what the behaviour gives, if the base demand did. -/
theorem resolve_declares {refinement : Refinement} {behaviour : Behaviour}
    (suits : refinement.Suits behaviour) (notUnpack : behaviour ≠ .unpack)
    (ordinary : behaviour ≠ .systemCall) (declared : behaviour.Declares instruction.demand) :
    Ensures (fun demand => demand.stackIn < wordMax → behaviour.Declares demand)
      (refinement.resolve host frame instruction) := by
  -- A count that is of no use leaves the demand as it was. One that does not fit a word asks for
  -- more items than any stack can hold.
  cases suits with
  | counts keeps =>
    refine (resolve_keepsCounts host frame instruction keeps).mono fun demand same _ => ?_
    obtain ⟨accepts, stackOut, altOut⟩ := declared
    exact ⟨same.stackIn ▸ accepts, by rw [same.stackOut, same.stackIn, stackOut],
      same.altOut.trans altOut⟩
  | clear => exact Ensures.ok fun _ => ⟨trivial, declared.stackOut, declared.altOut⟩
  | dropAt =>
    dsimp only [resolve]
    cases frame.peekCount? host.limits 0 with
    | none => exact Ensures.ok fun _ => declared
    | some n =>
      refine Ensures.ok fun small => ⟨saturate_pos (n + 1), ?_, declared.altOut⟩
      show n = saturate (n + 2) - 2
      rw [saturate_of_le (Nat.le_refl _) small]
      omega
  | copyAt =>
    dsimp only [resolve]
    cases frame.peekCount? host.limits 0 with
    | none => exact Ensures.ok fun _ => declared
    | some n =>
      by_cases near : n + 1 < wordMax
      · dsimp only
        rw [if_pos near]
        exact Ensures.ok fun _ => ⟨saturate_pos (n + 1), rfl, declared.altOut⟩
      · dsimp only
        rw [if_neg near]
        exact Ensures.error _
  | roll =>
    dsimp only [resolve]
    cases frame.peekCount? host.limits 0 with
    | none => exact Ensures.ok fun _ => declared
    | some n =>
      refine Ensures.ok fun small => ⟨saturate_pos (n + 1), ?_, declared.altOut⟩
      show saturate (n + 1) = saturate (n + 2) - 1
      rw [saturate_of_le (Nat.le_refl _) small, saturate_of_le (Nat.le_succ _) small]
      rfl
  | reverseCounted =>
    dsimp only [resolve]
    cases frame.peekCount? host.limits 0 with
    | none => exact Ensures.ok fun _ => declared
    | some n =>
      refine Ensures.ok fun small => ⟨saturate_pos n, ?_, declared.altOut⟩
      show n = saturate (n + 1) - 1
      rw [saturate_of_le (Nat.le_refl _) small]
      omega
  | pack =>
    dsimp only [resolve]
    cases frame.peekCount? host.limits 0 with
    | none => exact Ensures.ok fun _ => declared
    | some n =>
      exact Ensures.ok fun _ => ⟨saturate_pos n, declared.stackOut, declared.altOut⟩
  | unpack => exact absurd rfl notUnpack
  | service => exact absurd rfl ordinary

theorem resolve_unpack :
    Ensures (fun demand => demand.stackIn = instruction.demand.stackIn ∧
        demand.altOut = instruction.demand.altOut ∧
        ∀ item out, frame.peek? 0 = some item → item.unpack = .ok out →
          demand.stackOut = out.length)
      (Refinement.unpack.resolve host frame instruction) := by
  have size {item : Item} {out : List Item} (unpacked : item.unpack = .ok out) :
      out.length = item.parts.length + 1 :=
    (item.unpack_sound : Sound True _ _).ensures out unpacked
  dsimp only [resolve]
  refine Ensures.ok ?_
  cases top : frame.peek? 0 with
  | none =>
    refine ⟨rfl, rfl, fun item out same => ?_⟩
    cases same
  | some found =>
    cases found with
    | array items | struct items =>
      refine ⟨rfl, rfl, fun item out same unpacked => ?_⟩
      cases same
      exact (size unpacked).symm
    | map entries =>
      refine ⟨rfl, rfl, fun item out same unpacked => ?_⟩
      cases same
      rw [size unpacked]
      simp [Item.parts, Nat.mul_comm]
    | _ =>
      refine ⟨rfl, rfl, fun item out same unpacked => ?_⟩
      cases same
      cases unpacked

/-- A refinement fails only for a reason of the script's own, unless it is to copy from a place that
is beyond the largest word. -/
theorem resolve_sound {given : Prop} {refinement : Refinement} (near : given →
    refinement = .copyAt → ∀ n, frame.peekCount? host.limits 0 = some n → n + 1 < wordMax) :
    Sound given (fun _ => True) (refinement.resolve host frame instruction) := by
  cases refinement
  case copyAt =>
    dsimp only [resolve]
    split
    · rename_i n counted
      split
      · exact Sound.ok trivial
      · rename_i far
        exact Sound.defect fun holds => far (near holds rfl n counted)
    · exact Sound.ok trivial
  case service =>
    exact (host.service_sound instruction).bind fun service _ => Sound.pure trivial
  all_goals exact Sound.ok trivial

end Refinement

namespace Instruction

theorem read_sound {given : Prop} (table : InstructionTable) (byte : UInt8) (following : Bytes) :
    Sound given (fun _ => True) (read table byte following) := by
  unfold read
  split
  · exact Sound.error rfl
  · split
    · exact Sound.error rfl
    · unfold ofEntry
      split
      · exact Sound.error rfl
      · exact Sound.ok trivial

end Instruction

/-! ## Instructions of the standard table

What was shown of entries and refinements is put together for the instruction that stands at a
position. How much memory it asks for is known only after the refinement has read the count, so the
behaviour has to read the same count (`hasRoom_of_found`). -/

namespace Machine

variable {machine : Machine} {invocation : Invocation} {frame : Frame} {instruction : Instruction}

theorem knows_of_found (standard : machine.table = {})
    (found : machine.instructionAt? invocation frame = some instruction) :
    instruction.behaviour.knows instruction.opcode = true := by
  rw [behaviour_of_standard standard found]
  exact instruction.opcode.knows_standardEntry

theorem declares_of_found (standard : machine.table = {})
    (found : machine.instructionAt? invocation frame = some instruction)
    (notUnpack : instruction.behaviour ≠ .unpack) (ordinary : instruction.behaviour ≠ .systemCall)
    (small : instruction.demand.stackIn < wordMax) :
    instruction.behaviour.Declares instruction.demand := by
  obtain ⟨base, readWith, resolves⟩ := readWith_standardEntry standard found
  have same : instruction.behaviour = base.opcode.standardEntry.behaviour := by
    cases resolves <;> exact readWith.behaviour
  rw [same] at notUnpack ordinary ⊢
  have declared : base.opcode.standardEntry.behaviour.Declares base.demand := by
    rw [readWith.demand]
    obtain ⟨accepts, stackOut, altOut⟩ := base.opcode.declares_standardEntry ordinary
    exact ⟨accepts, stackOut, altOut⟩
  cases resolves with
  | fixed _ => exact declared
  | refined refinement demand refined resolved =>
    have suits := base.opcode.suits_standardEntry (readWith.refinement ▸ refined)
    exact Refinement.resolve_declares _ _ _ suits notUnpack ordinary declared demand resolved small

/-- An instruction whose entry has a refinement has its demand from it. -/
theorem resolved_of_refinement (standard : machine.table = {})
    (found : machine.instructionAt? invocation frame = some instruction) {refinement : Refinement}
    (comes : instruction.opcode.standardEntry.refinement = some refinement) :
    ∃ base : Instruction, base.ReadWith base.opcode.standardEntry ∧
      base.opcode = instruction.opcode ∧
        refinement.resolve (machine.host invocation) frame base = .ok instruction.demand := by
  obtain ⟨base, readWith, resolves⟩ := readWith_standardEntry standard found
  have same : base.opcode = instruction.opcode := by cases resolves <;> rfl
  have own : base.refinement = some refinement := by rw [readWith.refinement, same, comes]
  cases resolves with
  | fixed unrefined => cases unrefined.symm.trans own
  | refined other demand refined resolved =>
    cases Option.some.inj (refined.symm.trans own)
    exact ⟨base, readWith, rfl, resolved⟩

/-- A behaviour that relies on a refinement has its demand from it. -/
theorem resolved_of_found (standard : machine.table = {})
    (found : machine.instructionAt? invocation frame = some instruction)
    (refinement : Refinement) (own : instruction.behaviour.refinement? = some refinement) :
    ∃ base : Instruction, base.ReadWith base.opcode.standardEntry ∧
      base.behaviour = instruction.behaviour ∧
        refinement.resolve (machine.host invocation) frame base = .ok instruction.demand := by
  have behaviour := behaviour_of_standard standard found
  rw [behaviour] at own ⊢
  obtain ⟨base, readWith, same, resolved⟩ :=
    resolved_of_refinement standard found (instruction.opcode.refinement_of_behaviour own)
  exact ⟨base, readWith, same ▸ readWith.behaviour, resolved⟩

/-- Taking an item apart is declared to take that item alone and to give what comes of it. -/
theorem demand_of_unpack (standard : machine.table = {})
    (found : machine.instructionAt? invocation frame = some instruction)
    (unpacks : instruction.behaviour = .unpack) :
    instruction.demand.stackIn = 1 ∧ instruction.demand.altOut = 0 ∧
      ∀ item out, frame.peek? 0 = some item → item.unpack = .ok out →
        instruction.demand.stackOut = out.length := by
  have own : instruction.behaviour.refinement? = some .unpack := by rw [unpacks]; rfl
  obtain ⟨base, readWith, same, resolved⟩ := resolved_of_found standard found .unpack own
  obtain ⟨stackIn, altOut, stackOut⟩ := Refinement.resolve_unpack _ _ _ _ resolved
  have entry : base.opcode.standardEntry.behaviour = .unpack := by
    rw [← readWith.behaviour, same, unpacks]
  have declares := base.opcode.declares_standardEntry (by rw [entry]; exact Behaviour.noConfusion)
  rw [entry] at declares
  refine ⟨?_, ?_, stackOut⟩
  · rw [stackIn, readWith.demand]
    exact declares.accepts
  · rw [altOut, readWith.demand]
    exact declares.altOut

/-- What an instruction makes of the count on top is what it declares. -/
theorem hasRoom_of_found (standard : machine.table = {})
    (found : machine.instructionAt? invocation frame = some instruction)
    (itemSize : instruction.demand.itemSize ≤ signedMax)
    (arraySize : Behaviour.elementWidth * instruction.demand.arraySize ≤ signedMax) :
    instruction.behaviour.HasRoom machine.config.limits.integerSize
      (frame.argumentsOf instruction).stack := by
  intro item size only counted
  have seen : frame.peekCount? machine.config.limits 0 = some size :=
    Frame.peekCount?_of_take only counted
  cases behaviour : instruction.behaviour
  case newBuffer =>
    have own : instruction.behaviour.refinement? = some .newBuffer := by rw [behaviour]; rfl
    obtain ⟨base, _, _, resolved⟩ := resolved_of_found standard found .newBuffer own
    dsimp only [Refinement.resolve] at resolved
    rw [host, seen] at resolved
    have declared : size = instruction.demand.itemSize :=
      congrArg Demand.itemSize (Except.ok.inj resolved)
    exact declared ▸ itemSize
  case newSized =>
    have own : instruction.behaviour.refinement? = some .newSized := by rw [behaviour]; rfl
    obtain ⟨base, _, _, resolved⟩ := resolved_of_found standard found .newSized own
    dsimp only [Refinement.resolve] at resolved
    rw [host, seen] at resolved
    have declared : size = instruction.demand.arraySize :=
      congrArg Demand.arraySize (Except.ok.inj resolved)
    exact declared ▸ arraySize
  all_goals exact Nat.zero_le _

/-- An instruction of the standard table that finds its arguments fails for a reason of the script's
own or gives as many results as it declares, as long as there is memory for what it makes. -/
theorem run_sound_of_hasRoom (standard : machine.table = {})
    (found : machine.instructionAt? invocation frame = some instruction)
    (enough : instruction.demand.stackIn ≤ frame.stack.length)
    (word : instruction.demand.stackIn < wordMax)
    (room : instruction.behaviour.HasRoom machine.config.limits.integerSize
      (frame.argumentsOf instruction).stack)
    (world : World) :
    Sound True (fun results => results.stack.length = instruction.demand.stackOut ∧
        results.alt.length = instruction.demand.altOut)
      (instruction.behaviour.run (machine.host invocation) instruction (frame.charged instruction)
        world (frame.argumentsOf instruction)) := by
  have count : (frame.argumentsOf instruction).stack.length = instruction.demand.stackIn :=
    List.length_take_of_le enough
  -- What a system call gives is up to its service, and what taking apart gives is up to the item.
  by_cases system : instruction.behaviour = .systemCall
  · have opcode := opcode_of_systemCall standard found system
    obtain ⟨service, named, demand⟩ := demand_of_SYSCALL standard found opcode
    rw [demand] at count
    rw [system, demand]
    exact Behaviour.run_systemCall_sound named _ world fun _ => count
  by_cases compound : instruction.behaviour = .unpack
  · obtain ⟨stackIn, altOut, stackOut⟩ := demand_of_unpack standard found compound
    rw [compound]
    refine (Arguments.one_sound fun _ => count.trans stackIn).bind fun item only => ?_
    refine item.unpack_sound.self.bind fun out unpacked => ?_
    exact Sound.ok ⟨(stackOut item out (Frame.peek?_of_take only rfl) unpacked).symm, altOut.symm⟩
  have declares := declares_of_found standard found compound system word
  rw [declares.stackOut, declares.altOut, ← count]
  refine Behaviour.run_sound _ _ _ _ _ (fun _ => knows_of_found standard found) (fun _ => ?_)
    (fun _ => room) compound system
  rw [count]
  exact declares.accepts

/-- An admitted instruction of the standard table fails for a reason of the script's own or gives as
many results as it declares, as long as there is memory for what it declares. -/
theorem run_sound (standard : machine.table = {})
    (found : machine.instructionAt? invocation frame = some instruction)
    (admitted : machine.config.limits.Admits frame instruction)
    (small : frame.stack.length < wordMax)
    (itemSize : instruction.demand.itemSize ≤ signedMax)
    (arraySize : Behaviour.elementWidth * instruction.demand.arraySize ≤ signedMax)
    (world : World) :
    Sound True (fun results => results.stack.length = instruction.demand.stackOut ∧
        results.alt.length = instruction.demand.altOut)
      (instruction.behaviour.run (machine.host invocation) instruction (frame.charged instruction)
        world (frame.argumentsOf instruction)) :=
  run_sound_of_hasRoom standard found admitted.stackIn (admitted.stackIn.trans_lt small)
    (hasRoom_of_found standard found itemSize arraySize) world

end Machine

end GasMachine
