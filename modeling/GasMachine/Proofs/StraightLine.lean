import GasMachine.Proofs.Recursion
import GasMachine.Proofs.StackSize

/-!
# Straight code

Straight code has no jumps, no calls and no system calls in it, and nothing that tells where it is.
So what its listing shows from the first byte on is what a frame comes across, line by line: a step
goes on with the next line or the frame ends where it is, and the world stays as it was
(`Frame.OnLine.step`).

An instruction that can be read reads the same with other bytes behind it, because reading looks at
no more bytes than the instruction has (`Instruction.read_append`).
-/

set_option autoImplicit false

namespace GasMachine

/-! ## Reading

Reading needs no more bytes than the instruction has, so that what is behind can be exchanged. That
goes for instructions that were read; a fault may well be another one with more bytes. -/

/-- What was read of an operand is all there, and bytes behind it make no difference. -/
theorem Opcode.Layout.read_append {layout : Opcode.Layout} {following : Bytes} {operand : Operand}
    (read : layout.read following = .ok operand) (more : Bytes) :
    operand.size ≤ following.length ∧ layout.read (following ++ more) = .ok operand := by
  have longer : (following ++ more).length = following.length + more.length :=
    List.length_append
  cases layout with
  | none =>
    cases read
    exact ⟨Nat.zero_le _, rfl⟩
  | fixed size =>
    unfold Layout.read at read ⊢
    dsimp only at read ⊢
    split at read
    · cases read
    · rename_i enough
      cases read
      have there : size ≤ following.length := Nat.not_lt.1 enough
      rw [if_neg (by omega), List.take_append_of_le_length there]
      exact ⟨there, rfl⟩
  | counted width =>
    unfold Layout.read at read ⊢
    dsimp only at read ⊢
    split at read
    · cases read
    · rename_i enough
      split at read
      · cases read
      · rename_i data
        cases read
        have there : width ≤ following.length := Nat.not_lt.1 enough
        have present := Nat.not_lt.1 data
        have left := List.length_drop (i := width) (l := following)
        have longerLeft : (following.drop width ++ more).length =
            (following.drop width).length + more.length := List.length_append
        rw [if_neg (by omega), List.take_append_of_le_length there,
          List.drop_append_of_le_length there, if_neg (by omega),
          List.take_append_of_le_length present]
        exact ⟨by dsimp only; omega, rfl⟩

namespace Instruction

variable {table : InstructionTable} {byte : UInt8} {following : Bytes} {instruction : Instruction}

theorem read_append (read : Instruction.read table byte following = .ok instruction)
    (more : Bytes) :
    (1 ≤ instruction.size ∧ instruction.size ≤ (byte :: following).length) ∧
      Instruction.read table byte (following ++ more) = .ok instruction := by
  unfold Instruction.read at read ⊢
  split at read
  · cases read
  · rename_i opcode _
    split at read
    · cases read
    · rename_i entry _
      unfold ofEntry at read ⊢
      split at read
      · cases read
      · rename_i operand found
        obtain ⟨size, same⟩ := Opcode.Layout.read_append found more
        cases read
        rw [same]
        exact ⟨⟨Nat.le_add_right 1 _, by rw [List.length_cons]; dsimp only; omega⟩, rfl⟩

end Instruction

/-! ## Listings

A listing from some position on is that of the bytes that are left, but for the positions it shows.
So a property of all lines goes from a code to what is behind its first instruction. -/

-- Neither the position of the first line nor fuel beyond the length of the code matters.
theorem contents_listFrom (table : InstructionTable) {fuel other position place : Nat}
    {code : Bytes} (enough : code.length ≤ fuel) (plenty : code.length ≤ other) :
    (listFrom table fuel position code).map ListingLine.content =
      (listFrom table other place code).map ListingLine.content := by
  induction fuel generalizing other position place code with
  | zero =>
    rw [List.eq_nil_of_length_eq_zero (Nat.le_zero.1 enough)]
    cases other <;> rfl
  | succ fuel ih =>
    cases code with
    | nil => cases other <;> rfl
    | cons byte following =>
      rw [List.length_cons] at enough plenty
      obtain ⟨less, rfl⟩ : ∃ less, other = less + 1 := Nat.exists_eq_add_of_le' (by omega)
      rw [listFrom, listFrom]
      split
      · rfl
      · rename_i instruction _
        have shorter := List.length_drop (i := instruction.size - 1) (l := following)
        exact congrArg (_ :: ·) (ih (by omega) (by omega))

/-- Behind its first instruction the listing of a code is that of the bytes that are left. -/
theorem forall_listing_cons {table : InstructionTable} {byte : UInt8} {following : Bytes}
    {instruction : Instruction}
    (read : Instruction.read table byte following = .ok instruction)
    (p : Except Fault Instruction → Prop) :
    (∀ line ∈ listing table (byte :: following), p line.content) ↔
      p (.ok instruction) ∧
        ∀ line ∈ listing table ((byte :: following).drop instruction.size), p line.content := by
  have contents (lines : List ListingLine) :
      (∀ line ∈ lines, p line.content) ↔ ∀ content ∈ lines.map ListingLine.content, p content :=
    List.forall_mem_map.symm
  obtain ⟨⟨positive, _⟩, _⟩ := Instruction.read_append read []
  have rest : (byte :: following).drop instruction.size =
      following.drop (instruction.size - 1) := by
    rw [← Nat.sub_add_cancel positive, List.drop_succ_cons, Nat.add_sub_cancel]
  have shorter := List.length_drop (i := instruction.size - 1) (l := following)
  rw [contents, contents, rest]
  unfold listing
  rw [List.length_cons, listFrom, read]
  dsimp only
  rw [List.map_cons, List.forall_mem_cons,
    contents_listFrom table (by omega) (Nat.le_refl _)]

/-! ## Straight code

Both properties are said of the listing, as a caller sees it, and handed on from instruction to
instruction. -/

/-- Whether an opcode neither leads elsewhere nor tells where it is. -/
def Opcode.isStraight (opcode : Opcode) : Bool :=
  !opcode.isJump && opcode ∉ [.CALL, .CALL_L, .CALLA, .RET, .PUSHA, .SYSCALL]

/-- Every line of the listing can be read, so that the last one ends where the code does. -/
def Whole (code : Bytes) : Prop := ∀ line ∈ listing {} code, line.content.isOk = true

/-- No line of the listing leads elsewhere. -/
def Straight (code : Bytes) : Prop :=
  ∀ line ∈ listing {} code, ∀ instruction ∈ line.content.toOption,
    instruction.opcode.isStraight = true

instance (code : Bytes) : Decidable (Whole code) :=
  inferInstanceAs (Decidable (∀ line ∈ listing {} code, line.content.isOk = true))

instance (code : Bytes) : Decidable (Straight code) :=
  inferInstanceAs (Decidable (∀ line ∈ listing {} code, ∀ instruction ∈ line.content.toOption,
    instruction.opcode.isStraight = true))

theorem Straight.next {byte : UInt8} {following : Bytes} {instruction : Instruction}
    (straight : Straight (byte :: following))
    (read : Instruction.read {} byte following = .ok instruction) :
    instruction.opcode.isStraight = true ∧
      Straight ((byte :: following).drop instruction.size) := by
  obtain ⟨first, rest⟩ := (forall_listing_cons read fun content =>
    ∀ instruction ∈ content.toOption, instruction.opcode.isStraight = true).1 straight
  exact ⟨first instruction rfl, rest⟩

theorem Whole.next {byte : UInt8} {following : Bytes} {instruction : Instruction}
    (whole : Whole (byte :: following))
    (read : Instruction.read {} byte following = .ok instruction) :
    Whole ((byte :: following).drop instruction.size) :=
  ((forall_listing_cons read fun content => content.isOk = true).1 whole).2

theorem Whole.exists_read {byte : UInt8} {following : Bytes} (whole : Whole (byte :: following)) :
    ∃ instruction, Instruction.read {} byte following = .ok instruction := by
  cases read : Instruction.read {} byte following with
  | ok instruction => exact ⟨instruction, rfl⟩
  | error fault =>
    have only : listing {} (byte :: following) = [⟨0, .error fault⟩] := by
      unfold listing
      rw [List.length_cons, listFrom, read]
    unfold Whole at whole
    rw [only, List.forall_mem_singleton] at whole
    cases whole

/-! ## Straight instructions

Opcode by opcode for the table, and then for the instruction that is found, since resolving changes
neither the behaviour nor the depth of any but a system call. -/

/-- What an instruction of straight code does is straight, and it makes the script no deeper. -/
structure Instruction.IsStraight (instruction : Instruction) : Prop where
  behaviour : instruction.behaviour.isStraight = true
  invocation : instruction.demand.invocation = 0

theorem Opcode.isStraight_standardEntry {opcode : Opcode} (straight : opcode.isStraight = true) :
    opcode.standardEntry.behaviour.isStraight = true ∧
      opcode.standardEntry.demand.invocation = 0 ∧
      opcode.standardEntry.refinement ≠ some .service := by
  revert straight
  cases opcode <;> decide

theorem Instruction.isStraight_of_resolves {base instruction : Instruction} {host : Host}
    {frame : Frame} (straight : base.opcode.isStraight = true)
    (readWith : base.ReadWith base.opcode.standardEntry)
    (resolves : base.Resolves host frame instruction) : instruction.IsStraight := by
  obtain ⟨behaviour, invocation, ordinary⟩ := Opcode.isStraight_standardEntry straight
  rw [← readWith.behaviour] at behaviour
  rw [← readWith.refinement] at ordinary
  have level : base.demand.invocation = 0 := by
    rw [readWith.demand]
    exact invocation
  cases resolves with
  | fixed _ => exact ⟨behaviour, level⟩
  | refined refinement demand refined resolved =>
    -- Only the refinement of system calls could make the script deeper.
    have other : refinement ≠ .service := by
      rintro rfl
      exact ordinary refined
    have same := Refinement.resolve_fixed other _ _ _ demand resolved
    exact ⟨behaviour, same.2.trans level⟩

/-! ## Steps on straight code

`OnLine` is what such a frame keeps: straight code ahead, no open routine, nothing pending. A step
goes on with the next instruction and the frame is on the line again, or it is the last one. -/

/-- A frame with straight code ahead, outside of every call of its script. -/
structure Frame.OnLine (frame : Frame) : Prop where
  running : frame.isRunning = true
  straight : Straight (frame.code.drop frame.pc)
  within : frame.pc ≤ frame.code.length
  calm : frame.pending = none
  outermost : frame.returnStack = []
  counted : frame.Counted

/-- What a step on straight code makes of a frame. -/
inductive Frame.Onward (frame : Frame) : Frame → Prop where
  /-- The code is at its end. -/
  | ended (here : frame.pc = frame.code.length) : Onward frame frame.halt
  /-- The instruction is at fault. -/
  | faulted (after : Frame) (record : FaultRecord) (inside : frame.pc < frame.code.length)
    (fault : after.status = .faulted record) (place : record.pc = frame.pc)
    (calm : after.pending = none) : Onward frame after
  /-- The frame has gone on. -/
  | wentOn (after : Frame) (inside : frame.pc < frame.code.length) (onLine : after.OnLine)
    (code : after.code = frame.code) (depth : after.depth = frame.depth)
    (whole : Whole (frame.code.drop frame.pc) → Whole (after.code.drop after.pc)) :
    Onward frame after

/-- An instruction on a frame's straight code, with what is behind it. -/
structure Frame.Carries (frame : Frame) (instruction : Instruction) : Prop where
  isStraight : instruction.IsStraight
  inside : frame.pc < frame.code.length
  within : frame.pc + instruction.size ≤ frame.code.length
  straight : Straight (frame.code.drop (frame.pc + instruction.size))
  whole : Whole (frame.code.drop frame.pc) → Whole (frame.code.drop (frame.pc + instruction.size))

namespace Machine

variable {machine : Machine} {invocation : Invocation} {frame : Frame}

theorem pc_lt_of_drop {byte : UInt8} {following : Bytes}
    (here : frame.code.drop frame.pc = byte :: following) : frame.pc < frame.code.length := by
  rw [← Nat.not_le, ← List.drop_eq_nil_iff, here]
  exact List.cons_ne_nil _ _

/-- An instruction ends where the code does, or before. -/
theorem within_of_found {instruction : Instruction}
    (found : machine.instructionAt? invocation frame = some instruction) :
    frame.pc + instruction.size ≤ frame.code.length := by
  obtain ⟨byte, following, base, here, read, resolves⟩ := prepared_of_found found
  have size : instruction.size = base.size := by cases resolves <;> rfl
  obtain ⟨⟨_, short⟩, _⟩ := Instruction.read_append read []
  have inside := pc_lt_of_drop here
  have length := List.length_drop (i := frame.pc) (l := frame.code)
  rw [here] at length
  omega

theorem carries_of_found (standard : machine.table = {})
    (straight : Straight (frame.code.drop frame.pc)) {instruction : Instruction}
    (found : machine.instructionAt? invocation frame = some instruction) :
    frame.Carries instruction := by
  obtain ⟨byte, following, base, here, read, resolves⟩ := prepared_of_found found
  have size : instruction.size = base.size := by cases resolves <;> rfl
  obtain ⟨entry, inTable, readWith⟩ := Instruction.read_ensures _ byte following base read
  rw [standard] at read inTable
  cases inTable
  have inside := pc_lt_of_drop here
  rw [here] at straight
  have behind : frame.code.drop (frame.pc + instruction.size) =
      (byte :: following).drop base.size := by
    rw [← here, List.drop_drop, size]
  constructor
  case isStraight =>
    exact Instruction.isStraight_of_resolves (straight.next read).1 readWith resolves
  case inside => exact inside
  case within => exact within_of_found found
  case straight =>
    rw [behind]
    exact (straight.next read).2
  case whole =>
    rw [here, behind]
    exact fun whole => whole.next read

end Machine

namespace Frame.OnLine

variable {frame : Frame}

theorem completed (onLine : frame.OnLine) {instruction : Instruction} {results : Results}
    (carries : frame.Carries instruction) (stays : results.effect = .none) :
    frame.Onward (frame.completed instruction results) := by
  have moved : frame.completed instruction results =
      ((frame.charged instruction).perform instruction.size .none).push
        results.stack results.alt := by
    rw [Frame.completed, stays]
  have counted := onLine.counted.completed instruction results
  rw [moved] at counted ⊢
  refine .wentOn _ carries.inside ?_ rfl rfl carries.whole
  exact ⟨onLine.running, carries.straight, carries.within, onLine.calm, onLine.outermost, counted⟩

/-- A step on straight code changes nothing in the world. -/
theorem step (onLine : frame.OnLine) {machine : Machine} (standard : machine.table = {})
    {invocation : Invocation} {world next : World} {after : Frame}
    (step : machine.step invocation frame world = (after, next)) :
    next = world ∧ frame.Onward after := by
  have carries {instruction : Instruction}
      (found : machine.instructionAt? invocation frame = some instruction) :
      frame.Carries instruction :=
    Machine.carries_of_found standard onLine.straight found
  have straight {instruction : Instruction} {results : Results}
      (acts : machine.Acts invocation frame world instruction results) :
      results.effect = .none ∧ results.world = world :=
    Behaviour.run_straight _ _ _ _ _ (carries acts.found).isStraight.behaviour results acts.ran
  have went := machine.stepTo_step invocation world frame
  rw [step] at went
  cases went with
  | rests ended => cases ended.symm.trans onLine.running
  | ended running here =>
    exact ⟨rfl, .ended (Nat.le_antisymm onLine.within (List.drop_eq_nil_iff.1 here))⟩
  | unreadable byte following fault here _ =>
    exact ⟨rfl, .faulted _ _ (Machine.pc_lt_of_drop here) rfl rfl onLine.calm⟩
  | refused instruction fault found _ =>
    exact ⟨rfl, .faulted _ _ (carries found).inside rfl rfl onLine.calm⟩
  | failed instruction fault found _ _ _ =>
    exact ⟨rfl, .faulted _ _ (carries found).inside rfl rfl onLine.calm⟩
  | overflowed instruction results acts fault _ =>
    obtain ⟨stays, same⟩ := straight acts
    have calm : (frame.completed instruction results).pending = none := by
      rw [Frame.completed, stays]
      exact onLine.calm
    exact ⟨same, .faulted _ _ (carries acts.found).inside rfl rfl calm⟩
  | acted instruction results acts _ =>
    obtain ⟨stays, same⟩ := straight acts
    exact ⟨same, onLine.completed (carries acts.found) stays⟩

end Frame.OnLine

end GasMachine
