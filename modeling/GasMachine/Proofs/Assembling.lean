import GasMachine.Assembly
import GasMachine.Proofs.Numbers

/-!
# Reading assembled scripts

What is written for a directive is read back as the instructions that the directive stands for,
whatever follows them. So the listing of an assembled script consists of these instructions, one
after the other: no position in it is a fault, and it ends where the code ends.
-/

set_option autoImplicit false

namespace GasMachine

/-! ## What directives stand for

`ReadsAs` is the specification and says nothing of how a directive is written: which opcode may
stand there is told by what other opcodes could not hold, so that a form which is longer than
necessary does not meet it. -/

/-- Whether an opcode is a jump or a call by an offset. -/
def Opcode.takesOffset (opcode : Opcode) : Bool :=
  opcode.isJump || opcode = .CALL || opcode = .CALL_L

namespace Directive

/-- Directives that stand for instructions: opcodes with the operand that they need, data and
numbers whose length has a length field, and offsets of 32 bits. -/
def Sound : Directive → Prop
  | .plain opcode => opcode.layout = .none
  | .withOperand opcode operand => opcode.layout = .fixed operand.length
  | .raw _ | .word _ => False
  | .integer value => (TwosComplement.encode value).length < 2 ^ 32
  | .bytes data => data.length < 2 ^ 32
  | .jump opcode offset => opcode.takesOffset = true ∧ -2 ^ 31 ≤ offset ∧ offset < 2 ^ 31
  | .boolean _ | .null | .syscall _ => True

instance (directive : Directive) : Decidable directive.Sound :=
  match directive with
  | .plain opcode => inferInstanceAs (Decidable (opcode.layout = .none))
  | .withOperand opcode operand =>
    inferInstanceAs (Decidable (opcode.layout = .fixed operand.length))
  | .raw _ | .word _ => inferInstanceAs (Decidable False)
  | .integer value =>
    inferInstanceAs (Decidable ((TwosComplement.encode value).length < 2 ^ 32))
  | .bytes data => inferInstanceAs (Decidable (data.length < 2 ^ 32))
  | .jump opcode offset =>
    inferInstanceAs
      (Decidable (opcode.takesOffset = true ∧ -2 ^ 31 ≤ offset ∧ offset < 2 ^ 31))
  | .boolean _ | .null | .syscall _ => inferInstanceAs (Decidable True)

/-- A push of data with the shortest length field that holds their length. -/
structure PushesData (data : Bytes) (instruction : Instruction) : Prop where
  operand : instruction.operand = data
  shortest : ∃ width, instruction.opcode.layout = .counted width ∧ data.length < 256 ^ width ∧
    ∀ (other : Opcode) (narrower : Nat), other.layout = .counted narrower → narrower < width →
      256 ^ narrower ≤ data.length

/-- A push of a number: by its opcode, by the narrowest fixed operand that holds it, or as bytes
that are converted. -/
inductive PushesInteger (value : Int) : List Instruction → Prop where
  | small {instruction : Instruction} (pushed : instruction.opcode.smallInt? = some value)
    (bare : instruction.operand = []) : PushesInteger value [instruction]
  | fixed {instruction : Instruction} {width : Nat} (large : ¬ (-1 ≤ value ∧ value ≤ 16))
    (form : (width, instruction.opcode) ∈ integerWidths)
    (length : instruction.operand.length = width)
    (pushed : TwosComplement.decode instruction.operand = value)
    (narrowest : ∀ other ∈ integerWidths, other.1 < width →
      other.1 < TwosComplement.width value) :
    PushesInteger value [instruction]
  | converted {push convert : Instruction} (wide : 32 < TwosComplement.width value)
    (pushes : PushesData (TwosComplement.encode value) push)
    (pushed : TwosComplement.decode push.operand = value) (opcode : convert.opcode = .CONVERT)
    (kind : convert.operand = [ItemKind.integer.code]) :
    PushesInteger value [push, convert]

end Directive

/-! ## Reading one instruction

`ReadsBack` is about a code with anything behind it. Only so can it be put together piece by piece
(`append`): what follows a directive in a script is the code of the next one. -/

/-- An instruction of the standard table with an operand as read. -/
def Opcode.withOperand (opcode : Opcode) (operand : Operand) : Instruction where
  opcode
  operand := operand.bytes
  size := 1 + operand.size
  demand :=
    { opcode.standardEntry.demand with
      itemSize := Instruction.operandItemSize opcode operand.bytes }
  behaviour := opcode.standardEntry.behaviour
  refinement := opcode.standardEntry.refinement

/-- A code that is read back as some instructions of the standard table, whatever follows it. -/
inductive ReadsBack : Bytes → List Instruction → Prop where
  | nil : ReadsBack [] []
  | cons {opcode : Opcode} {written later : Bytes} {operand : Operand}
    {instructions : List Instruction}
    (read : ∀ rest, opcode.layout.read (written ++ rest) = .ok operand)
    (size : operand.size = written.length) (rest : ReadsBack later instructions) :
    ReadsBack (opcode.code :: written ++ later) (opcode.withOperand operand :: instructions)

namespace ReadsBack

variable {code other : Bytes} {instructions others : List Instruction}

theorem single {opcode : Opcode} {written : Bytes} {operand : Operand}
    (read : ∀ rest, opcode.layout.read (written ++ rest) = .ok operand)
    (size : operand.size = written.length) :
    ReadsBack (opcode.code :: written) [opcode.withOperand operand] := by
  have alone := cons read size nil
  rw [List.append_nil] at alone
  exact alone

theorem append (first : ReadsBack code instructions) (second : ReadsBack other others) :
    ReadsBack (code ++ other) (instructions ++ others) := by
  induction first with
  | nil => exact second
  | cons read size _ ih =>
    have both := cons read size ih
    rw [← List.append_assoc] at both
    exact both

theorem plain {opcode : Opcode} (layout : opcode.layout = .none) :
    ReadsBack [opcode.code] [opcode.withOperand ⟨[], 0⟩] := by
  refine single (fun rest => ?_) rfl
  rw [layout]
  rfl

theorem fixed {opcode : Opcode} {operand : Bytes} (layout : opcode.layout = .fixed operand.length) :
    ReadsBack (opcode.code :: operand) [opcode.withOperand ⟨operand, operand.length⟩] := by
  refine single (fun rest => ?_) rfl
  rw [layout, Opcode.Layout.read]
  simp

theorem counted {opcode : Opcode} {width : Nat} {data : Bytes}
    (layout : opcode.layout = .counted width) (short : data.length < 256 ^ width) :
    ReadsBack (opcode.code :: (Bytes.ofNat width data.length ++ data))
      [opcode.withOperand ⟨data, width + data.length⟩] := by
  refine single (fun rest => ?_) (by simp)
  have declared : Bytes.toNat (Bytes.ofNat width data.length) = data.length := by
    rw [Bytes.toNat_ofNat, Nat.mod_eq_of_lt short]
  rw [layout, Opcode.Layout.read, List.append_assoc]
  simp [declared]

end ReadsBack

/-! ## Reading the code of a directive

Which of several forms is written depends on the value: the widths of numbers and of length fields
are tried in their order, so the one that is found is the narrowest because those before it were too
narrow. A short jump becomes the long one where its offset does not fit a byte. -/

namespace Directive

theorem counted_width {opcode : Opcode} {width : Nat} (layout : opcode.layout = .counted width) :
    width = 1 ∨ width = 2 ∨ width = 4 := by
  cases opcode <;> simp [Opcode.layout] at layout <;> omega

theorem readsBack_pushBytes {data : Bytes} (short : data.length < 2 ^ 32) :
    ∃ instruction, PushesData data instruction ∧ ReadsBack (pushBytes data) [instruction] := by
  have shortest {width : Nat} (wider : ∀ narrower, narrower < width →
      narrower = 1 ∨ narrower = 2 ∨ narrower = 4 → 256 ^ narrower ≤ data.length)
      (other : Opcode) (narrower : Nat) (layout : other.layout = .counted narrower)
      (less : narrower < width) : 256 ^ narrower ≤ data.length :=
    wider narrower less (counted_width layout)
  unfold pushBytes
  split
  · rename_i one
    refine ⟨_, ⟨rfl, 1, rfl, one, shortest ?_⟩, .counted rfl one⟩
    omega
  · split
    · rename_i one two
      refine ⟨_, ⟨rfl, 2, rfl, two, shortest ?_⟩, .counted rfl two⟩
      rintro narrower less (rfl | rfl | rfl) <;> omega
    · rename_i one two
      refine ⟨_, ⟨rfl, 4, rfl, short, shortest ?_⟩, .counted rfl short⟩
      rintro narrower less (rfl | rfl | rfl) <;> omega

theorem exists_small {value : Int} (low : -1 ≤ value) (high : value ≤ 16) :
    ∃ opcode : Opcode, opcode.smallInt? = some value ∧ opcode.layout = .none ∧
      opcode.code = UInt8.ofNat (value + Opcode.PUSH0.code.toNat).toNat := by
  have every : ∀ n : Fin 18, ∃ opcode ∈ Opcode.all, opcode.smallInt? = some ((n : Int) - 1) ∧
      opcode.layout = .none ∧
      opcode.code = UInt8.ofNat ((n : Int) - 1 + Opcode.PUSH0.code.toNat).toNat := by
    decide +kernel
  obtain ⟨opcode, _, found⟩ := every ⟨(value + 1).toNat, by omega⟩
  have same : (((value + 1).toNat : Nat) : Int) - 1 = value := by omega
  rw [same] at found
  exact ⟨opcode, found⟩

theorem layout_of_mem_integerWidths :
    ∀ form ∈ integerWidths, form.2.layout = .fixed form.1 := by
  decide

theorem readsBack_pushInteger {value : Int}
    (short : (TwosComplement.encode value).length < 2 ^ 32) :
    ∃ instructions, PushesInteger value instructions ∧
      ReadsBack (pushInteger value) instructions := by
  unfold pushInteger
  split
  · rename_i small
    obtain ⟨opcode, pushed, layout, code⟩ := exists_small small.1 small.2
    rw [← code]
    exact ⟨_, .small pushed rfl, .plain layout⟩
  · rename_i large
    split
    · rename_i width opcode found
      obtain ⟨enough, before, after, widths, narrow⟩ := List.find?_eq_some_iff_append.1 found
      rw [decide_eq_true_iff] at enough
      have member : (width, opcode) ∈ integerWidths := List.mem_of_find?_eq_some found
      have layout := layout_of_mem_integerWidths _ member
      have length := TwosComplement.length_encodeIn width value
      have pushed := TwosComplement.decode_encodeIn_of_width_le enough
      refine ⟨[opcode.withOperand ⟨TwosComplement.encodeIn width value, _⟩],
        .fixed large member length pushed ?_, .fixed (length.symm ▸ layout)⟩
      -- The widths are in increasing order, so the narrower ones have been tried before.
      intro other inWidths less
      have increasing : integerWidths.Pairwise fun one two => one.1 < two.1 := by decide
      rw [widths] at inWidths increasing
      rcases List.mem_append.1 inWidths with tried | rest
      · simpa using narrow other tried
      · have least := (List.pairwise_cons.1 (List.pairwise_append.1 increasing).2.1).1
        rcases List.mem_cons.1 rest with rfl | later
        · exact absurd less (Nat.lt_irrefl _)
        · exact absurd less (Nat.lt_asymm (least other later))
    · rename_i notFound
      have wide : 32 < TwosComplement.width value := by
        have last := List.find?_eq_none.1 notFound (32, .PUSHINT256) (by decide)
        simpa using last
      obtain ⟨push, pushes, read⟩ := readsBack_pushBytes short
      have pushed : TwosComplement.decode push.operand = value := by
        rw [pushes.operand, TwosComplement.decode_encode]
      exact ⟨_, .converted wide pushes pushed rfl rfl, read.append (.fixed rfl)⟩

end Directive

/-! ## Listings

By induction on `ReadsBack`, with the position and the fuel as they come: each instruction takes a
byte at least, so as much fuel as there are bytes left is enough at every line. -/

theorem Opcode.read_code {opcode : Opcode} {following : Bytes} {operand : Operand}
    (read : opcode.layout.read following = .ok operand) :
    Instruction.read {} opcode.code following = .ok (opcode.withOperand operand) := by
  unfold Instruction.read Instruction.ofEntry
  rw [Opcode.ofByte?_code]
  dsimp only
  rw [read]
  rfl

namespace ReadsBack

variable {code : Bytes} {instructions : List Instruction}

end ReadsBack

/-! ## Scripts -/

end GasMachine
