import GasMachine.Proofs.Assembling
import GasMachine.Proofs.StraightLine

/-!
# What can be read

The grammar of instructions is small: an opcode that the table knows, and behind it an operand as
the opcode lays it out. Reading accepts exactly that. Where there is an instruction, writing it out
again gives the bytes that were read (`ReadsAt`), and so a listing cuts the code into pieces from
which the code can be put together again (`Partitions`).

Positions and sizes are words on a real machine, and a length field may hold any number of its
width. `readInWords` reads with sums, differences and slices that break off where they leave the
words or the code; none of them does.
-/

set_option autoImplicit false

namespace GasMachine

/-! ## The grammar

`Fits` and `write` are all there is to it: how long an operand has to be, and which bytes it is
written as. Both go by the layout of the opcode and know nothing of the reader. -/

/-- What the table has for a byte. -/
def InstructionTable.entry? (table : InstructionTable) (byte : UInt8) : Option (Opcode × Entry) :=
  (Opcode.ofByte? byte).bind fun opcode => (table.find? opcode).map fun entry => (opcode, entry)

namespace Opcode.Layout

/-- The operand lies wholly inside the bytes that follow the opcode. -/
def Fits : Layout → Bytes → Prop
  | .none, _ => True
  | .fixed size, following => size ≤ following.length
  | .counted width, following =>
    width ≤ following.length ∧
      width + Bytes.toNat (following.take width) ≤ following.length

instance (layout : Layout) (following : Bytes) : Decidable (layout.Fits following) :=
  match layout with
  | .none => inferInstanceAs (Decidable True)
  | .fixed size => inferInstanceAs (Decidable (size ≤ following.length))
  | .counted width =>
    inferInstanceAs (Decidable (width ≤ following.length ∧
      width + Bytes.toNat (following.take width) ≤ following.length))

/-- The bytes that stand for an operand. -/
def write : Layout → Bytes → Bytes
  | .none, _ => []
  | .fixed _, operand => operand
  | .counted width, operand => Bytes.ofNat width operand.length ++ operand

end Opcode.Layout

/-- The bytes that stand for an instruction. -/
def Instruction.encode (instruction : Instruction) : Bytes :=
  instruction.opcode.code :: instruction.opcode.layout.write instruction.operand

/-! ## Operands -/

namespace Opcode

theorem code_of_ofByte? {byte : UInt8} {opcode : Opcode} (known : ofByte? byte = some opcode) :
    opcode.code = byte := by
  have same := List.find?_some known
  exact eq_of_beq same

namespace Layout

variable {layout : Layout} {following : Bytes}

/-- An operand that is all there is read, and writing it gives the bytes that were read. -/
theorem read_of_fits (fits : layout.Fits following) :
    ∃ operand, layout.read following = .ok operand ∧ operand.size ≤ following.length ∧
      layout.write operand.bytes = following.take operand.size := by
  cases layout with
  | none => exact ⟨⟨[], 0⟩, rfl, Nat.zero_le _, rfl⟩
  | fixed size => exact ⟨⟨following.take size, size⟩, if_neg (Nat.not_lt.2 fits), fits, rfl⟩
  | counted width =>
    obtain ⟨lengthThere, dataThere⟩ := fits
    have left : (following.drop width).length = following.length - width := List.length_drop
    have enough : Bytes.toNat (following.take width) ≤ (following.drop width).length := by omega
    refine ⟨⟨(following.drop width).take (Bytes.toNat (following.take width)),
      width + Bytes.toNat (following.take width)⟩, ?_, dataThere, ?_⟩
    · unfold read
      dsimp only
      rw [if_neg (Nat.not_lt.2 lengthThere), if_neg (Nat.not_lt.2 enough)]
    · -- The length field is the one that was read, since it has the width of the layout.
      have field : (following.take width).length = width := List.length_take_of_le lengthThere
      have again := Bytes.ofNat_toNat (following.take width)
      rw [field] at again
      unfold write
      dsimp only
      rw [List.length_take_of_le enough, again, List.take_add]

theorem read_of_not_fits (cut : ¬layout.Fits following) :
    ∃ reason, layout.read following = .error reason := by
  cases layout with
  | none => exact absurd trivial cut
  | fixed size => exact ⟨_, if_pos (Nat.not_le.1 cut)⟩
  | counted width =>
    have left : (following.drop width).length = following.length - width := List.length_drop
    unfold read
    dsimp only
    by_cases short : following.length < width
    · exact ⟨_, if_pos short⟩
    · have missing : (following.drop width).length < Bytes.toNat (following.take width) := by
        refine Nat.not_le.1 fun enough => cut ⟨Nat.not_lt.1 short, ?_⟩
        omega
      rw [if_neg short]
      exact ⟨_, if_pos missing⟩

end Layout

end Opcode

/-! ## Instructions

A byte is refused if it is no opcode or if the table has no entry for it; the fault is the same.
With an entry, only the operand decides. -/

namespace Instruction

variable {table : InstructionTable} {byte : UInt8} {opcode : Opcode} {entry : Entry}

theorem read_of_entry (there : table.entry? byte = some (opcode, entry)) (following : Bytes) :
    Instruction.read table byte following = ofEntry opcode entry following ∧
      opcode.code = byte := by
  obtain ⟨found, known, listed⟩ := Option.bind_eq_some_iff.1 there
  obtain ⟨_, has, same⟩ := Option.map_eq_some_iff.1 listed
  cases same
  unfold Instruction.read
  rw [known]
  dsimp only
  rw [has]
  exact ⟨rfl, Opcode.code_of_ofByte? known⟩

theorem read_of_no_entry (missing : table.entry? byte = none) (following : Bytes) :
    Instruction.read table byte following = .error (.invalidOpcode byte) := by
  unfold InstructionTable.entry? at missing
  unfold Instruction.read
  cases known : Opcode.ofByte? byte with
  | none => rfl
  | some opcode =>
    rw [known, Option.bind_some, Option.map_eq_none_iff] at missing
    dsimp only
    rw [missing]

variable {following : Bytes}

/-- An operand that is all there makes an instruction, which is written as it was read. -/
theorem read_of_fits (there : table.entry? byte = some (opcode, entry))
    (fits : opcode.layout.Fits following) :
    ∃ instruction, Instruction.read table byte following = .ok instruction ∧
      instruction.opcode = opcode ∧ 1 ≤ instruction.size ∧
      instruction.size ≤ (byte :: following).length ∧
      instruction.encode = (byte :: following).take instruction.size := by
  obtain ⟨read, code⟩ := read_of_entry there following
  obtain ⟨operand, found, within, written⟩ := Opcode.Layout.read_of_fits fits
  unfold ofEntry at read
  rw [found] at read
  refine ⟨_, read, rfl, Nat.le_add_right _ _, ?_, ?_⟩
  · rw [List.length_cons]
    dsimp only
    omega
  · unfold encode
    dsimp only
    rw [written, code, Nat.add_comm, List.take_succ_cons]

theorem read_of_not_fits (there : table.entry? byte = some (opcode, entry))
    (cut : ¬opcode.layout.Fits following) :
    ∃ reason, Instruction.read table byte following =
      .error (.malformedInstruction opcode reason) := by
  obtain ⟨read, _⟩ := read_of_entry there following
  obtain ⟨reason, refused⟩ := Opcode.Layout.read_of_not_fits cut
  unfold ofEntry at read
  rw [refused] at read
  exact ⟨reason, read⟩

end Instruction

/-! ## Reading with words

Each operation gives nothing where a machine would break off, so `some` means that no sum was too
large and no slice left the code. The order of the operations is kept: the check that the operand is
there comes before the slice, and that is why the slice cannot fail, even where the length field
holds the largest number of its width. -/

namespace Word

open TwosComplement (wordMax)

/-- A sum of words; none where it overflows. -/
def add? (one other : Nat) : Option Nat :=
  if one + other ≤ wordMax then some (one + other) else none

/-- A difference of words; none where it falls below zero. -/
def sub? (one other : Nat) : Option Nat :=
  if other ≤ one then some (one - other) else none

/-- The bytes from one position up to another; none where these are out of order or leave the
bytes. -/
def slice? (bytes : Bytes) (first last : Nat) : Option Bytes :=
  if first ≤ last ∧ last ≤ bytes.length then some ((bytes.take last).drop first) else none

/-- The word whose lowest bytes are given, the others being zero; none for more than eight. -/
def ofLow? (bytes : Bytes) : Option Nat :=
  if bytes.length ≤ 8 then some (Bytes.toNat (bytes ++ List.replicate (8 - bytes.length) 0))
  else none

theorem add?_of_le {one other : Nat} (small : one + other ≤ wordMax) :
    add? one other = some (one + other) :=
  if_pos small

theorem sub?_of_le {one other : Nat} (enough : other ≤ one) : sub? one other = some (one - other) :=
  if_pos enough

theorem slice?_of_le (bytes : Bytes) {first size : Nat} (within : first + size ≤ bytes.length) :
    slice? bytes first (first + size) = some ((bytes.drop first).take size) := by
  unfold slice?
  rw [if_pos ⟨Nat.le_add_right _ _, within⟩, List.drop_take, Nat.add_sub_cancel_left]

theorem toNat_zeros (bytes : Bytes) (count : Nat) :
    Bytes.toNat (bytes ++ List.replicate count 0) = Bytes.toNat bytes := by
  induction bytes with
  | nil =>
    induction count with
    | zero => rfl
    | succ count ih =>
      rw [List.nil_append] at ih ⊢
      rw [List.replicate_succ, Bytes.toNat_cons, ih]
      rfl
  | cons byte rest ih => rw [List.cons_append, Bytes.toNat_cons, Bytes.toNat_cons, ih]

theorem ofLow?_of_le {bytes : Bytes} (few : bytes.length ≤ 8) :
    ofLow? bytes = some (Bytes.toNat bytes) := by
  unfold ofLow?
  rw [if_pos few, toNat_zeros]

end Word

/-- Read an operand at a place of the code, with the size of the whole instruction, on a machine
that counts in words; none where a word or a slice breaks off. -/
def Opcode.Layout.readInWords (layout : Opcode.Layout) (code : Bytes) (pc : Nat) :
    Option (Except Malformation Operand) := do
  let fromHere ← Word.sub? code.length pc
  let available ← Word.sub? fromHere 1
  match layout with
  | .none => return .ok ⟨[], 0⟩
  | .fixed size =>
    if available < size then return .error (.operandBytes size available)
    let first ← Word.add? pc 1
    let last ← Word.add? first size
    let bytes ← Word.slice? code first last
    let whole ← Word.add? 1 size
    return .ok ⟨bytes, whole - 1⟩
  | .counted width =>
    if available < width then return .error (.lengthBytes width)
    let first ← Word.add? pc 1
    let start ← Word.add? first width
    let field ← Word.slice? code first start
    let declared ← Word.ofLow? field
    let there ← Word.sub? available width
    if there < declared then return .error (.dataBytes declared there)
    let last ← Word.add? start declared
    let bytes ← Word.slice? code start last
    let head ← Word.add? 1 width
    let whole ← Word.add? head declared
    return .ok ⟨bytes, whole - 1⟩

/-- Read the instruction at a place of the code on a machine that counts in words. -/
def Instruction.readInWords (table : InstructionTable) (code : Bytes) (pc : Nat) :
    Option (Except Fault Instruction) := do
  let byte ← code[pc]?
  match table.entry? byte with
  | none => return .error (.invalidOpcode byte)
  | some (opcode, entry) =>
    match ← opcode.layout.readInWords code pc with
    | .error reason => return .error (.malformedInstruction opcode reason)
    | .ok operand =>
      return .ok {
        opcode
        operand := operand.bytes
        size := 1 + operand.size
        demand := { entry.demand with itemSize := operandItemSize opcode operand.bytes }
        behaviour := entry.behaviour
        refinement := entry.refinement }

open TwosComplement (wordMax)

/-- Reading an operand breaks nothing off, whatever its length field says. -/
theorem Opcode.Layout.readInWords_eq {layout : Opcode.Layout} {code : Bytes} {pc : Nat}
    (narrow : ∀ width, layout = .counted width → width ≤ 8) (short : code.length ≤ wordMax)
    (inside : pc < code.length) :
    layout.readInWords code pc = some (layout.read (code.drop (pc + 1))) := by
  have available : (code.drop (pc + 1)).length = code.length - pc - 1 := by
    rw [List.length_drop, Nat.sub_sub]
  unfold readInWords
  rw [Word.sub?_of_le (Nat.le_of_lt inside), Option.bind_eq_bind, Option.bind_some,
    Word.sub?_of_le (by omega), Option.bind_eq_bind, Option.bind_some]
  cases layout with
  | none => rfl
  | fixed size =>
    unfold read
    dsimp only
    rw [available]
    by_cases cut : code.length - pc - 1 < size
    · rw [if_pos cut, if_pos cut]
      rfl
    · have first : Word.add? pc 1 = some (pc + 1) := Word.add?_of_le (by omega)
      have last : Word.add? (pc + 1) size = some (pc + 1 + size) := Word.add?_of_le (by omega)
      have whole : Word.add? 1 size = some (1 + size) := Word.add?_of_le (by omega)
      have bytes : Word.slice? code (pc + 1) (pc + 1 + size) = _ :=
        Word.slice?_of_le code (by omega)
      rw [if_neg cut, if_neg cut]
      simp only [Option.bind_some, Option.pure_def, first, last, whole, bytes,
        Nat.add_sub_cancel_left]
  | counted width =>
    have few : width ≤ 8 := narrow width rfl
    unfold read
    dsimp only
    rw [available]
    by_cases cut : code.length - pc - 1 < width
    · rw [if_pos cut, if_pos cut]
      rfl
    · have field : ((code.drop (pc + 1)).take width).length = width :=
        List.length_take_of_le (by omega)
      have left : ((code.drop (pc + 1)).drop width).length = code.length - pc - 1 - width := by
        rw [List.length_drop, available]
      have first : Word.add? pc 1 = some (pc + 1) := Word.add?_of_le (by omega)
      have start : Word.add? (pc + 1) width = some (pc + 1 + width) := Word.add?_of_le (by omega)
      have head : Word.add? 1 width = some (1 + width) := Word.add?_of_le (by omega)
      have there : Word.sub? (code.length - pc - 1) width = _ := Word.sub?_of_le (by omega)
      have prefixed : Word.slice? code (pc + 1) (pc + 1 + width) = _ :=
        Word.slice?_of_le code (by omega)
      have declared := Word.ofLow?_of_le (field.trans_le few)
      rw [if_neg cut, if_neg cut, left]
      simp only [Option.bind_some, Option.pure_def, first, start, head, there, prefixed,
        declared]
      generalize Bytes.toNat ((code.drop (pc + 1)).take width) = count
      by_cases missing : code.length - pc - 1 - width < count
      · rw [if_pos missing, if_pos missing]
      · -- The data end inside the code, so no sum is larger than its length.
        have last : Word.add? (pc + 1 + width) count = some (pc + 1 + width + count) :=
          Word.add?_of_le (by omega)
        have whole : Word.add? (1 + width) count = some (1 + width + count) :=
          Word.add?_of_le (by omega)
        have data : Word.slice? code (pc + 1 + width) (pc + 1 + width + count) = _ :=
          Word.slice?_of_le code (by omega)
        rw [if_neg missing, if_neg missing]
        simp only [Option.bind_some, last, whole, data, List.drop_drop, Nat.add_assoc 1 width,
          Nat.add_sub_cancel_left]

theorem Instruction.readInWords_eq (table : InstructionTable) {code : Bytes} {pc : Nat}
    (short : code.length ≤ wordMax) (inside : pc < code.length) :
    readInWords table code pc = some (Instruction.read table code[pc] (code.drop (pc + 1))) := by
  unfold readInWords
  rw [List.getElem?_eq_getElem inside, Option.bind_eq_bind, Option.bind_some]
  cases found : table.entry? code[pc] with
  | none =>
    rw [read_of_no_entry found _]
    rfl
  | some both =>
    obtain ⟨opcode, entry⟩ := both
    have narrow (width : Nat) (layout : opcode.layout = .counted width) : width ≤ 8 := by
      have := Directive.counted_width layout
      omega
    dsimp only
    rw [(read_of_entry found _).1, Opcode.Layout.readInWords_eq narrow short inside,
      Option.bind_eq_bind, Option.bind_some]
    unfold ofEntry
    cases opcode.layout.read (code.drop (pc + 1)) <;> rfl

/-! ## The instruction at a place -/

/-- What reading at a place of the code comes to. -/
structure ReadsAt (table : InstructionTable) (code : Bytes) (pc : Nat)
    (inside : pc < code.length) : Prop where
  /-- There is an instruction just where the table knows the byte and the operand is all there. -/
  accepts : (Instruction.read table code[pc] (code.drop (pc + 1))).isOk = true ↔
    ∃ opcode entry, table.entry? code[pc] = some (opcode, entry) ∧
      opcode.layout.Fits (code.drop (pc + 1))
  unknown : Instruction.read table code[pc] (code.drop (pc + 1)) =
    .error (.invalidOpcode code[pc]) ↔ table.entry? code[pc] = none
  /-- Everything else is an instruction that is cut off. -/
  otherwise : ∀ opcode entry, table.entry? code[pc] = some (opcode, entry) →
    ¬opcode.layout.Fits (code.drop (pc + 1)) →
    ∃ reason, Instruction.read table code[pc] (code.drop (pc + 1)) =
      .error (.malformedInstruction opcode reason)
  /-- No sum, difference or slice breaks off. -/
  inWords : code.length < 2 ^ 64 → Instruction.readInWords table code pc =
    some (Instruction.read table code[pc] (code.drop (pc + 1)))
  bounds : ∀ instruction,
    Instruction.read table code[pc] (code.drop (pc + 1)) = .ok instruction →
    1 ≤ instruction.size ∧ pc + instruction.size ≤ code.length
  encodes : ∀ instruction,
    Instruction.read table code[pc] (code.drop (pc + 1)) = .ok instruction →
    instruction.encode = (code.drop pc).take instruction.size
  /-- What lies before the place makes no difference. -/
  behind : ∀ (other : Bytes) (place : Nat) (within : place < other.length),
    other.drop place = code.drop pc →
    Instruction.read table other[place] (other.drop (place + 1)) =
      Instruction.read table code[pc] (code.drop (pc + 1))

namespace Instruction

variable {table : InstructionTable} {code : Bytes} {pc : Nat}

/-- What was read at a place ends inside the code and is written as it stands there. -/
theorem written_of_read (inside : pc < code.length) {instruction : Instruction}
    (read : Instruction.read table code[pc] (code.drop (pc + 1)) = .ok instruction) :
    1 ≤ instruction.size ∧ pc + instruction.size ≤ code.length ∧
      instruction.encode = (code.drop pc).take instruction.size := by
  have here := List.drop_eq_getElem_cons inside
  cases found : table.entry? code[pc] with
  | none =>
    rw [read_of_no_entry found _] at read
    cases read
  | some both =>
    obtain ⟨opcode, entry⟩ := both
    by_cases fits : opcode.layout.Fits (code.drop (pc + 1))
    case neg =>
      obtain ⟨reason, refused⟩ := read_of_not_fits found fits
      cases refused.symm.trans read
    case pos =>
      obtain ⟨other, same, _, positive, within, written⟩ := read_of_fits found fits
      cases same.symm.trans read
      rw [← here] at within written
      have left := List.length_drop (i := pc) (l := code)
      exact ⟨positive, by omega, written⟩

theorem readsAt (table : InstructionTable) (code : Bytes) (pc : Nat) (inside : pc < code.length) :
    ReadsAt table code pc inside := by
  constructor
  case accepts =>
    constructor
    case mp =>
      intro accepted
      cases found : table.entry? code[pc] with
      | none =>
        rw [read_of_no_entry found _] at accepted
        cases accepted
      | some both =>
        obtain ⟨opcode, entry⟩ := both
        refine ⟨opcode, entry, rfl, ?_⟩
        by_contra cut
        obtain ⟨reason, refused⟩ := read_of_not_fits found cut
        rw [refused] at accepted
        cases accepted
    case mpr =>
      rintro ⟨opcode, entry, found, fits⟩
      obtain ⟨instruction, read, _⟩ := read_of_fits found fits
      rw [read]
      rfl
  case unknown =>
    constructor
    case mp =>
      intro refused
      cases found : table.entry? code[pc] with
      | none => rfl
      | some both =>
        obtain ⟨opcode, entry⟩ := both
        rw [(read_of_entry found _).1] at refused
        unfold ofEntry at refused
        split at refused <;> cases refused
    case mpr =>
      intro missing
      exact read_of_no_entry missing _
  case otherwise =>
    intro opcode entry found cut
    exact read_of_not_fits found cut
  case inWords =>
    intro short
    exact readInWords_eq table (Nat.le_sub_one_of_lt short) inside
  case bounds =>
    intro instruction read
    obtain ⟨positive, within, _⟩ := written_of_read inside read
    exact ⟨positive, within⟩
  case encodes =>
    intro instruction read
    exact (written_of_read inside read).2.2
  case behind =>
    intro other place within same
    rw [List.drop_eq_getElem_cons within, List.drop_eq_getElem_cons inside] at same
    obtain ⟨byte, rest⟩ := List.cons_eq_cons.1 same
    rw [byte, rest]

end Instruction

/-! ## Listings

`Lists` is the listing without fuel, by what is read at each place. The listing has it by induction
on the fuel, and all that is said of a listing follows by induction on `Lists`: positions increase
because an instruction has a byte at least, and the pieces join because each starts where the last
one ends. -/

/-- The lines that come of reading instruction after instruction from a position on, up to the end
of the code or to the first that cannot be read. Nothing bounds how many there are. -/
inductive Lists (table : InstructionTable) (code : Bytes) : Nat → List ListingLine → Prop
  | done {position : Nat} (atEnd : position = code.length) : Lists table code position []
  | stuck {position : Nat} {fault : Fault} (inside : position < code.length)
      (read : Instruction.read table code[position] (code.drop (position + 1)) = .error fault) :
      Lists table code position [⟨position, .error fault⟩]
  | line {position : Nat} {instruction : Instruction} {rest : List ListingLine}
      (inside : position < code.length)
      (read : Instruction.read table code[position] (code.drop (position + 1)) = .ok instruction)
      (more : Lists table code (position + instruction.size) rest) :
      Lists table code position (⟨position, .ok instruction⟩ :: rest)

/-- The instructions that a listing shows. -/
def shown (lines : List ListingLine) : List Instruction :=
  lines.filterMap fun line => line.content.toOption

/-- The lines cut the code from its start up to where they have come into instructions. -/
structure Partitions (table : InstructionTable) (code : Bytes) (lines : List ListingLine) :
    Prop where
  lists : Lists table code 0 lines
  increasing : lines.Pairwise fun line later => line.position < later.position
  inside : ∀ line ∈ lines, line.position < code.length
  /-- The instructions make up the code up to where reading ends: the end of the code, or the
  position of the last line, where there is no instruction. -/
  written : ∃ reached, (shown lines).flatMap Instruction.encode = code.take reached ∧
    ((reached = code.length ∧ ∀ line ∈ lines, line.content.isOk = true) ∨
      (∃ before fault, lines = before ++ [⟨reached, .error fault⟩] ∧
        ∀ line ∈ before, line.content.isOk = true))

namespace Lists

variable {table : InstructionTable} {code : Bytes} {position : Nat} {lines : List ListingLine}

/-- The fuel of a listing never runs out, because every instruction takes a byte at least. -/
theorem listFrom (fuel : Nat) (within : position ≤ code.length)
    (enough : code.length - position ≤ fuel) :
    Lists table code position (listFrom table fuel position (code.drop position)) := by
  induction fuel generalizing position with
  | zero => exact .done (by omega)
  | succ fuel ih =>
    rcases Nat.lt_or_eq_of_le within with inside | atEnd
    · rw [List.drop_eq_getElem_cons inside, GasMachine.listFrom]
      split
      · rename_i fault read
        exact .stuck inside read
      · rename_i instruction read
        obtain ⟨positive, ends, _⟩ := Instruction.written_of_read inside read
        have rest : (code.drop (position + 1)).drop (instruction.size - 1) =
            code.drop (position + instruction.size) := by
          rw [List.drop_drop]
          congr 1
          omega
        rw [rest]
        exact .line inside read (ih ends (by omega))
    · rw [atEnd, List.drop_length]
      exact .done rfl

theorem position_le (lists : Lists table code position lines) :
    ∀ line ∈ lines, position ≤ line.position ∧ line.position < code.length := by
  induction lists with
  | done atEnd =>
    intro line member
    cases member
  | stuck inside read =>
    intro line member
    cases List.mem_singleton.1 member
    exact ⟨Nat.le_refl _, inside⟩
  | line inside read more ih =>
    intro line member
    rcases List.mem_cons.1 member with rfl | later
    · exact ⟨Nat.le_refl _, inside⟩
    · obtain ⟨beyond, within⟩ := ih line later
      exact ⟨Nat.le_trans (Nat.le_add_right _ _) beyond, within⟩

theorem increasing (lists : Lists table code position lines) :
    lines.Pairwise fun line later => line.position < later.position := by
  induction lists with
  | done atEnd => exact .nil
  | stuck inside read => exact List.pairwise_singleton _ _
  | @line position instruction rest inside read more ih =>
    refine .cons (fun later member => ?_) ih
    obtain ⟨positive, _⟩ := Instruction.written_of_read inside read
    have beyond := (more.position_le later member).1
    dsimp only
    omega

/-- What is shown from a position on stands in the code from there up to where reading ends. -/
theorem written (lists : Lists table code position lines) :
    ∃ size, (shown lines).flatMap Instruction.encode = (code.drop position).take size ∧
      ((position + size = code.length ∧ ∀ line ∈ lines, line.content.isOk = true) ∨
        (∃ before fault, lines = before ++ [⟨position + size, .error fault⟩] ∧
          ∀ line ∈ before, line.content.isOk = true)) := by
  induction lists with
  | done atEnd => exact ⟨0, rfl, .inl ⟨atEnd, List.forall_mem_nil _⟩⟩
  | stuck inside read => exact ⟨0, rfl, .inr ⟨[], _, rfl, List.forall_mem_nil _⟩⟩
  | @line position instruction rest inside read more ih =>
    obtain ⟨size, same, ends⟩ := ih
    obtain ⟨_, _, first⟩ := Instruction.written_of_read inside read
    refine ⟨instruction.size + size, ?_, ?_⟩
    · have head : shown (⟨position, .ok instruction⟩ :: rest) = instruction :: shown rest := rfl
      rw [head, List.flatMap_cons, first, same, List.take_add, List.drop_drop]
    · rw [← Nat.add_assoc]
      rcases ends with ⟨whole, all⟩ | ⟨before, fault, rfl, all⟩
      · exact .inl ⟨whole, List.forall_mem_cons.2 ⟨rfl, all⟩⟩
      · exact .inr ⟨_ :: before, fault, rfl, List.forall_mem_cons.2 ⟨rfl, all⟩⟩

end Lists

theorem partitions_listing (table : InstructionTable) (code : Bytes) :
    Partitions table code (listing table code) := by
  have lists : Lists table code 0 (listing table code) :=
    Lists.listFrom code.length (Nat.zero_le _) (Nat.sub_le _ _)
  constructor
  case lists => exact lists
  case increasing => exact lists.increasing
  case inside =>
    intro line member
    exact (lists.position_le line member).2
  case written =>
    obtain ⟨size, same, ends⟩ := lists.written
    rw [Nat.zero_add] at ends
    exact ⟨size, same, ends⟩

/-- For every table and every code: reading at a place inside accepts the instructions of the
grammar, and a listing cuts the code into them. -/
theorem read_grammar (table : InstructionTable) (code : Bytes) :
    (∀ (pc : Nat) (inside : pc < code.length), ReadsAt table code pc inside) ∧
      Partitions table code (listing table code) :=
  ⟨Instruction.readsAt table code, partitions_listing table code⟩

/-- A push of two bytes, a return, and a push whose length field goes beyond the code. -/
def cutOff : Bytes := [0x0c, 2, 0xaa, 0xbb, 0x40, 0x0e, 0xff, 0xff, 0xff, 0xff, 1]

/-- The first two are read and the last is not. -/
theorem read_grammar_cutOff :
    ((listing {} cutOff).map ListingLine.position = [0, 4, 5] ∧
      (shown (listing {} cutOff)).map Instruction.encode = [[0x0c, 2, 0xaa, 0xbb], [0x40]] ∧
      (Instruction.read {} 0x0e (cutOff.drop 6)).isOk = false) ∧
    ReadsAt {} cutOff 5 (by decide) ∧ Partitions {} cutOff (listing {} cutOff) :=
  ⟨by decide +kernel, (read_grammar {} cutOff).1 5 (by decide), (read_grammar {} cutOff).2⟩

end GasMachine
