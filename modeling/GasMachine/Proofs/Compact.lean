import GasMachine.Proofs.Numbers
import GasMachine.Proofs.Shape

/-!
# Compact items

Only three instructions declare the size of a byte item that they make; the others are not checked
at all. They need not be: what they make is part of a byte item that was there, an integer written
out, a hash, or a value from the store. So a bound on byte items carries over from what a frame
holds to what it makes, as long as integers are short enough to be written out and the store has no
longer values (`Behaviour.run_compact`).

Integers are measured where they are computed or read from bytes, but not where they are counted or
taken from the code. There they have up to 32 bytes, whatever the ceiling is. So bounds have to
leave room for that beside what the limits allow (`Limits.Roomy`).
-/

set_option autoImplicit false

namespace GasMachine

open TwosComplement (wordMax)

/-! ## Compact items

A bound on bytes and one on integers are kept apart: bytes may be turned into an integer only up to
the ceiling for integers, and an integer may be turned into bytes at any time, so the bound on bytes
must not be the smaller one (`Roomy.writable`). -/

namespace Item

/-- If the item is an integer, its shortest form has no more bytes than given. -/
def Narrow (width : Nat) (item : Item) : Prop :=
  ∀ value, item = .integer value → (TwosComplement.encode value).length ≤ width

/-- An item itself, whatever is inside it, has no more bytes than given, and is narrow. -/
structure Compact (bytes width : Nat) (item : Item) : Prop where
  short : ∀ content, item = .byteString content ∨ item = .buffer content → content.length ≤ bytes
  narrow : item.Narrow width

/-- Whether an item has bytes or digits of which there could be too many. -/
def isSized : Item → Bool
  | .integer _ | .byteString _ | .buffer _ => true
  | _ => false

variable {bytes width : Nat} {item : Item}

theorem compact_of_unsized (unsized : item.isSized = false) : item.Compact bytes width := by
  constructor
  · rintro content (rfl | rfl) <;> cases unsized
  · rintro value rfl
    cases unsized

theorem compact_integer {value : Int} (narrow : TwosComplement.width value ≤ width) :
    (Item.integer value).Compact bytes width := by
  constructor
  · rintro content (same | same) <;> cases same
  · intro other same
    cases same
    rw [TwosComplement.length_encode]
    exact narrow

theorem compact_byteString {content : Bytes} (short : content.length ≤ bytes) :
    (Item.byteString content).Compact bytes width := by
  constructor
  · rintro other (same | same) <;> cases same
    exact short
  · intro value same
    cases same

theorem compact_buffer {content : Bytes} (short : content.length ≤ bytes) :
    (Item.buffer content).Compact bytes width := by
  constructor
  · rintro other (same | same) <;> cases same
    exact short
  · intro value same
    cases same

end Item

/-- Bounds that leave room for what the limits allow: for the longest literals, for counts and for
integers that are written out. -/
structure Limits.Roomy (limits : Limits) (bytes width : Nat) : Prop where
  literals : 32 ≤ width
  integers : limits.integerSize ≤ width
  writable : width ≤ bytes
  items : limits.itemSize ≤ bytes
  words : bytes ≤ wordMax
  elements : limits.arraySize ≤ wordMax
  stack : limits.stackSize ≤ wordMax

namespace Item

variable {limits : Limits} {bytes width : Nat} {item : Item}

theorem compact_count (roomy : limits.Roomy bytes width) {value : Int} (nonneg : 0 ≤ value)
    (word : value ≤ wordMax) : (Item.integer value).Compact bytes width := by
  have nine := TwosComplement.width_le_of_word nonneg word
  have literals := roomy.literals
  exact compact_integer (by omega)

theorem compact_byte (roomy : limits.Roomy bytes width) (byte : UInt8) :
    (Item.integer byte.toNat).Compact bytes width := by
  have small := byte.toNat_lt
  refine compact_count roomy (Int.natCast_nonneg _) ?_
  unfold wordMax
  omega

/-! ### Bytes -/

theorem toBytes_length_le (roomy : limits.Roomy bytes width) (held : item.Compact bytes width) :
    Ensures (fun content => content.length ≤ bytes) item.toBytes := by
  have literals := roomy.literals
  have writable := roomy.writable
  unfold toBytes
  cases item with
  | boolean value =>
    refine Ensures.ok ?_
    rw [List.length_singleton]
    omega
  | integer value => exact Ensures.ok ((held.narrow value rfl).trans writable)
  | byteString content => exact Ensures.ok (held.short content (Or.inl rfl))
  | buffer content => exact Ensures.ok (held.short content (Or.inr rfl))
  | _ => exact Ensures.error _

theorem slice_length_le (index count : Nat) (content : Bytes) :
    Ensures (fun part => part.length ≤ content.length) (slice index count content) := by
  unfold slice
  split
  · refine Ensures.ok ?_
    rw [List.length_take, List.length_drop]
    omega
  · exact Ensures.error _

theorem slice_compact {content : Bytes} (short : content.length ≤ bytes) (index count : Nat) :
    Ensures (Compact bytes width) (slice index count content >>= fun part => pure (.buffer part)) :=
  (slice_length_le index count content).bind fun _ le =>
    Ensures.pure (compact_buffer (le.trans short))

theorem substring_compact (roomy : limits.Roomy bytes width) (limit : Nat) (length index : Item)
    (held : item.Compact bytes width) :
    Ensures (Compact bytes width) (substring limit length index item) := by
  refine (toBytes_length_le roomy held).bind fun content short => ?_
  refine Ensures.bind_any fun start => Ensures.bind_any fun count => Ensures.bind_any fun _ => ?_
  exact slice_compact short start count

theorem left_compact (roomy : limits.Roomy bytes width) (limit : Nat) (length : Item)
    (held : item.Compact bytes width) : Ensures (Compact bytes width) (left limit length item) := by
  refine (toBytes_length_le roomy held).bind fun content short => ?_
  refine Ensures.bind_any fun count => Ensures.bind_any fun _ => ?_
  exact slice_compact short 0 count

theorem right_compact (roomy : limits.Roomy bytes width) (limit : Nat) (length : Item)
    (held : item.Compact bytes width) :
    Ensures (Compact bytes width) (right limit length item) := by
  refine (toBytes_length_le roomy held).bind fun content short => Ensures.bind_any fun count => ?_
  split
  · exact slice_compact short _ count
  · exact Ensures.throw _

/-- A buffer that bytes are copied into keeps its length. -/
theorem copyInto_compact (limit : Nat) (length sourceIndex source targetIndex : Item)
    (held : item.Compact bytes width) :
    Ensures (Compact bytes width) (copyInto limit length sourceIndex source targetIndex item) := by
  refine Ensures.bind_any fun count => Ensures.bind_any fun content => ?_
  refine Ensures.bind_any fun start => Ensures.bind_any fun _ => ?_
  split
  · rename_i target
    refine Ensures.bind_any fun place => Ensures.bind_any fun _ => Ensures.bind_any fun part => ?_
    refine (Ensures.self _).bind fun result spliced => Ensures.pure (compact_buffer ?_)
    rw [length_of_splice spliced]
    exact held.short target (Or.inr rfl)
  · exact Ensures.throw _

/-! ### Numbers -/

theorem ofInteger_compact (roomy : limits.Roomy bytes width) (value : Int) :
    Ensures (Compact bytes width) (ofInteger limits.integerSize value) := by
  unfold ofInteger
  split
  · exact Ensures.error _
  · rename_i short
    exact Ensures.ok (compact_integer ((Nat.not_lt.1 short).trans roomy.integers))

theorem readInteger_compact (roomy : limits.Roomy bytes width) (content : Bytes) :
    Ensures (fun value => (Item.integer value).Compact bytes width)
      (readInteger limits.integerSize content) := by
  unfold readInteger
  split
  · exact Ensures.error _
  · rename_i short
    have narrow := TwosComplement.width_decode_le content
    have integers := roomy.integers
    exact Ensures.ok (compact_integer (by omega))

theorem toInteger_compact (roomy : limits.Roomy bytes width) (held : item.Compact bytes width) :
    Ensures (fun value => (Item.integer value).Compact bytes width)
      (item.toInteger limits.integerSize) := by
  unfold toInteger
  cases item with
  | boolean value =>
    refine Ensures.ok (compact_count roomy ?_ ?_) <;> cases value <;> decide
  | integer value => exact Ensures.ok held
  | byteString content => exact readInteger_compact roomy content
  | _ => exact Ensures.error _

/-! ### Other operations -/

theorem convert_compact (roomy : limits.Roomy bytes width) (target : ItemKind)
    (held : item.Compact bytes width) :
    Ensures (Compact bytes width) (item.convert limits.integerSize target) := by
  have content := toBytes_length_le roomy held
  unfold convert
  split
  · exact Ensures.ok held
  · split
    all_goals first
      | exact Ensures.ok (compact_of_unsized rfl)
      | exact Ensures.map (readInteger_compact roomy _)
      | exact Ensures.map (toInteger_compact roomy held)
      | exact Ensures.map (content.mono fun _ => compact_byteString)
      | exact Ensures.map (content.mono fun _ => compact_buffer)
      | exact Ensures.error _

theorem pickItem_compact (roomy : limits.Roomy bytes width) (key : Item)
    (parts : ∀ part ∈ item.parts, part.Compact bytes width) :
    Ensures (Compact bytes width) (pickItem limits key item) := by
  refine (pickItem_ensures limits key item).mono fun picked source => ?_
  rcases source with part | ⟨byte, rfl⟩
  · exact parts picked part
  · exact compact_byte roomy byte

theorem setItem_compact (limits : Limits) (key value : Item) (held : item.Compact bytes width) :
    Ensures (Compact bytes width) (setItem limits key value item) := by
  unfold setItem
  cases item with
  | array _ | struct _ =>
    refine Ensures.bind_any fun _ => Ensures.bind_any fun _ => ?_
    exact Ensures.pure (compact_of_unsized rfl)
  | map _ => exact Ensures.bind_any fun _ => Ensures.pure (compact_of_unsized rfl)
  | buffer content =>
    have same (index : Nat) (byte : UInt8) : Ensures (fun result => result.length = content.length)
        (replace content index byte) :=
      Ensures.bind_any fun _ => Ensures.pure (List.length_set ..)
    refine Ensures.bind_any fun index => Ensures.bind_any fun byte => ?_
    refine (same index byte).bind fun result kept => Ensures.pure (compact_buffer ?_)
    rw [kept]
    exact held.short content (Or.inr rfl)
  | _ => exact Ensures.error _

theorem reverseItems_compact (held : item.Compact bytes width) :
    Ensures (Compact bytes width) item.reverseItems := by
  unfold reverseItems
  cases item with
  | array _ | struct _ => exact Ensures.ok (compact_of_unsized rfl)
  | buffer content =>
    refine Ensures.ok (compact_buffer ?_)
    rw [List.length_reverse]
    exact held.short content (Or.inr rfl)
  | _ => exact Ensures.error _

/-- The size of an item is a word. -/
theorem size?_le (roomy : limits.Roomy bytes width) (shapely : item.Shapely limits)
    (held : item.Compact bytes width) {count : Nat} (counted : item.size? = some count) :
    count ≤ wordMax := by
  unfold size? at counted
  cases elements : item.elementCount? with
  | some size =>
    rw [elements] at counted
    cases counted
    exact (shapely.elements _ elements).trans roomy.elements
  | none =>
    rw [elements] at counted
    obtain ⟨content, bytesOf, rfl⟩ := byteLength?_eq_some_iff.1 counted
    exact (toBytes_length_le roomy held content bytesOf).trans roomy.words

end Item

/-! ## What instructions bring in

Literals are as long as their operand says, and what is declared for them is their size. The same
holds of what is made with a count or put together from two items, as long as the declared size is a
word that was not cut off; only a ceiling of the largest word would let through more. -/

namespace Behaviour

/-- What a behaviour takes from the code, counts or makes anew is within bounds. -/
def Measured (behaviour : Behaviour) (limit bytes width : Nat) (instruction : Instruction)
    (frame : Frame) (arguments : List Item) : Prop :=
  match behaviour with
  | .pushInteger => instruction.operand.length ≤ width
  | .pushData => instruction.operand.length ≤ bytes
  | .countItems => frame.stack.length ≤ wordMax
  | .newBuffer => ∀ item size, arguments = [item] → item.toCount limit = .ok size → size ≤ bytes
  | .join => ∀ second first front back, arguments = [second, first] → first.toBytes = .ok front →
      second.toBytes = .ok back → front.length + back.length ≤ bytes
  | _ => True

end Behaviour

namespace Opcode

theorem layout_of_pushInteger {opcode : Opcode}
    (pushes : opcode.standardEntry.behaviour = .pushInteger) :
    ∃ size ≤ 32, opcode.layout = .fixed size := by
  cases opcode <;> first
    | exact ⟨_, by decide, rfl⟩
    | cases pushes

theorem refinement_of_pushData {opcode : Opcode}
    (pushes : opcode.standardEntry.behaviour = .pushData) :
    opcode.standardEntry.refinement = none ∧ ∃ size, opcode.layout = .counted size := by
  cases opcode <;> first
    | exact ⟨rfl, _, rfl⟩
    | cases pushes

theorem smallInt?_bounds {opcode : Opcode} {value : Int} (small : opcode.smallInt? = some value) :
    -1 ≤ value ∧ value ≤ 16 := by
  unfold smallInt? at small
  dsimp only at small
  split at small
  · cases small
    omega
  · cases small

end Opcode

namespace Machine

variable {machine : Machine} {invocation : Invocation} {frame : Frame} {instruction : Instruction}

/-- Data from the code are declared with their length. -/
theorem itemSize_of_pushData (standard : machine.table = {})
    (found : machine.instructionAt? invocation frame = some instruction)
    (pushes : instruction.behaviour = .pushData) :
    instruction.demand.itemSize = instruction.operand.length := by
  obtain ⟨base, readWith, resolves⟩ := readWith_standardEntry standard found
  cases resolves with
  | fixed _ =>
    obtain ⟨_, size, layout⟩ := Opcode.refinement_of_pushData (readWith.behaviour ▸ pushes)
    rw [readWith.demand]
    dsimp only [Instruction.operandItemSize]
    rw [layout]
  | refined refinement demand refined _ =>
    obtain ⟨unrefined, _⟩ := Opcode.refinement_of_pushData (readWith.behaviour ▸ pushes)
    rw [readWith.refinement, unrefined] at refined
    cases refined

/-- What an admitted instruction brings in is within bounds. Where the ceiling for items is the
largest word, the declared size of two items put together does not show whether it is more. -/
theorem measured_of_found (standard : machine.table = {})
    (found : machine.instructionAt? invocation frame = some instruction)
    (admitted : machine.config.limits.Admits frame instruction) {bytes width : Nat}
    (roomy : machine.config.limits.Roomy bytes width) (stack : frame.stack.length ≤ wordMax)
    (addressable : machine.config.limits.itemSize = wordMax →
      frame.peekLength 1 + frame.peekLength 0 ≤ wordMax) :
    instruction.behaviour.Measured machine.config.limits.integerSize bytes width instruction
      (frame.charged instruction) (frame.argumentsOf instruction).stack := by
  have items := roomy.items
  have declared := admitted.itemSize
  have standardBehaviour := behaviour_of_standard standard found
  have own (refinement : Refinement) := resolved_of_found standard found refinement
  cases behaviour : instruction.behaviour
  case pushInteger =>
    rw [behaviour] at standardBehaviour
    obtain ⟨size, short, layout⟩ := Opcode.layout_of_pushInteger standardBehaviour.symm
    have length := (fixed_of_found found layout).2
    have literals := roomy.literals
    show instruction.operand.length ≤ width
    omega
  case pushData =>
    rw [itemSize_of_pushData standard found behaviour] at declared
    exact declared.trans items
  case countItems =>
    have fewer := (List.drop_sublist instruction.demand.stackIn frame.stack).length_le
    exact fewer.trans stack
  case newBuffer =>
    rw [behaviour] at own
    obtain ⟨base, _, _, resolved⟩ := own .newBuffer rfl
    intro item size arguments counted
    dsimp only [Refinement.resolve] at resolved
    rw [host, Frame.peekCount?_of_take arguments counted] at resolved
    rw [← Except.ok.inj resolved] at declared
    exact declared.trans items
  case join =>
    rw [behaviour] at own
    obtain ⟨base, _, _, resolved⟩ := own .join rfl
    intro second first front back arguments firstBytes secondBytes
    have seen : frame.peek? 0 = some second := Frame.peek?_of_take arguments rfl
    have under : frame.peek? 1 = some first := Frame.peek?_of_take arguments rfl
    have top := Frame.peekLength_of_toBytes seen secondBytes
    have below := Frame.peekLength_of_toBytes under firstBytes
    dsimp only [Refinement.resolve] at resolved
    rw [← Except.ok.inj resolved] at declared
    rw [top, below] at declared addressable
    dsimp only [saturate] at declared
    by_cases largest : machine.config.limits.itemSize = wordMax
    · have enough := addressable largest
      omega
    · have smaller := roomy.words
      omega
  all_goals trivial

end Machine

/-! ## Results

Behaviour by behaviour, as results each of which is compact itself (`Results.Each`). What is inside
them is taken care of by composition (`Behaviour.run_composed`), so nothing is said of it here. -/

/-- The numbers and values that a service may bring in are within bounds. -/
structure Service.Supplied (bytes : Nat) (host : Host) (frame : Frame) (world : World) : Prop where
  time : ∀ block, host.invocation.block = some block → block.timestamp ≤ wordMax
  nonneg : 0 ≤ frame.gas
  gas : frame.gas ≤ wordMax
  stored : ∀ key value, world.store.getStorage key = .ok (some value) → value.length ≤ bytes

namespace Service

variable {limits : Limits} {bytes width : Nat}

theorem hashItem_compact (roomy : limits.Roomy bytes width) (hash : ScriptHash) :
    (hashItem hash).Compact bytes width := by
  have length := hash.length_eq
  have literals := roomy.literals
  have writable := roomy.writable
  exact Item.compact_byteString (by omega)

theorem run_compact (roomy : limits.Roomy bytes width) (service : Service) {host : Host}
    {frame : Frame} {world : World} (supplied : Supplied bytes host frame world)
    (arguments : List Item) :
    Ensures (Results.Each (Item.Compact bytes width))
      (service.run host frame world arguments) := by
  have hash (hash : ScriptHash) : (Results.one (hashItem hash) world).Each
      (Item.Compact bytes width) :=
    Results.each_one (hashItem_compact roomy hash)
  have unsized {item : Item} {after : World} (unsized : item.isSized = false) :
      (Results.one item after).Each (Item.Compact bytes width) :=
    Results.each_one (Item.compact_of_unsized unsized)
  cases service
  case getTrigger =>
    refine Ensures.ok (Results.each_one (Item.compact_count roomy (Int.natCast_nonneg _) ?_))
    cases host.invocation.trigger <;> decide
  case getTime =>
    unfold run
    cases given : host.invocation.block with
    | none => exact Ensures.error _
    | some block =>
      refine Ensures.ok (Results.each_one (Item.compact_count roomy (Int.natCast_nonneg _) ?_))
      exact Int.ofNat_le.2 (supplied.time block given)
  case gasLeft =>
    exact Ensures.ok (Results.each_one (Item.compact_count roomy supplied.nonneg supplied.gas))
  case getExecutingScriptHash => exact Ensures.ok (hash _)
  case getEntryScriptHash => exact Ensures.ok (hash _)
  case getCallingScriptHash =>
    unfold run
    cases frame.calling with
    | none => exact Ensures.ok (unsized rfl)
    | some caller => exact Ensures.ok (hash caller)
  case storageGet =>
    refine Ensures.bind_any fun _ => Ensures.bind_any fun _ => Ensures.bind_any fun key => ?_
    refine ofStore_ensures.bind fun value read => ?_
    cases value with
    | none => exact Ensures.pure (unsized rfl)
    | some value =>
      exact Ensures.pure (Results.each_one (Item.compact_byteString (supplied.stored _ _ read)))
  case contractCreate =>
    refine Ensures.bind_any fun _ => Ensures.bind_any fun code => ?_
    dsimp only
    split
    · exact Ensures.throw _
    · refine Ensures.bind_any fun _ => ?_
      split
      · exact Ensures.throw _
      · refine Ensures.bind_any fun _ => Ensures.pure ⟨?_, List.forall_mem_nil _⟩
        exact List.forall_mem_singleton.2 (hashItem_compact roomy _)
  -- The others give a truth value, a handle or nothing.
  all_goals
    dsimp only [run]
    repeat' with_reducible first
      | refine Ensures.bind_any fun _ => ?_
      | exact Ensures.error _
      | exact Ensures.throw _
      | refine Ensures.ok ?_
      | refine Ensures.pure ?_
      | split
  all_goals first
    | exact unsized rfl
    | exact Results.each_of_nil rfl rfl

end Service

namespace Behaviour

variable (behaviour : Behaviour) (host : Host) (instruction : Instruction) (frame : Frame)
  (world : World) (arguments : Arguments)

/-- What a behaviour makes of compact items is compact, if what it brings in is within bounds. -/
theorem run_compact {bytes width : Nat} (roomy : host.limits.Roomy bytes width)
    (ordinary : ∀ stack alt, behaviour ≠ .constant stack alt)
    (measured : behaviour.Measured host.limits.integerSize bytes width instruction frame
      arguments.stack)
    (supplied : Service.Supplied bytes host frame world)
    (shapely : ∀ item ∈ arguments.stack, item.Shapely host.limits)
    (stack : ∀ item ∈ arguments.stack, item.Everywhere (Item.Compact bytes width))
    (alt : ∀ item ∈ arguments.alt, item.Everywhere (Item.Compact bytes width)) :
    Ensures (Results.Each (Item.Compact bytes width))
      (behaviour.run host instruction frame world arguments) := by
  have own : ∀ item ∈ arguments.stack, item.Compact bytes width :=
    fun item member => (stack item member).own
  by_cases moves : behaviour.moves = true
  · exact run_moves _ _ _ _ _ _ moves (Item.compact_of_unsized rfl) own
      fun item member => (alt item member).own
  have one {item : Item} (compact : item.Compact bytes width) :
      Ensures (Results.Each (Item.Compact bytes width))
        (.ok (.one item world) : Except Fault Results) :=
    Ensures.ok (Results.each_one compact)
  have orFault {result : Except Fault Item} (compact : Ensures (Item.Compact bytes width) result) :
      Ensures (Results.Each (Item.Compact bytes width)) (result.map (.one · world)) :=
    Ensures.map (compact.mono fun _ => Results.each_one)
  have first := Arguments.one_all own
  have both := Arguments.two_all own
  have three := Arguments.three_all own
  cases behaviour
  case constant stack alt => exact absurd rfl (ordinary stack alt)
  case systemCall =>
    refine Ensures.bind_any fun service => ?_
    dsimp only
    split
    · exact service.run_compact roomy supplied arguments.stack
    · exact Ensures.throw _
  -- Numbers.
  case pushInteger =>
    exact one (Item.compact_integer ((TwosComplement.width_decode_le _).trans measured))
  case pushSmall =>
    refine orFault ?_
    unfold smallInteger
    split
    · rename_i value small
      obtain ⟨low, high⟩ := Opcode.smallInt?_bounds small
      have narrow : TwosComplement.width value ≤ 1 :=
        TwosComplement.width_le_of_fits (by omega) (by omega)
      have literals := roomy.literals
      exact Ensures.ok (Item.compact_integer (by omega))
    · exact Ensures.error _
  case countItems =>
    exact one (Item.compact_count roomy (Int.natCast_nonneg _) (Int.ofNat_le.2 measured))
  case unary =>
    refine Ensures.bind_any fun argument => orFault (Ensures.bind_any fun x => ?_)
    split
    · exact Item.ofInteger_compact roomy _
    · exact Ensures.throw _
  case binary =>
    refine Ensures.bind_any fun arguments => orFault ?_
    refine Ensures.bind_any fun x => Ensures.bind_any fun y => ?_
    split
    · exact Ensures.bind_any fun _ => Item.ofInteger_compact roomy _
    · exact Ensures.throw _
  case size =>
    have sizes : ∀ item ∈ arguments.stack, item.Shapely host.limits ∧ item.Compact bytes width :=
      fun item member => ⟨shapely item member, own item member⟩
    refine (Arguments.one_all sizes).bind fun item ⟨shape, held⟩ => ?_
    split
    · rename_i count counted
      have word := Item.size?_le roomy shape held counted
      exact one (Item.compact_count roomy (Int.natCast_nonneg _) (Int.ofNat_le.2 word))
    · exact Ensures.throw _
  -- Byte items.
  case pushData => exact one (Item.compact_byteString measured)
  case newBuffer =>
    refine Arguments.one_ensures.bind fun item only => (Ensures.self _).bind fun size counted => ?_
    have zeros : Ensures (fun content => content.length ≤ bytes) (zeros size) := by
      refine Ensures.bind_any fun _ => Ensures.pure ?_
      rw [List.length_replicate]
      exact measured item size only counted
    exact zeros.bind fun _ short => one (Item.compact_buffer short)
  case copyInto =>
    exact (Arguments.five_all own).bind fun _ held =>
      orFault (Item.copyInto_compact _ _ _ _ _ held.2.2.2.2)
  case join =>
    refine Arguments.two_ensures.bind fun (second, first) both => orFault ?_
    refine (Ensures.self _).bind fun front firstBytes => ?_
    refine (Ensures.self _).bind fun back secondBytes => Ensures.pure (Item.compact_buffer ?_)
    rw [List.length_append]
    exact measured second first front back both firstBytes secondBytes
  case substring =>
    exact three.bind fun _ held => orFault (Item.substring_compact roomy _ _ _ held.2.2)
  case left => exact both.bind fun _ held => orFault (Item.left_compact roomy _ _ held.2)
  case right => exact both.bind fun _ held => orFault (Item.right_compact roomy _ _ held.2)
  -- Compound items.
  case unpack =>
    have sizes : ∀ item ∈ arguments.stack,
        item.Shapely host.limits ∧ item.Everywhere (Item.Compact bytes width) :=
      fun item member => ⟨shapely item member, stack item member⟩
    refine (Arguments.one_all sizes).bind fun item ⟨shape, held⟩ => ?_
    refine (Item.unpack_ensures item).bind ?_
    rintro items ⟨count, counted, rfl⟩
    have word := (shape.elements count counted).trans roomy.elements
    refine Ensures.ok (Results.each_many (List.forall_mem_cons.2 ⟨?_, ?_⟩))
    · exact Item.compact_count roomy (Int.natCast_nonneg _) (Int.ofNat_le.2 word)
    · exact fun part member => (held.parts part member).own
  case pickItem =>
    refine (Arguments.two_all stack).bind fun (key, item) held => orFault ?_
    exact Item.pickItem_compact roomy key fun part member => (held.2.parts part member).own
  case setItem => exact three.bind fun _ held => orFault (Item.setItem_compact _ _ _ held.2.2)
  case reverseItems => exact first.bind fun _ held => orFault (Item.reverseItems_compact held)
  case convert =>
    exact Ensures.bind_any fun _ => first.bind fun _ held =>
      orFault (Item.convert_compact roomy _ held)
  all_goals first
    | exact absurd rfl moves
    | skip
  -- The others give items that are not sized, or none.
  all_goals
    dsimp only [run, pointer, withinResult, comparisonResult, emptyCompound, sizedCompound,
      Item.keys, Item.values, Item.append, Item.removeItem, Item.clearItems]
    repeat' with_reducible first
      | refine Ensures.bind_any fun _ => ?_
      | exact Ensures.error _
      | exact Ensures.throw _
      | exact one (Item.compact_of_unsized rfl)
      | exact Ensures.ok (Results.each_of_nil rfl rfl)
      | exact Ensures.map_any fun _ => Results.each_of_nil rfl rfl
      | exact Ensures.ok (Item.compact_of_unsized rfl)
      | exact Ensures.pure (Item.compact_of_unsized rfl)
      | refine orFault ?_
      | split

end Behaviour

end GasMachine
