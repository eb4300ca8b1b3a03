import GasMachine.Proofs.Compact
import GasMachine.Proofs.GasAccount
import GasMachine.Proofs.Settlement
import GasMachine.Proofs.StackCeiling

/-!
# The size of byte items and integers

What instructions make of compact items is compact, as far as the frame, the host and the store
supply nothing longer. At every stage of a chain they do not: the stacks and the gas stay in their
ranges, and the store keeps its own bound, since nothing longer than a byte item is ever written
(`Execution.Furnished`).

With the ceilings as bounds this says that a chain keeps to the ceiling for byte items. Of integers
it says less, because those in the code are not measured: the ceiling for integers holds if it is
32 or more (`Machine.integers_of_mem_stages`), and not otherwise.
-/

set_option autoImplicit false

namespace GasMachine

open TwosComplement (signedMax wordMax)

/-! ## The store

The store needs an invariant of its own (`LayeredStore.Short`), because a value that is read comes
on the stack. Every write was measured when it was made, and the snapshot has no longer values than
the bound to begin with. -/

/-- An entry as it was written: the key is short, and so is the value if there is one. -/
structure ShortEntry (bytes : Nat) (key : StorageKey) (written : Option Bytes) : Prop where
  key : key.key.length ≤ 64
  value : ∀ value, written = some value → value.length ≤ bytes

/-- A change of nothing but short entries and contracts. -/
def Write.Short (bytes : Nat) (change : Write) : Prop :=
  ∀ key, change.place = .entry key → ShortEntry bytes key change.value

/-- A layer in which all entries written are short. -/
def ChangeSet.Short (bytes : Nat) (changes : ChangeSet) : Prop :=
  ∀ key written, changes.storage[key]? = some written → ShortEntry bytes key written

/-- All writes are held back in one layer over a snapshot, and short. -/
def LayeredStore.Short (bytes : Nat) (snapshot : Snapshot) (store : LayeredStore) : Prop :=
  ∃ changes : ChangeSet, store = { layers := [changes], base := snapshot } ∧ changes.Short bytes

/-- A snapshot without long values. -/
def Snapshot.Short (bytes : Nat) (snapshot : Snapshot) : Prop :=
  ∀ (key : StorageKey) (value : Bytes), snapshot.contents.storage[key]? = some value →
    value.length ≤ bytes

section Store

variable {bytes : Nat} {snapshot : Snapshot} {store after : LayeredStore} {change : Write}

theorem ChangeSet.Short.record {changes : ChangeSet} (short : changes.Short bytes)
    (entry : change.Short bytes) : (changes.record change).Short bytes := by
  intro key written said
  have recorded := changes.value?_record change (.entry key)
  by_cases here : change.place = .entry key
  · rw [if_pos here] at recorded
    cases recorded.symm.trans said
    exact entry key here
  · rw [if_neg here] at recorded
    exact short key written (recorded.symm.trans said)

theorem LayeredStore.Short.write (short : store.Short bytes snapshot) (entry : change.Short bytes)
    (written : store.write change = .ok after) : after.Short bytes snapshot := by
  obtain ⟨changes, rfl, short⟩ := short
  cases written
  exact ⟨changes.record change, rfl, short.record entry⟩

theorem Snapshot.getStorage_ensures (snapshot : Snapshot) (key : StorageKey) :
    Ensures (fun value => snapshot.contents.storage[key]? = value) (snapshot.getStorage key) :=
  Ensures.bind_any fun _ => Ensures.pure rfl

/-- What is read through short writes from a snapshot without long values is not long. -/
theorem LayeredStore.Short.getStorage (short : store.Short bytes snapshot)
    (base : snapshot.Short bytes) (key : StorageKey) (value : Bytes)
    (read : store.getStorage key = .ok (some value)) : value.length ≤ bytes := by
  obtain ⟨changes, rfl, short⟩ := short
  unfold LayeredStore.getStorage at read
  rw [List.findSome?_singleton] at read
  cases said : changes.storage[key]? with
  | some written =>
    rw [said] at read
    cases read
    exact (short key _ said).value value rfl
  | none =>
    rw [said] at read
    exact base key value (snapshot.getStorage_ensures key _ read)

theorem Service.readStorageKey_ensures (item : Item) :
    Ensures (fun key => key.length ≤ 64) (readStorageKey item) := by
  refine Ensures.bind_any fun key => ?_
  split
  · exact Ensures.throw _
  · rename_i short
    exact Ensures.pure (Nat.not_lt.1 short)

/-- What a service writes is short. -/
theorem Service.Changes.short {limits : Limits} {arguments : List Item} {service : Service}
    (changes : service.Changes limits arguments change) (items : limits.itemSize ≤ bytes) :
    change.Short bytes := by
  intro place about
  cases changes with
  | put _ _ named _ fits =>
    cases about
    refine ⟨readStorageKey_ensures _ _ named, fun value same => ?_⟩
    cases same
    exact fits.trans items
  | delete _ _ named =>
    cases about
    refine ⟨readStorageKey_ensures _ _ named, fun value same => ?_⟩
    cases same
  | create _ _ => cases about

theorem Machine.short_invariant {machine : Machine} (items : machine.config.limits.itemSize ≤ bytes)
    (invocation : Invocation) (snapshot : Snapshot) :
    Invariant machine invocation (fun stage => stage.world.store.Short bytes snapshot)
      (fun progress => progress.world.store.Short bytes snapshot) := by
  constructor
  case opening => exact fun _ _ _ _ _ short => short
  case tick =>
    intro execution unfinished short
    rcases Execution.world_tick machine invocation unfinished with same | same
    · rw [same]
      exact short
    · rw [same]
      rcases machine.store_step invocation execution.frame execution.world with
        same | ⟨service, arguments, change, _, changes, written⟩
      · rw [same]
        exact short
      · exact short.write (changes.short items) written
  case closing => exact fun _ _ _ short => short

/-- An entry that is handed on in the end is the one that was there, or short. -/
theorem Progress.shortEntry_settle {progress : Progress}
    (short : progress.world.store.Short bytes snapshot) (key : StorageKey) :
    progress.settle.2.contents.storage[key]? = snapshot.contents.storage[key]? ∨
      ShortEntry bytes key progress.settle.2.contents.storage[key]? := by
  obtain ⟨changes, store, short⟩ := short
  have held : progress.world.store.HeldOver snapshot := ⟨changes, store⟩
  cases ending : progress.fault with
  | some record =>
    rw [settle_of_fault held ending]
    exact Or.inl rfl
  | none =>
    rw [(settle_of_halt held ending).2]
    by_cases written :
        Place.entry key ∈ (snapshot.granted progress.world.store.heldBack).map Write.place
    · obtain ⟨change, granted, here⟩ := List.mem_map.1 written
      have inLayer := (snapshot.granted_prefix _).subset granted
      rw [store] at inLayer
      have said := ChangeSet.value?_eq_some_iff.2 ⟨change, inLayer, here, rfl⟩
      have entry := short key change.value said
      rw [← snapshot.contents.valueAt_writeAll_of_mem (nodup_granted held) granted, here] at entry
      exact Or.inr entry
    · exact Or.inl (snapshot.contents.valueAt_writeAll_of_not_mem written)

end Store

/-! ## Chains

Compactness is not kept by itself: it relies on the shape of compound items, on the range of the gas
and on the store. These hold at every stage for reasons of their own and are taken as the guard of
the invariant (`Execution.Furnished`), so that the induction has to carry one thing only. -/

/-- The numbers that a host hands in are words. -/
structure InWords (limits : Limits) (invocation : Invocation) : Prop where
  limits : ∀ field ∈ limits.fields, field.2 ≤ wordMax
  time : ∀ block, invocation.block = some block → block.timestamp ≤ wordMax

theorem InWords.of_fields {limits : Limits} (fields : ∀ field ∈ limits.fields, field.2 ≤ wordMax) :
    InWords limits {} := by
  refine ⟨fields, ?_⟩
  intro block given
  cases given

/-- What is known of a stage beside the sizes of its items. -/
structure Execution.Furnished (limits : Limits) (bytes : Nat) (stage : Execution) : Prop where
  shapely : stage.Holds (Item.Shapely limits)
  gas : stage.frame.gas ≤ signedMax
  stack : stage.frame.isRunning = true → stage.frame.stack.length ≤ limits.stackSize
  stored : ∀ key value, stage.world.store.getStorage key = .ok (some value) → value.length ≤ bytes
  addressable : limits.itemSize = wordMax → stage.frame.isRunning = true →
    stage.frame.peekLength 1 + stage.frame.peekLength 0 ≤ wordMax

namespace Machine

variable {machine : Machine} {invocation : Invocation} {bytes width : Nat}

theorem Acts.compact (standard : machine.table = {})
    (roomy : machine.config.limits.Roomy bytes width)
    (time : ∀ block, invocation.block = some block → block.timestamp ≤ wordMax)
    {stage : Execution} (furnished : stage.Furnished machine.config.limits bytes)
    (held : stage.Holds (Item.Compact bytes width)) (running : stage.frame.isRunning = true)
    {instruction : Instruction} {results : Results}
    (acts : machine.Acts invocation stage.frame stage.world instruction results) :
    results.Everywhere (Item.Compact bytes width) := by
  have initial (kind : ItemKind) : (Item.initial kind).Compact bytes width := by
    cases kind with
    | integer => exact Item.compact_integer (Nat.zero_le _)
    | byteString => exact Item.compact_byteString (Nat.zero_le _)
    | _ => exact Item.compact_of_unsized rfl
  have composed := acts.composed standard held.frame initial
    (fun _ _ => Item.compact_of_unsized rfl) fun _ _ _ _ => Item.compact_of_unsized rfl
  have supplied : Service.Supplied bytes (machine.host invocation)
      (stage.frame.charged instruction) stage.world := by
    have paid : (stage.frame.charged instruction).gas = stage.frame.gas - instruction.fee :=
      Frame.gas_pay_of_le acts.affordable
    have affordable := acts.affordable
    have gas := furnished.gas
    unfold signedMax at gas
    refine ⟨time, by omega, ?_, furnished.stored⟩
    unfold wordMax
    omega
  have stack := (furnished.stack running).trans roomy.stack
  have measured := measured_of_found standard acts.found acts.admitted roomy stack fun largest =>
    furnished.addressable largest running
  refine composed.everywhere_of_each (Behaviour.run_compact instruction.behaviour
    (machine.host invocation) instruction _ stage.world _ roomy ?ordinary measured supplied
    ?shapely ?stack ?alt results acts.ran)
  case ordinary =>
    intro stack alt
    rw [behaviour_of_standard standard acts.found]
    exact Opcode.standardEntry_ne_constant _ _ _
  case shapely =>
    exact fun item member => (furnished.shapely.frame.stack item (List.mem_of_mem_take member)).own
  case stack => exact fun item member => held.frame.stack item (List.mem_of_mem_take member)
  case alt => exact fun item member => held.frame.alt item (List.mem_of_mem_take member)

theorem compact_invariant (standard : machine.table = {})
    (roomy : machine.config.limits.Roomy bytes width)
    (time : ∀ block, invocation.block = some block → block.timestamp ≤ wordMax) :
    GuardedInvariant machine invocation (Execution.Furnished machine.config.limits bytes)
      (Execution.Holds (Item.Compact bytes width))
      (fun progress => progress.residue.Holds (Item.Compact bytes width)) :=
  Execution.holds_invariant standard (Item.compact_of_unsized rfl)
    fun _ furnished held running _ _ acts => acts.compact standard roomy time furnished held running

/-- Memory can address the two topmost items of a frame together. Only a ceiling for items that no
memory reaches asks for this. -/
def Addressable (machine : Machine) (invocation : Invocation) (snapshot : Snapshot) (gas : Int)
    (scripts : List Script) : Prop :=
  machine.config.limits.itemSize = wordMax →
    ∀ stage ∈ machine.steps invocation snapshot gas scripts,
      stage.frame.peekLength 1 + stage.frame.peekLength 0 ≤ wordMax

variable {snapshot : Snapshot} {gas : Int} {scripts : List Script}

theorem addressable_of_ne (ordinary : machine.config.limits.itemSize ≠ wordMax) :
    machine.Addressable invocation snapshot gas scripts := by
  intro largest
  exact absurd largest ordinary

theorem short_opening (machine : Machine) (snapshot : Snapshot) (gas : Int) :
    (machine.opening snapshot gas).world.store.Short bytes snapshot := by
  refine ⟨{}, rfl, fun key written said => ?_⟩
  rw [Std.ExtTreeMap.getElem?_empty] at said
  cases said

theorem furnished_of_mem_stages (standard : machine.table = {})
    (items : machine.config.limits.itemSize ≤ bytes) (base : snapshot.Short bytes)
    (addressable : machine.Addressable invocation snapshot gas scripts) {stage : Execution}
    (member : stage ∈ machine.stages invocation snapshot gas scripts) :
    stage.Furnished machine.config.limits bytes := by
  constructor
  case shapely =>
    have empty : (machine.opening snapshot gas).residue.Holds
        (Item.Shapely machine.config.limits) :=
      ⟨List.forall_mem_nil _, List.forall_mem_nil _⟩
    exact ((shapely_invariant standard invocation).chain snapshot gas empty scripts
      fun _ _ => trivial).1 stage member
  case gas =>
    have inPurse := (purse standard invocation _).chain snapshot gas
      (machine.inPurse_opening snapshot gas) scripts stage member
    have fits := (fitsSigned_iff (machine.opening snapshot gas).gas).1 (fitsSigned_clamp _)
    have upper := inPurse.upper
    unfold signedMax
    omega
  case stack =>
    intro running
    have start : Between machine.config.limits.stackSize (machine.opening snapshot gas) :=
      ⟨rfl, rfl, fun _ => Nat.zero_le _⟩
    obtain ⟨_, sized⟩ := (sized_invariant standard).chain snapshot gas start scripts stage member
    have fits := sized.fits (Frame.fault?_eq_none_of_isRunning running)
    unfold Frame.totalSize Frame.ownSize at fits
    omega
  case stored =>
    have short := (short_invariant items invocation snapshot).chain snapshot gas
      (machine.short_opening snapshot gas) scripts stage member
    exact short.getStorage base
  case addressable =>
    intro largest running
    exact addressable largest stage (List.mem_filter.2 ⟨member, running⟩)

theorem compact_stages (standard : machine.table = {})
    (roomy : machine.config.limits.Roomy bytes width)
    (time : ∀ block, invocation.block = some block → block.timestamp ≤ wordMax)
    (base : snapshot.Short bytes)
    (addressable : machine.Addressable invocation snapshot gas scripts) :
    ∀ stage ∈ machine.stages invocation snapshot gas scripts,
      stage.Holds (Item.Compact bytes width) := by
  have empty : (machine.opening snapshot gas).residue.Holds (Item.Compact bytes width) :=
    ⟨List.forall_mem_nil _, List.forall_mem_nil _⟩
  exact ((compact_invariant standard roomy time).chain snapshot gas empty scripts
    fun stage member => furnished_of_mem_stages standard roomy.items base addressable member).1

theorem shortEntry_executeChain (items : machine.config.limits.itemSize ≤ bytes)
    (invocation : Invocation) (snapshot : Snapshot) (gas : Int) (scripts : List Script)
    (key : StorageKey) :
    (machine.executeChain invocation snapshot gas scripts).snapshot.contents.storage[key]? =
        snapshot.contents.storage[key]? ∨
      ShortEntry bytes key
        (machine.executeChain invocation snapshot gas scripts).snapshot.contents.storage[key]? := by
  cases scripts with
  | nil => exact Or.inl rfl
  | cons first rest =>
    rw [(machine.executeChain_settle invocation snapshot gas first rest).2]
    exact Progress.shortEntry_settle ((short_invariant items invocation snapshot).progress snapshot
      gas (machine.short_opening snapshot gas) _) key

/-! ### Byte items

The bounds are the ceilings themselves here, which leaves room for literals only if integers may
have 32 bytes and byte items as many as integers. -/

/-- The ceiling for byte items holds of all that a chain makes, on the stacks and in the store. -/
structure KeepsItemSize (machine : Machine) (invocation : Invocation) (snapshot : Snapshot)
    (gas : Int) (scripts : List Script) : Prop where
  items : ∀ stage ∈ machine.stages invocation snapshot gas scripts,
    stage.Holds (Item.Compact machine.config.limits.itemSize machine.config.limits.integerSize)
  /-- What is held back in the layers of the store. -/
  buffered : ∀ stage ∈ machine.stages invocation snapshot gas scripts,
    ∀ layer ∈ stage.world.store.layers, layer.Short machine.config.limits.itemSize
  stored : (machine.executeChain invocation snapshot gas scripts).snapshot.Short
    machine.config.limits.itemSize
  /-- An entry that is not as before has been written, so its key is short. -/
  written : ∀ key : StorageKey,
    (machine.executeChain invocation snapshot gas scripts).snapshot.contents.storage[key]? ≠
      snapshot.contents.storage[key]? → key.key.length ≤ 64

theorem keepsItemSize_executeChain (config : Config) (invocation : Invocation)
    (snapshot : Snapshot) (gas : Int) (scripts : List Script)
    (literals : 32 ≤ config.limits.integerSize)
    (writable : config.limits.integerSize ≤ config.limits.itemSize)
    (words : InWords config.limits invocation) (base : snapshot.Short config.limits.itemSize)
    (addressable : (standard config).Addressable invocation snapshot gas scripts) :
    (standard config).KeepsItemSize invocation snapshot gas scripts := by
  have fields := words.limits
  simp only [Limits.fields, List.forall_mem_cons] at fields
  obtain ⟨stack, _, elements, items, _⟩ := fields
  have roomy : config.limits.Roomy config.limits.itemSize config.limits.integerSize :=
    ⟨literals, Nat.le_refl _, writable, Nat.le_refl _, items, elements, stack⟩
  have entry (key : StorageKey) :=
    shortEntry_executeChain (Nat.le_refl (standard config).config.limits.itemSize) invocation
      snapshot gas scripts key
  constructor
  case items => exact compact_stages rfl roomy words.time base addressable
  case buffered =>
    intro stage member layer there
    have invariant := short_invariant (Nat.le_refl (standard config).config.limits.itemSize)
      invocation snapshot
    obtain ⟨changes, store, short⟩ := invariant.chain snapshot gas
      ((standard config).short_opening snapshot gas) scripts stage member
    rw [store] at there
    rw [List.mem_singleton.1 there]
    exact short
  case stored =>
    intro key value there
    rcases entry key with same | short
    · exact base key value (same.symm.trans there)
    · exact short.value value there
  case written =>
    intro key differs
    rcases entry key with same | short
    · exact absurd same differs
    · exact short.key

/-- Byte items of 32 bytes at most. -/
def wide : Config := { limits := { itemSize := 32 } }

/-- A snapshot with a value as long as it may be. -/
def fullEntry : Snapshot :=
  { contents := { storage := Std.ExtTreeMap.insert ∅ ⟨Hash.zero, []⟩ (List.replicate 32 1) } }

theorem short_fullEntry : fullEntry.Short 32 := by
  intro key value there
  unfold fullEntry at there
  dsimp only at there
  rw [Std.ExtTreeMap.getElem?_insert] at there
  split at there
  · cases there
    decide
  · rw [Std.ExtTreeMap.getElem?_empty] at there
    cases there

/-- A script that makes an item of 32 bytes, twice the same sixteen, and stores it. -/
def doubler : Script :=
  { code := (Opcode.PUSHDATA1.code :: 16 :: List.replicate 16 7)
      ++ [Opcode.DUP.code, Opcode.CAT.code, Opcode.PUSHDATA1.code, 1, 0x6b]
      ++ Opcode.SYSCALL.code :: Bytes.ofNat 4 Service.getContext.id
      ++ Opcode.SYSCALL.code :: Bytes.ofNat 4 Service.storagePut.id }

theorem keepsItemSize_doubler :
    ((standard wide).stages {} fullEntry 10_000_000 [doubler]).any (fun stage =>
        stage.world.store.layers.map (fun layer => layer.storage.toList.map Prod.snd) =
          [[some (List.replicate 32 7)]]) = true ∧
      (standard wide).KeepsItemSize {} fullEntry 10_000_000 [doubler] := by
  have words : InWords wide.limits {} := InWords.of_fields (by decide)
  refine ⟨by decide +kernel, ?_⟩
  exact keepsItemSize_executeChain wide {} fullEntry 10_000_000 [doubler] (by decide) (by decide)
    words short_fullEntry (addressable_of_ne (by decide))

/-! ### Integers

Here byte items are only bounded by the largest word, so that no order among the ceilings is needed
and integers are bounded for every configuration. -/

/-- Integers have no more bytes than the ceiling allows, or no more than a literal can have. -/
theorem integers_of_mem_stages (config : Config) (invocation : Invocation) (snapshot : Snapshot)
    (gas : Int) (scripts : List Script) (words : InWords config.limits invocation)
    (base : snapshot.Short wordMax)
    (addressable : (standard config).Addressable invocation snapshot gas scripts)
    (stage : Execution)
    (member : stage ∈ (standard config).stages invocation snapshot gas scripts) :
    stage.Holds (Item.Narrow (max config.limits.integerSize 32)) := by
  have fields := words.limits
  simp only [Limits.fields, List.forall_mem_cons] at fields
  obtain ⟨stack, _, elements, items, integers, _⟩ := fields
  have writable : max config.limits.integerSize 32 ≤ wordMax := Nat.max_le.2 ⟨integers, by decide⟩
  have roomy : config.limits.Roomy wordMax (max config.limits.integerSize 32) :=
    ⟨Nat.le_max_right _ _, Nat.le_max_left _ _, writable, items, Nat.le_refl _, elements, stack⟩
  have compact := compact_stages (rfl : (standard config).table = {}) roomy words.time base
    addressable stage member
  exact compact.mono fun item held => held.narrow

/-- Integers of one byte at most. -/
def oneByte : Config := { limits := { integerSize := 1 } }

/-- A script with the number 1000 as a literal. -/
def thousand : Script := { code := [Opcode.PUSHINT16.code, 0xe8, 0x03] }

theorem thousand_runs :
    ∃ stage ∈ (standard oneByte).stages {} {} 1_000 [thousand],
      stage.frame.stack = [.integer 1000] := by
  have reached : ((standard oneByte).stages {} {} 1_000 [thousand]).any
      (fun stage => stage.frame.stack = [.integer 1000]) := by
    decide +kernel
  obtain ⟨stage, member, pushed⟩ := List.any_eq_true.1 reached
  exact ⟨stage, member, of_decide_eq_true pushed⟩

theorem integers_of_thousand :
    ∃ stage ∈ (standard oneByte).stages {} {} 1_000 [thousand],
      stage.frame.stack = [.integer 1000] ∧ stage.Holds (Item.Narrow 32) := by
  obtain ⟨stage, member, pushed⟩ := thousand_runs
  have words : InWords oneByte.limits {} := InWords.of_fields (by decide)
  have base : ({} : Snapshot).Short wordMax := by
    intro key value there
    rw [Std.ExtTreeMap.getElem?_empty] at there
    cases there
  have addressable : (standard oneByte).Addressable {} {} 1_000 [thousand] :=
    addressable_of_ne (by decide)
  exact ⟨stage, member, pushed,
    integers_of_mem_stages oneByte {} {} 1_000 [thousand] words base addressable stage member⟩

/-- So a configuration that is accepted need not bound the integers. -/
theorem not_narrow_of_validate :
    ¬ ∀ (config : Config) (invocation : Invocation) (snapshot : Snapshot) (gas : Int)
      (scripts : List Script), config.validate = .ok () →
        ∀ stage ∈ (standard config).stages invocation snapshot gas scripts,
          stage.Holds (Item.Narrow config.limits.integerSize) := by
  intro every
  obtain ⟨stage, member, pushed⟩ := thousand_runs
  have held := every oneByte {} {} 1_000 [thousand] (by rfl) stage member
  have there : .integer 1000 ∈ stage.frame.stack := pushed ▸ List.mem_singleton_self _
  have narrow := (held.frame.stack _ there).own 1000 rfl
  exact absurd narrow (by decide)

end Machine

end GasMachine
