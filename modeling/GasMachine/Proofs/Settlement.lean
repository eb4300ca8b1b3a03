import GasMachine.Proofs.History
import GasMachine.Proofs.Step
import GasMachine.Proofs.Tick
import GasMachine.Proofs.Effects
import GasMachine.Proofs.Writes

/-!
# What a faulted chain leaves behind

While scripts run, all their writes are held back in one layer over the caller's snapshot, so a
script that faults leaves the snapshot alone. The writes are handed on one by one, though, and a
snapshot that refuses one of them has made those before it: a chain that faults in this way leaves
the snapshot alone only if these changed nothing.
-/

set_option autoImplicit false

namespace GasMachine

/-! ## Handing on writes

Whether a snapshot refuses a write may depend on the writes before, so which of them are made is
defined along the list (`granted`, `refusal`). -/

namespace Snapshot

/-- The writes that are made before the first refusal. -/
def granted (snapshot : Snapshot) : List Write → List Write
  | [] => []
  | change :: rest =>
    match snapshot.write change with
    | .ok after => change :: after.granted rest
    | .error _ => []

/-- The first refusal. -/
def refusal (snapshot : Snapshot) : List Write → Option StoreError
  | [] => none
  | change :: rest =>
    match snapshot.write change with
    | .ok after => after.refusal rest
    | .error cause => some cause

theorem granted_prefix (snapshot : Snapshot) (writes : List Write) :
    snapshot.granted writes <+: writes := by
  induction writes generalizing snapshot with
  | nil => exact List.prefix_rfl
  | cons change rest ih =>
    rw [granted]
    split
    · exact List.cons_prefix_cons.2 ⟨rfl, ih _⟩
    · exact List.nil_prefix

theorem granted_of_refusal_eq_none {snapshot : Snapshot} {writes : List Write}
    (accepts : snapshot.refusal writes = none) : snapshot.granted writes = writes := by
  induction writes generalizing snapshot with
  | nil => rfl
  | cons change rest ih =>
    unfold refusal at accepts
    unfold granted
    cases written : snapshot.write change with
    | error cause =>
      rw [written] at accepts
      cases accepts
    | ok after =>
      rw [written] at accepts
      exact congrArg (change :: ·) (ih accepts)

/-- Without a layer, writes go to the snapshot up to the first refusal. -/
theorem writeAll_of_no_layer (snapshot : Snapshot) (writes : List Write) :
    (LayeredStore.writeAll { base := snapshot } writes).2 = snapshot.refusal writes ∧
      (LayeredStore.writeAll { base := snapshot } writes).1.base.contents =
        snapshot.contents.writeAll (snapshot.granted writes) := by
  induction writes generalizing snapshot with
  | nil => exact ⟨rfl, rfl⟩
  | cons change rest ih =>
    unfold LayeredStore.writeAll LayeredStore.write refusal granted
    dsimp only
    cases written : snapshot.write change with
    | error cause => exact ⟨rfl, rfl⟩
    | ok after =>
      have contents : after.contents = snapshot.contents.write change := by
        rw [write_eq_ok written]
      obtain ⟨refused, left⟩ := ih after
      refine ⟨refused, ?_⟩
      rw [contents] at left
      exact left

end Snapshot

/-! ## The layer of a chain

The invariant of the whole run: one layer over the caller's snapshot, which is the very snapshot
that was handed in. No instruction can open a layer or close one. -/

/-- All writes are held back in one layer over a snapshot. -/
def LayeredStore.HeldOver (snapshot : Snapshot) (store : LayeredStore) : Prop :=
  ∃ changes, store = { layers := [changes], base := snapshot }

theorem LayeredStore.HeldOver.write {snapshot : Snapshot} {store after : LayeredStore}
    (held : store.HeldOver snapshot) {change : Write} (written : store.write change = .ok after) :
    after.HeldOver snapshot := by
  obtain ⟨changes, rfl⟩ := held
  cases written
  exact ⟨changes.record change, rfl⟩

/-- A step leaves the store alone, or makes one change to it that a service asks for with items of
the frame. -/
theorem Machine.store_step (machine : Machine) (invocation : Invocation) (frame : Frame)
    (world : World) :
    (machine.step invocation frame world).2.store = world.store ∨
      ∃ (service : Service) (arguments : List Item) (change : Write), arguments ⊆ frame.stack ∧
        service.Changes machine.config.limits arguments change ∧
          world.store.write change = .ok (machine.step invocation frame world).2.store := by
  rcases machine.world_step invocation world frame with same | ⟨instruction, results, acts, same⟩
  · exact Or.inl (by rw [same])
  · rw [same]
    refine (Behaviour.run_changes _ _ _ _ _ _ results acts.ran).imp_right ?_
    rintro ⟨service, change, changes, written⟩
    exact ⟨service, _, change, List.take_subset _ _, changes, written⟩

theorem Machine.heldOver_step (machine : Machine) (invocation : Invocation) {snapshot : Snapshot}
    (frame : Frame) {world : World} (held : world.store.HeldOver snapshot) :
    (machine.step invocation frame world).2.store.HeldOver snapshot := by
  rcases machine.store_step invocation frame world with same | ⟨_, _, change, _, _, written⟩
  · rw [same]
    exact held
  · exact held.write written

/-- The writes of a chain are held back until the end. -/
theorem Machine.heldOver_invariant (machine : Machine) (invocation : Invocation)
    (snapshot : Snapshot) :
    Invariant machine invocation (fun stage => stage.world.store.HeldOver snapshot)
      (fun progress => progress.world.store.HeldOver snapshot) := by
  constructor
  case opening => exact fun _ _ _ _ _ held => held
  case tick =>
    intro execution unfinished held
    rcases Execution.world_tick machine invocation unfinished with same | same
    · rw [same]
      exact held
    · rw [same]
      exact machine.heldOver_step invocation execution.frame held
  case closing => exact fun _ _ _ held => held

/-! ## Settling

There are two kinds of faults to tell apart, that of a script and that of the snapshot. Only the
second can leave something behind, and since the writes are about different places it does so
exactly if one of those made before the refusal changes something. -/

/-- The writes that are held back in the top layer. -/
def LayeredStore.heldBack (store : LayeredStore) : List Write :=
  match store.layers with
  | [] => []
  | top :: _ => top.writes

namespace Progress

variable {progress : Progress} {snapshot : Snapshot}

theorem settle_of_fault (held : progress.world.store.HeldOver snapshot) {record : FaultRecord}
    (faulted : progress.fault = some record) : progress.settle = (some record, snapshot) := by
  obtain ⟨changes, store⟩ := held
  rw [settle, faulted, store]

/-- If no script faulted, the writes that are held back are handed on up to the first refusal,
which is the fault of the chain. -/
theorem settle_of_halt (held : progress.world.store.HeldOver snapshot)
    (halted : progress.fault = none) :
    progress.settle.1 = ((snapshot.refusal progress.world.store.heldBack).map fun cause =>
        ⟨.storage cause, 0, none⟩) ∧
      progress.settle.2.contents = snapshot.contents.writeAll
        (snapshot.granted progress.world.store.heldBack) := by
  obtain ⟨changes, store⟩ := held
  obtain ⟨refused, left⟩ := snapshot.writeAll_of_no_layer changes.writes
  rw [settle, halted, store]
  exact ⟨congrArg (Option.map _) refused, left⟩

theorem nodup_granted (held : progress.world.store.HeldOver snapshot) :
    ((snapshot.granted progress.world.store.heldBack).map Write.place).Nodup := by
  obtain ⟨changes, store⟩ := held
  rw [store]
  have some := (snapshot.granted_prefix changes.writes).sublist.map Write.place
  exact changes.nodup_places.sublist some

end Progress

namespace Machine

theorem executeChain_settle (machine : Machine) (invocation : Invocation) (snapshot : Snapshot)
    (gas : Int) (first : Script) (rest : List Script) :
    (machine.executeChain invocation snapshot gas (first :: rest)).receipt.fault =
        (machine.progress invocation snapshot gas (first :: rest)).settle.1 ∧
      (machine.executeChain invocation snapshot gas (first :: rest)).snapshot =
        (machine.progress invocation snapshot gas (first :: rest)).settle.2 :=
  ⟨rfl, rfl⟩

theorem heldOver_progress (machine : Machine) (invocation : Invocation) (snapshot : Snapshot)
    (gas : Int) (scripts : List Script) :
    (machine.progress invocation snapshot gas scripts).world.store.HeldOver snapshot :=
  (machine.heldOver_invariant invocation snapshot).progress snapshot gas ⟨{}, rfl⟩ scripts

/-- The ways in which a faulted chain can leave the snapshot. -/
inductive FaultLeaves (snapshot : Snapshot) (progress : Progress) (outcome : Outcome) : Prop where
  /-- A script faulted, and the snapshot is left alone. -/
  | script (faulted : progress.fault.isSome) (untouched : outcome.snapshot = snapshot)
  /-- The snapshot refused a write. It is left alone exactly if no write before that one changed
  anything. -/
  | refused (halted : progress.fault = none) (cause : StoreError)
    (refused : snapshot.refusal progress.world.store.heldBack = some cause)
    (fault : outcome.receipt.fault = some ⟨.storage cause, 0, none⟩)
    (untouched_iff : outcome.snapshot.contents = snapshot.contents ↔
      ∀ change ∈ snapshot.granted progress.world.store.heldBack,
        snapshot.contents.write change = snapshot.contents)

/-- A faulted chain leaves the snapshot in one of these ways. -/
theorem faultLeaves_executeChain (machine : Machine) (invocation : Invocation) (snapshot : Snapshot)
    (gas : Int) (scripts : List Script)
    (faulted : (machine.executeChain invocation snapshot gas scripts).receipt.fault.isSome) :
    FaultLeaves snapshot (machine.progress invocation snapshot gas scripts)
      (machine.executeChain invocation snapshot gas scripts) := by
  have held := machine.heldOver_progress invocation snapshot gas scripts
  cases scripts with
  | nil => cases faulted
  | cons first rest =>
    obtain ⟨fault, left⟩ := machine.executeChain_settle invocation snapshot gas first rest
    generalize machine.progress invocation snapshot gas (first :: rest) = progress at *
    cases ending : progress.fault with
    | some record =>
      refine .script (by rw [ending]; rfl) (left.trans ?_)
      rw [Progress.settle_of_fault held ending]
    | none =>
      obtain ⟨refused, contents⟩ := Progress.settle_of_halt held ending
      rw [fault, refused, Option.isSome_map] at faulted
      obtain ⟨cause, first⟩ := Option.isSome_iff_exists.1 faulted
      refine .refused ending cause first ?_ ?_
      · rw [fault, refused, first]
        rfl
      · rw [← Contents.writeAll_eq_self_iff _ (Progress.nodup_granted held), ← contents, left]

/-- A snapshot that takes contracts, but refuses to put anything into the storage. -/
def diskFull : Snapshot :=
  { refuse := RefusalRule.first [{ method := .putStorage, cause := .backend "disk full" }] }

/-- A script that makes a contract and then puts an entry into its own storage. -/
def createAndPut : Script :=
  { code := [Opcode.PUSHDATA1.code, 1, 0x40]
      ++ Opcode.SYSCALL.code :: Bytes.ofNat 4 Service.contractCreate.id
      ++ [Opcode.PUSHDATA1.code, 1, 0x31, Opcode.PUSHDATA1.code, 1, 0x61]
      ++ Opcode.SYSCALL.code :: Bytes.ofNat 4 Service.getContext.id
      ++ Opcode.SYSCALL.code :: Bytes.ofNat 4 Service.storagePut.id }

/-- The put is refused, and the contract that was handed on before it stays. -/
theorem createAndPut_faults :
    let outcome := (standard {}).executeChain {} diskFull 100_000_000 [createAndPut]
    outcome.receipt.fault = some ⟨.storage (.backend "disk full"), 0, none⟩ ∧
      outcome.snapshot.contents.contracts.size = 1 := by
  decide +kernel

theorem faultLeaves_createAndPut :
    let outcome := (standard {}).executeChain {} diskFull 100_000_000 [createAndPut]
    outcome.receipt.fault.isSome ∧ FaultLeaves diskFull
      ((standard {}).progress {} diskFull 100_000_000 [createAndPut]) outcome := by
  have faulted := Option.isSome_of_mem createAndPut_faults.1
  exact ⟨faulted, faultLeaves_executeChain _ _ _ _ _ faulted⟩

/-- So a faulted chain may leave something behind. -/
theorem not_untouched_of_fault :
    ¬ ∀ (config : Config) (invocation : Invocation) (snapshot : Snapshot) (gas : Int)
      (scripts : List Script),
      ((standard config).executeChain invocation snapshot gas scripts).receipt.fault.isSome →
        ((standard config).executeChain invocation snapshot gas scripts).snapshot.contents =
          snapshot.contents := by
  intro untouched
  obtain ⟨fault, size⟩ := createAndPut_faults
  have same := untouched {} {} diskFull 100_000_000 [createAndPut] (Option.isSome_of_mem fault)
  rw [same] at size
  cases size

end Machine

end GasMachine
