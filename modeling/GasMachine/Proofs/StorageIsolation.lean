import GasMachine.Proofs.Holdings
import GasMachine.Proofs.Settlement

/-!
# Whose storage a chain can change

An entry is written only with a handle on its owner's storage that may write, and such a handle is
only given to a script of that owner. Handles can be copied, put into other items, passed to
contracts, handed back and left for later scripts, but not made. So as long as no script of an owner
asks for one, there is none anywhere, and the storage of the owner stays as it is.
-/

set_option autoImplicit false

namespace GasMachine

/-! ## Items and changes without power over an owner

Power is a property of items: only a handle on the storage of the owner that may write has it. The
writes that are held back have the matching property, that none of them is about the owner. -/

/-- An item that is not a handle to write to the storage of an owner. -/
def Item.Powerless (owner : ScriptHash) (item : Item) : Prop :=
  ∀ serial, item ≠ .interop ⟨serial, .storage owner false⟩

theorem Item.powerless_of_not_isReference {owner : ScriptHash} {item : Item}
    (noReference : item.isReference = false) : item.Powerless owner := by
  rintro serial rfl
  cases noReference

/-- A layer without a write to the storage of an owner. -/
def ChangeSet.Spares (owner : ScriptHash) (changes : ChangeSet) : Prop :=
  ∀ key, changes.value? (.entry ⟨owner, key⟩) = none

theorem ChangeSet.Spares.record {owner : ScriptHash} {changes : ChangeSet}
    (spares : changes.Spares owner) {change : Write} (other : change.owner? ≠ some owner) :
    (changes.record change).Spares owner := by
  intro key
  rw [value?_record, if_neg, spares key]
  rintro same
  cases change with
  | put _ _ | delete _ =>
    cases same
    exact other rfl
  | addContract _ _ => cases same

/-- A store whose writes are all held back over a snapshot, none of them to the storage of an
owner. -/
def LayeredStore.Spares (owner : ScriptHash) (snapshot : Snapshot) (store : LayeredStore) : Prop :=
  ∃ changes : ChangeSet, store = { layers := [changes], base := snapshot } ∧ changes.Spares owner

theorem LayeredStore.Spares.write {owner : ScriptHash} {snapshot : Snapshot}
    {store after : LayeredStore} (spares : store.Spares owner snapshot) {change : Write}
    (other : change.owner? ≠ some owner) (written : store.write change = .ok after) :
    after.Spares owner snapshot := by
  obtain ⟨changes, rfl, spares⟩ := spares
  cases written
  exact ⟨changes.record change, rfl, spares.record other⟩

/-! ## Stages

The two are kept together. As long as no item on any stack has power, no service can be asked for a
write to the storage, and no instruction makes such a handle except the service that gives it out,
which is the guard. Items inside other items need no mention: the property is carried everywhere
(`holds_invariant`). -/

/-- At a stage a script of an owner gets a handle to write to its storage. -/
structure Execution.GivesOutArea (machine : Machine) (invocation : Invocation) (owner : ScriptHash)
    (stage : Execution) : Prop where
  running : stage.frame.isRunning = true
  script : stage.frame.script = owner
  called : machine.serviceAt? invocation stage.frame = some .getContext
  acts : ∃ instruction results,
    machine.Acts invocation stage.frame stage.world instruction results

/-- A stage at which nobody can write, or has written, to the storage of an owner. -/
structure Execution.Isolates (owner : ScriptHash) (snapshot : Snapshot) (stage : Execution) :
    Prop where
  powerless : stage.Holds (Item.Powerless owner)
  spares : stage.world.store.Spares owner snapshot

namespace Machine

variable {machine : Machine} {invocation : Invocation} {owner : ScriptHash} {snapshot : Snapshot}

/-- An instruction without power over an owner gives none, unless it is the one that gives it
out. -/
theorem Acts.powerless (standard : machine.table = {}) {stage : Execution}
    {instruction : Instruction} {results : Results}
    (acts : machine.Acts invocation stage.frame stage.world instruction results)
    (held : stage.frame.Holds (Item.Powerless owner)) (running : stage.frame.isRunning = true)
    (allowed : ¬ stage.GivesOutArea machine invocation owner) :
    results.Everywhere (Item.Powerless owner) := by
  have ordinary (item : Item) (noReference : item.isReference = false) : item.Powerless owner :=
    Item.powerless_of_not_isReference noReference
  refine (acts.composed standard held ?_ ?_ ?_).everywhere ordinary
  · intro kind
    cases kind <;> exact ordinary _ rfl
  · intro position _ serial same
    cases same
  · intro service readOnly called gives serial same
    -- The handle would be one that may write, which a single service gives out.
    cases same
    cases service <;> cases gives
    exact allowed ⟨running, rfl, called, instruction, results, acts⟩

/-- A step without power over an owner writes nothing to its storage. -/
theorem spares_step {frame : Frame} {world : World} (held : frame.Holds (Item.Powerless owner))
    (spares : world.store.Spares owner snapshot) :
    (machine.step invocation frame world).2.store.Spares owner snapshot := by
  rcases machine.store_step invocation frame world with
    same | ⟨service, arguments, change, taken, changes, written⟩
  · rw [same]
    exact spares
  · refine spares.write (fun about => ?_) written
    obtain ⟨serial, member⟩ := changes.handed _ owner about
    exact (held.stack _ (taken member)).own serial rfl

theorem isolates_invariant {machine : Machine} (standard : machine.table = {})
    (invocation : Invocation) (owner : ScriptHash) (snapshot : Snapshot) :
    GuardedInvariant machine invocation (fun stage => ¬ stage.GivesOutArea machine invocation owner)
      (Execution.Isolates owner snapshot)
      (fun progress => progress.residue.Holds (Item.Powerless owner) ∧
        progress.world.store.Spares owner snapshot) := by
  constructor
  case opening =>
    rintro progress entry script remaining _ ⟨held, spares⟩
    exact ⟨⟨rfl, ⟨held.stack, held.alt⟩, List.forall_mem_nil _⟩, spares⟩
  case tick =>
    rintro execution allowed unfinished ⟨powerless, spares⟩
    have null : Item.null.Powerless owner := Item.powerless_of_not_isReference rfl
    constructor
    case powerless =>
      refine Execution.holds_tick standard unfinished powerless null ?_
      exact fun running instruction results acts =>
        acts.powerless standard powerless.frame running allowed
    case spares =>
      rcases Execution.world_tick machine invocation unfinished with same | same
      · rw [same]
        exact spares
      · rw [same]
        exact machine.spares_step powerless.frame spares
  case closing =>
    rintro progress execution _ ⟨powerless, spares⟩
    exact ⟨powerless.frame, spares⟩

end Machine

/-! ## Chains

What is handed on says nothing of the places of the owner, whichever part of it the snapshot
accepts. -/

/-- What is handed on in the end leaves the storage of the owner as it is. -/
theorem Progress.storage_settle {owner : ScriptHash} {snapshot : Snapshot} {progress : Progress}
    (spares : progress.world.store.Spares owner snapshot) (key : Bytes) :
    progress.settle.2.contents.valueAt (.entry ⟨owner, key⟩) =
      snapshot.contents.valueAt (.entry ⟨owner, key⟩) := by
  obtain ⟨changes, store, spares⟩ := spares
  have held : progress.world.store.HeldOver snapshot := ⟨changes, store⟩
  cases ending : progress.fault with
  | some record => rw [settle_of_fault held ending]
  | none =>
    rw [(settle_of_halt held ending).2]
    refine snapshot.contents.valueAt_writeAll_of_not_mem fun member => ?_
    -- Whatever was made before a refusal had been held back in the layer.
    obtain ⟨change, granted, about⟩ := List.mem_map.1 member
    have written := (snapshot.granted_prefix _).subset granted
    rw [store] at written
    have said := ChangeSet.value?_eq_some_iff.2 ⟨change, written, about, rfl⟩
    cases (spares key).symm.trans said

namespace Machine

/-- The storage of an owner is the same after a chain as before it, if none of the owner's scripts
got a handle to write to it in the course of the chain. -/
theorem storage_eq_of_noArea (config : Config) (invocation : Invocation) (snapshot : Snapshot)
    (gas : Int) (scripts : List Script) (owner : ScriptHash)
    (noArea : ∀ stage ∈ (standard config).stages invocation snapshot gas scripts,
      ¬ stage.GivesOutArea (standard config) invocation owner) (key : Bytes) :
    ((standard config).executeChain invocation snapshot gas scripts).snapshot.contents.storage[
        (⟨owner, key⟩ : StorageKey)]? =
      snapshot.contents.storage[(⟨owner, key⟩ : StorageKey)]? := by
  cases scripts with
  | nil => rfl
  | cons first rest =>
    have start : ((standard config).opening snapshot gas).world.store.Spares owner snapshot :=
      ⟨{}, rfl, fun _ => rfl⟩
    have table : (standard config).table = {} := rfl
    have final := (isolates_invariant table invocation owner snapshot).chain snapshot gas
      ⟨⟨List.forall_mem_nil _, List.forall_mem_nil _⟩, start⟩ _ noArea
    have settled := Progress.storage_settle final.2.2 key
    rw [((standard config).executeChain_settle invocation snapshot gas first rest).2]
    exact settled

/-- A script that asks for a handle to read its own storage, and hands an array with copies of it to
the contract with the hash of zeros. -/
def reader : Script :=
  { code := Opcode.SYSCALL.code :: Bytes.ofNat 4 Service.getReadOnlyContext.id
      ++ [Opcode.DUP.code, Opcode.PUSH2.code, Opcode.PACK.code]
      ++ (Opcode.PUSHDATA1.code :: 20 :: List.replicate 20 0)
      ++ Opcode.SYSCALL.code :: Bytes.ofNat 4 Service.contractCall.id }

/-- A script that takes the first item of the array that the contract hands back. -/
def taker : Script := { code := [Opcode.PUSH0.code, Opcode.PICKITEM.code] }

/-- A snapshot with the contract, and with an entry in the storage of the first script. -/
def readerSnapshot : Snapshot :=
  { contents :=
      { contracts := Std.ExtTreeMap.empty.insert Hash.zero [Opcode.PUSH2.code, Opcode.PACK.code]
        storage := Std.ExtTreeMap.empty.insert ⟨reader.hash, [0x6b]⟩ [1] } }

/-- The handle ends up with another script, and the entry is still there. -/
theorem storage_reader :
    (∀ stage ∈ (standard {}).stages {} readerSnapshot 100_000_000 [reader, taker],
      ¬ stage.GivesOutArea (standard {}) {} reader.hash) ∧
    ((standard {}).executeChain {} readerSnapshot 100_000_000
        [reader, taker]).receipt.stack.map Parameter.typeName = ["InteropInterface"] ∧
    ((standard {}).executeChain {} readerSnapshot 100_000_000
        [reader, taker]).snapshot.contents.storage[(⟨reader.hash, [0x6b]⟩ : StorageKey)]? =
      readerSnapshot.contents.storage[(⟨reader.hash, [0x6b]⟩ : StorageKey)]? := by
  have noneAsks : ((standard {}).stages {} readerSnapshot 100_000_000 [reader, taker]).all
      (fun stage => (standard {}).serviceAt? {} stage.frame ≠ some .getContext) = true := by
    decide +kernel
  have noArea : ∀ stage ∈ (standard {}).stages {} readerSnapshot 100_000_000 [reader, taker],
      ¬ stage.GivesOutArea (standard {}) {} reader.hash := by
    rintro stage member ⟨_, _, called, _⟩
    exact of_decide_eq_true (List.all_eq_true.1 noneAsks stage member) called
  refine ⟨noArea, by decide +kernel, ?_⟩
  exact storage_eq_of_noArea {} {} readerSnapshot 100_000_000 [reader, taker] reader.hash noArea
    [0x6b]

end Machine

end GasMachine
