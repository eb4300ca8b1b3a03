import GasMachine.Proofs.Journal
import GasMachine.Proofs.Settlement

/-!
# Which contracts a chain leaves

A contract is stored under the hash of its code, and only if there is none under that hash, be it in
the snapshot or among the writes that are held back. So a chain never touches a contract that is
there, whether it halts or faults and whatever the snapshot refuses. While no script has faulted,
the frame that runs knows exactly the contracts that are held back, and if the chain halts these are
the ones that the calls of the service have returned, each of them once.

That two codes may have one hash makes no difference: the second one is refused.
-/

set_option autoImplicit false

namespace GasMachine

/-! ## Contracts that are held back

All that matters of a store here is which contract its layers show under a hash. A write of an entry
leaves that alone, and the write of a contract changes it at one hash. -/

namespace LayeredStore

/-- The code of a contract that is held back. -/
def added? (store : LayeredStore) (hash : ScriptHash) : Option Bytes :=
  store.layers.findSome? fun layer => layer.contracts[hash]?

variable {store after : LayeredStore} {snapshot : Snapshot}

theorem added?_of_layer (changes : ChangeSet) (hash : ScriptHash) :
    added? { layers := [changes], base := snapshot } hash = changes.contracts[hash]? := by
  rw [added?, List.findSome?_cons]
  cases changes.contracts[hash]? <;> rfl

/-- A write of an entry adds no contract. -/
theorem added?_write_entry (held : store.HeldOver snapshot) {change : Write} {key : StorageKey}
    (entry : change.place = .entry key) (written : store.write change = .ok after)
    (hash : ScriptHash) : after.added? hash = store.added? hash := by
  obtain ⟨changes, rfl⟩ := held
  cases written
  rw [added?_of_layer, added?_of_layer]
  cases change with
  | put _ _ | delete _ => rfl
  | addContract _ _ => cases entry

theorem added?_write_contract (held : store.HeldOver snapshot) {hash : ScriptHash} {code : Bytes}
    (written : store.write (.addContract hash code) = .ok after) (asked : ScriptHash) :
    after.added? asked = if hash = asked then some code else store.added? asked := by
  obtain ⟨changes, rfl⟩ := held
  cases written
  rw [added?_of_layer, added?_of_layer]
  simp [ChangeSet.record, Std.ExtTreeMap.getElem?_insert]

/-- A contract that is not there is neither held back nor in the snapshot. -/
theorem hasContract_ensures (held : store.HeldOver snapshot) (hash : ScriptHash) :
    Ensures (fun present => present = false →
      store.added? hash = none ∧ snapshot.contents.contracts[hash]? = none)
      (store.hasContract hash) := by
  have found : Ensures (fun code => code = none →
      store.added? hash = none ∧ snapshot.contents.contracts[hash]? = none)
      (store.getContract hash) := by
    unfold getContract
    split
    · exact Ensures.ok fun none => absurd none (Option.some_ne_none _)
    · rename_i notAdded
      obtain ⟨changes, rfl⟩ := held
      exact Ensures.bind_any fun _ => Ensures.pure fun notThere => ⟨notAdded, notThere⟩
  refine found.bind fun code known => Ensures.pure fun absent => known ?_
  rw [Option.isSome_eq_false_iff, Option.isNone_iff_eq_none] at absent
  exact absent

end LayeredStore

/-! ## Making a contract

`Deploys` collects what is true when the service goes on: there was no contract under the hash,
neither in the layers nor in the snapshot, and now there is one in the top layer. Every other
instruction writes at most an entry. -/

/-- A contract made by an instruction: its code, which is new to the store and has been written to
it. -/
structure Deploys (world : World) (results : Results) (code : Bytes) : Prop where
  nonempty : code ≠ []
  absent : world.store.hasContract (scriptHash code) = .ok false
  written : world.store.write (.addContract (scriptHash code) code) = .ok results.world.store
  effect : results.effect = .create (scriptHash code)
  stack : results.stack = [Service.hashItem (scriptHash code)]

/-- What an instruction does to a store that makes no contract: nothing, or a write of one entry. -/
def World.WritesEntry (before after : World) : Prop :=
  after.store = before.store ∨ ∃ change key, change.place = .entry key ∧
    before.store.write change = .ok after.store

theorem Service.contractCreate_deploys (host : Host) (frame : Frame) (world : World)
    (arguments : List Item) :
    Ensures (fun results => ∃ code, Deploys world results code)
      (contractCreate.run host frame world arguments) := by
  refine Ensures.bind_any fun item => Ensures.bind_any fun code => ?_
  dsimp only
  split
  · exact Ensures.throw _
  · rename_i nonempty
    have asks : Ensures (fun present => world.store.hasContract (scriptHash code) = .ok present)
        (ofStore (world.store.hasContract (scriptHash code))) := ofStore_ensures
    refine asks.bind fun present asked => ?_
    split
    · exact Ensures.throw _
    · rename_i absent
      refine ofStore_ensures.bind fun store written => Ensures.pure ⟨code, ?_⟩
      rw [Bool.not_eq_true] at absent
      rw [absent] at asked
      refine ⟨?_, asked, written, rfl, rfl⟩
      rintro rfl
      exact nonempty rfl

theorem Service.run_writesEntry {service : Service} (other : service ≠ .contractCreate)
    (host : Host) (frame : Frame) (world : World) (arguments : List Item) :
    Ensures (fun results => World.WritesEntry world results.world)
      (service.run host frame world arguments) := by
  refine (service.run_changes host frame world arguments).mono fun results => ?_
  refine Or.imp_right fun ⟨change, changes, written⟩ => ?_
  cases changes with
  | put _ _ _ _ _ => exact ⟨_, _, rfl, written⟩
  | delete _ _ _ => exact ⟨_, _, rfl, written⟩
  | create _ _ => exact absurd rfl other

theorem Behaviour.run_deploys (behaviour : Behaviour) (host : Host) (instruction : Instruction)
    (frame : Frame) (world : World) (arguments : Arguments) :
    Ensures (fun results =>
      results.effect.service? ≠ some .contractCreate ∧ World.WritesEntry world results.world ∨
        ∃ code, Deploys world results code)
      (behaviour.run host instruction frame world arguments) := by
  by_cases system : behaviour = .systemCall
  · subst system
    refine Ensures.bind_any fun service => ?_
    dsimp only
    split
    · intro results ran
      by_cases creates : service = .contractCreate
      · subst creates
        exact Or.inr (Service.contractCreate_deploys _ _ _ _ results ran)
      · refine Or.inl ⟨fun takes => creates ?_, ?_⟩
        · exact service.run_service? _ _ _ _ results ran _ takes
        · exact Service.run_writesEntry creates _ _ _ _ results ran
    · exact Ensures.throw _
  · refine (run_plain host instruction frame world arguments system).mono fun results plain => ?_
    rw [Effect.service?_of_isMove plain.move, plain.world]
    exact Or.inl ⟨nofun, Or.inl rfl⟩

/-! ## Stages

Two invariants. `AddsNew` is about the store and holds whatever happens, also after a fault, since a
contract is only ever added where none was. `Knows` is about the frame that runs: the set of
contracts it has been told of is the set that is held back. An instruction that calls a contract
hands this set on, and if its frame faults in the same step nobody gives it back; so `Knows` is
claimed only as long as nothing has faulted. -/

/-- All writes are held back over a snapshot, and the contracts among them are new: they are under
the hash of their code, and the snapshot has none there. -/
structure LayeredStore.AddsNew (snapshot : Snapshot) (store : LayeredStore) : Prop where
  held : store.HeldOver snapshot
  added : ∀ hash code, store.added? hash = some code →
    code ≠ [] ∧ hash = scriptHash code ∧ snapshot.contents.contracts[hash]? = none

namespace LayeredStore.AddsNew

variable {snapshot : Snapshot} {world : World} {results : Results}

theorem added?_writesEntry (adds : world.store.AddsNew snapshot)
    (writes : World.WritesEntry world results.world) (hash : ScriptHash) :
    results.world.store.added? hash = world.store.added? hash := by
  rcases writes with same | ⟨change, key, entry, written⟩
  · rw [same]
  · exact added?_write_entry adds.held entry written hash

theorem writesEntry (adds : world.store.AddsNew snapshot)
    (writes : World.WritesEntry world results.world) : results.world.store.AddsNew snapshot := by
  constructor
  case held =>
    rcases writes with same | ⟨_, _, _, written⟩
    · rw [same]
      exact adds.held
    · exact adds.held.write written
  case added =>
    intro hash code added
    rw [adds.added?_writesEntry writes] at added
    exact adds.added hash code added

theorem deploys (adds : world.store.AddsNew snapshot) {code : Bytes}
    (deploys : Deploys world results code) : results.world.store.AddsNew snapshot := by
  constructor
  case held => exact adds.held.write deploys.written
  case added =>
    intro hash other added
    rw [added?_write_contract adds.held deploys.written] at added
    split at added
    · rename_i same
      subst same
      cases added
      exact ⟨deploys.nonempty, rfl, (hasContract_ensures adds.held _ _ deploys.absent rfl).2⟩
    · exact adds.added hash other added

theorem step (machine : Machine) (invocation : Invocation) (frame : Frame)
    (adds : world.store.AddsNew snapshot) :
    (machine.step invocation frame world).2.store.AddsNew snapshot := by
  rcases machine.world_step invocation world frame with same | ⟨instruction, results, acts, same⟩
  · rw [same]
    exact adds
  · rw [same]
    rcases Behaviour.run_deploys _ _ _ _ _ _ results acts.ran with ⟨_, writes⟩ | ⟨code, deploys⟩
    · exact adds.writesEntry writes
    · exact adds.deploys deploys

end LayeredStore.AddsNew

/-- The contracts made so far are the ones that are held back. -/
def Record.Knows (record : Record) (store : LayeredStore) : Prop :=
  ∀ hash, hash ∈ record.created ↔ (store.added? hash).isSome

/-- A stage at which only new contracts are held back and, unless something has faulted, the frame
that runs knows all of them. -/
structure Execution.KnowsAdded (snapshot : Snapshot) (stage : Execution) : Prop where
  calm : stage.frame.pending = none
  adds : stage.world.store.AddsNew snapshot
  knows : stage.frame.fault? = none → stage.frame.record.Knows stage.world.store

/-- A step that goes on keeps what the frame knows up to date. -/
theorem Record.Knows.note {snapshot : Snapshot} {world : World} {results : Results}
    {record : Record} (knows : record.Knows world.store) (adds : world.store.AddsNew snapshot)
    (script : ScriptHash)
    (went : results.effect.service? ≠ some .contractCreate ∧
        World.WritesEntry world results.world ∨ ∃ code, Deploys world results code) :
    (record.note script results.effect).Knows results.world.store := by
  intro hash
  rcases went with ⟨idle, writes⟩ | ⟨code, deploys⟩
  · rw [record.created_note script idle, adds.added?_writesEntry writes]
    exact knows hash
  · rw [deploys.effect, LayeredStore.added?_write_contract adds.held deploys.written]
    change hash ∈ record.created.insert (scriptHash code) ↔ _
    rw [Std.ExtTreeSet.mem_insert, Std.LawfulEqCmp.compare_eq_iff_eq, knows]
    by_cases same : scriptHash code = hash <;> simp [same]

namespace Machine

variable {machine : Machine} {invocation : Invocation} {snapshot : Snapshot}

theorem knowsAdded_invariant (machine : Machine) (invocation : Invocation) (snapshot : Snapshot) :
    Invariant machine invocation (fun stage => stage.KnowsAdded snapshot)
      (fun progress => progress.world.store.AddsNew snapshot ∧
        (progress.fault = none → progress.residue.record.Knows progress.world.store)) := by
  constructor
  case opening =>
    rintro progress entry script remaining fresh ⟨adds, knows⟩
    exact ⟨rfl, adds, fun _ => knows fresh⟩
  case closing => exact fun progress execution _ known => ⟨known.adds, known.knows⟩
  case tick =>
    rintro execution unfinished ⟨calm, adds, knows⟩
    constructor
    case calm => exact Execution.pending_tick machine invocation unfinished
    case adds =>
      rcases Execution.world_tick machine invocation unfinished with same | same
      · rw [same]
        exact adds
      · rw [same]
        exact adds.step machine invocation execution.frame
    case knows =>
      intro healthy
      have known := knows (Execution.fault?_eq_none_of_tick unfinished healthy)
      have recorded := Execution.recorded_tick unfinished calm healthy
      generalize (execution.tick machine invocation).frame.record = record at recorded ⊢
      generalize (execution.tick machine invocation).world = world at recorded ⊢
      cases recorded with
      | kept _ => exact known
      | noted instruction results acts _ _ =>
        exact known.note adds _ (Behaviour.run_deploys _ _ _ _ _ _ results acts.ran)

end Machine

/-! ## Calls of the service

The hash that a call returns is read off the stack after its step, and such calls are entered in a
journal (`Journal`). An entry is fresh when it is made, because the contract was absent; so no hash
occurs twice. -/

/-- The hash that the next step returns if it makes a contract: it is on top of the stack after the
step. -/
def Execution.created? (machine : Machine) (invocation : Invocation) (stage : Execution) :
    Option ScriptHash :=
  if stage.serves machine invocation .contractCreate then
    match (stage.advance machine invocation).frame.stack with
    | item :: _ => (Service.readHash item).toOption
    | [] => none
  else none

theorem Service.readHash_hashItem (hash : ScriptHash) : readHash (hashItem hash) = .ok hash := by
  have given : Hash.ofBytes hash.bytes = .ok hash := dif_pos hash.length_eq
  simp only [readHash, hashItem, Item.toBytes, bind, Except.bind, given]
  rfl

namespace Execution

variable {machine : Machine} {invocation : Invocation} {stage : Execution}

theorem created?_eq_none (serves : stage.serves machine invocation .contractCreate = false) :
    stage.created? machine invocation = none := by
  unfold created?
  rw [serves]
  rfl

theorem created?_of_acts (standard : machine.table = {})
    (serves : stage.serves machine invocation .contractCreate = true) {instruction : Instruction}
    {results : Results}
    (acts : machine.Acts invocation stage.frame stage.world instruction results)
    (after : (stage.advance machine invocation).frame =
      stage.frame.completed instruction results) :
    ∃ code, Deploys stage.world results code ∧
      stage.created? machine invocation = some (scriptHash code) := by
  have served := served_of_serves standard serves acts
  obtain ⟨code, deploys⟩ := Service.contractCreate_deploys _ _ _ _ results served
  refine ⟨code, deploys, ?_⟩
  unfold created?
  rw [if_pos serves, after, Frame.stack_completed, deploys.stack, List.singleton_append]
  dsimp only
  rw [Service.readHash_hashItem]
  rfl

/-- No call that goes on is without the hash that it returns. -/
theorem isSome_created? (standard : machine.table = {}) :
    (stage.created? machine invocation).isSome =
      stage.serves machine invocation .contractCreate := by
  refine isSome_eq_serves created?_eq_none fun serves instruction results acts after => ?_
  obtain ⟨code, _, returned⟩ := created?_of_acts standard serves acts after
  exact ⟨_, returned⟩

end Execution

/-- A set into which hashes were put that it did not have before. -/
theorem Entered.of_insert {start final : Std.ExtTreeSet ScriptHash} {hashes : List ScriptHash}
    (entered : Entered (fun set hash => hash ∉ set) (fun set hash => set.insert hash) start hashes
      final) :
    (∀ hash, hash ∈ final ↔ hash ∈ start ∨ hash ∈ hashes) ∧
      (∀ hash ∈ hashes, hash ∉ start) ∧ hashes.Nodup := by
  induction entered with
  | nil start => simp
  | @cons start final entry rest first _ ih =>
    obtain ⟨members, fresh, distinct⟩ := ih
    have added (hash : ScriptHash) : hash ∈ start.insert entry ↔ entry = hash ∨ hash ∈ start := by
      rw [Std.ExtTreeSet.mem_insert, Std.LawfulEqCmp.compare_eq_iff_eq]
    refine ⟨fun hash => ?_, fun hash member => ?_, ?_⟩
    · rw [members, added, List.mem_cons]
      grind
    · rcases List.mem_cons.1 member with rfl | later
      · exact first
      · exact fun already => fresh hash later ((added hash).2 (Or.inr already))
    · refine List.nodup_cons.2 ⟨fun again => ?_, distinct⟩
      exact fresh entry again ((added entry).2 (Or.inl rfl))

theorem Machine.contractJournal {machine : Machine} (standard : machine.table = {})
    (invocation : Invocation) (snapshot : Snapshot) :
    Journal machine invocation (fun stage => stage.KnowsAdded snapshot)
      (fun residue => residue.record.created) (Execution.created? machine invocation)
      (fun set hash => hash ∉ set) (fun set hash => set.insert hash) := by
  refine Journal.ofService standard .contractCreate (fun _ known => known.calm)
    (fun _ => Execution.created?_eq_none) (fun record script _ => ?_) ?_
  · exact record.created_note script
  · intro stage instruction results known fine serves acts after
    obtain ⟨code, deploys, returned⟩ := Execution.created?_of_acts standard serves acts after
    refine ⟨_, returned, ?_, by rw [deploys.effect]; rfl⟩
    -- The set has what is held back, and that has been asked before the contract was made.
    have absent := LayeredStore.hasContract_ensures known.adds.held _ _ deploys.absent rfl
    rw [known.knows fine, absent.1]
    exact Bool.false_ne_true

/-! ## Handing on the contracts

The snapshot may refuse some of the writes, so this is shown of any part of what is held back: the
places are distinct, and none of them is the place of a contract that was there. -/

namespace Contents

/-- Each contract is stored under the hash of its code. -/
def ContentAddressed (contents : Contents) : Prop :=
  ∀ (hash : ScriptHash) (code : Bytes), contents.contracts[hash]? = some code →
    hash = scriptHash code

/-- Contents with the contracts of earlier contents as they were, and beside them only contracts
with some code, stored under its hash. -/
structure Extends (contents earlier : Contents) : Prop where
  kept : ∀ (hash : ScriptHash) (code : Bytes), earlier.contracts[hash]? = some code →
    contents.contracts[hash]? = some code
  new : ∀ (hash : ScriptHash) (code : Bytes), earlier.contracts[hash]? = none →
    contents.contracts[hash]? = some code → code ≠ [] ∧ hash = scriptHash code

theorem Extends.refl (contents : Contents) : contents.Extends contents where
  kept _ _ there := there
  new _ _ absent there := by cases absent.symm.trans there

theorem Extends.contentAddressed {contents earlier : Contents} (extends_ : contents.Extends earlier)
    (addressed : earlier.ContentAddressed) : contents.ContentAddressed := by
  intro hash code there
  cases before : earlier.contracts[hash]? with
  | none => exact (extends_.new hash code before there).2
  | some old =>
    rw [extends_.kept hash old before] at there
    exact addressed hash code (before.trans there)

end Contents

namespace LayeredStore

variable {store : LayeredStore} {snapshot : Snapshot}

theorem mem_heldBack (held : store.HeldOver snapshot) {change : Write} {hash : ScriptHash}
    (member : change ∈ store.heldBack) (about : change.place = .contract hash) :
    ∃ code, change.value = some code ∧ store.added? hash = some code := by
  obtain ⟨changes, rfl⟩ := held
  have said := ChangeSet.value?_eq_some_iff.2 ⟨change, member, about, rfl⟩
  obtain ⟨code, there, value⟩ := Option.map_eq_some_iff.1 said
  exact ⟨code, value.symm, (added?_of_layer changes hash).trans there⟩

/-- Whichever of the writes are made, the contracts of the snapshot stay. -/
theorem AddsNew.extends_writeAll (adds : store.AddsNew snapshot) {writes : List Write}
    (some_ : ∀ change ∈ writes, change ∈ store.heldBack)
    (distinct : (writes.map Write.place).Nodup) :
    (snapshot.contents.writeAll writes).Extends snapshot.contents := by
  constructor
  case kept =>
    intro hash code there
    -- A contract that is held back is new to the snapshot.
    have spared : Place.contract hash ∉ writes.map Write.place := by
      intro written
      obtain ⟨change, member, about⟩ := List.mem_map.1 written
      obtain ⟨other, _, added⟩ := mem_heldBack adds.held (some_ change member) about
      cases (adds.added hash other added).2.2.symm.trans there
    exact (snapshot.contents.valueAt_writeAll_of_not_mem spared).trans there
  case new =>
    intro hash code absent there
    change (snapshot.contents.writeAll writes).valueAt (.contract hash) = some code at there
    by_cases written : Place.contract hash ∈ writes.map Write.place
    · obtain ⟨change, member, about⟩ := List.mem_map.1 written
      obtain ⟨other, value, added⟩ := mem_heldBack adds.held (some_ change member) about
      rw [← about, snapshot.contents.valueAt_writeAll_of_mem distinct member, value] at there
      cases there
      obtain ⟨nonempty, own, _⟩ := adds.added hash code added
      exact ⟨nonempty, own⟩
    · rw [snapshot.contents.valueAt_writeAll_of_not_mem written] at there
      cases absent.symm.trans there

/-- If all the writes are made, the contracts that are new are those that were held back. -/
theorem AddsNew.isSome_added? (adds : store.AddsNew snapshot) (hash : ScriptHash) :
    (store.added? hash).isSome ↔ snapshot.contents.contracts[hash]? = none ∧
      (snapshot.contents.writeAll store.heldBack).contracts[hash]?.isSome := by
  obtain ⟨changes, rfl⟩ := adds.held
  have after : (snapshot.contents.writeAll changes.writes).contracts[hash]? =
      (changes.contracts[hash]?.map some).getD snapshot.contents.contracts[hash]? :=
    changes.valueAt_writeAll snapshot.contents (.contract hash)
  rw [heldBack, after]
  have own := adds.added hash
  rw [added?_of_layer] at own ⊢
  cases there : changes.contracts[hash]? with
  | some code => simp [(own code there).2.2]
  | none => simp

end LayeredStore

/-! ## Chains

If a chain faults, what is left to say is that nothing was lost and nothing else was added. If it
halts, all writes were made, and the three ways to tell the new contracts come to the same: by the
contents before and after, by the last frame and by the calls. -/

namespace Progress

variable {progress : Progress} {snapshot : Snapshot}

theorem extends_settle (adds : progress.world.store.AddsNew snapshot) :
    progress.settle.2.contents.Extends snapshot.contents := by
  cases ending : progress.fault with
  | some record =>
    rw [settle_of_fault adds.held ending]
    exact .refl _
  | none =>
    rw [(settle_of_halt adds.held ending).2]
    exact adds.extends_writeAll (fun _ granted => (snapshot.granted_prefix _).subset granted)
      (nodup_granted adds.held)

theorem contents_of_settled (adds : progress.world.store.AddsNew snapshot)
    (halted : progress.fault = none) (settled : progress.settle.1 = none) :
    progress.settle.2.contents = snapshot.contents.writeAll progress.world.store.heldBack := by
  obtain ⟨refused, contents⟩ := settle_of_halt adds.held halted
  rw [settled] at refused
  rw [contents, Snapshot.granted_of_refusal_eq_none (Option.map_eq_none_iff.1 refused.symm)]

end Progress

namespace Machine

/-- How the contracts are accounted for that are new after a chain has halted. -/
structure AccountsForContracts (machine : Machine) (invocation : Invocation)
    (steps : List Execution) (created : Std.ExtTreeSet ScriptHash) (before after : Contents) :
    Prop where
  /-- The last frame knows the new contracts. -/
  known : ∀ hash : ScriptHash, hash ∈ created ↔
    before.contracts[hash]? = none ∧ after.contracts[hash]?.isSome
  /-- They are those that calls of the service have returned. -/
  returned : ∀ hash : ScriptHash, hash ∈ created ↔
    hash ∈ steps.filterMap (Execution.created? machine invocation)
  once : (steps.filterMap (Execution.created? machine invocation)).Nodup
  /-- The steps that return a hash are the successful calls of the service. -/
  returns : ∀ stage ∈ steps,
    (stage.created? machine invocation).isSome = stage.serves machine invocation .contractCreate

theorem addsNew_opening (machine : Machine) (snapshot : Snapshot) (gas : Int) :
    (machine.opening snapshot gas).world.store.AddsNew snapshot ∧
      (machine.opening snapshot gas).residue.record.Knows
        (machine.opening snapshot gas).world.store := by
  have nothing (hash : ScriptHash) :
      (machine.opening snapshot gas).world.store.added? hash = none :=
    (LayeredStore.added?_of_layer {} hash).trans Std.ExtTreeMap.getElem?_empty
  refine ⟨⟨⟨{}, rfl⟩, fun hash code added => ?_⟩, fun hash => ?_⟩
  · cases (nothing hash).symm.trans added
  · rw [nothing]
    exact iff_of_false Std.ExtTreeSet.not_mem_empty nofun

theorem accountsForContracts {machine : Machine} (standard : machine.table = {})
    (invocation : Invocation) (snapshot : Snapshot) (gas : Int) (first : Script)
    (rest : List Script)
    (halts : (machine.executeChain invocation snapshot gas (first :: rest)).receipt.isHalt = true) :
    AccountsForContracts machine invocation
      (machine.steps invocation snapshot gas (first :: rest))
      (machine.progress invocation snapshot gas (first :: rest)).residue.created snapshot.contents
      (machine.executeChain invocation snapshot gas (first :: rest)).snapshot.contents := by
  have invariant := machine.knowsAdded_invariant invocation snapshot
  have healthy := fault_progress_of_isHalt halts
  obtain ⟨fault, left⟩ := machine.executeChain_settle invocation snapshot gas first rest
  obtain ⟨adds, knows⟩ := machine.addsNew_opening snapshot gas
  have entered := (contractJournal standard invocation snapshot).chain invariant snapshot gas
    ⟨adds, fun _ => knows⟩ _ healthy
  obtain ⟨members, _, distinct⟩ := entered.of_insert
  obtain ⟨addsNew, known⟩ :=
    invariant.progress snapshot gas ⟨adds, fun _ => knows⟩ (first :: rest)
  constructor
  case returns => exact fun _ _ => Execution.isSome_created? standard
  case once => exact distinct
  case returned =>
    intro hash
    refine (members hash).trans (or_iff_right ?_)
    exact Std.ExtTreeSet.not_mem_empty
  case known =>
    intro hash
    rw [Receipt.isHalt, fault, Option.isNone_iff_eq_none] at halts
    rw [left, Progress.contents_of_settled addsNew healthy halts, ← addsNew.isSome_added?]
    exact known healthy hash

/-- What a chain does to the contracts of a snapshot: it keeps them and adds only contracts under
the hash of their code, and if it halts the new ones are accounted for. -/
structure KeepsContracts (machine : Machine) (invocation : Invocation) (snapshot : Snapshot)
    (gas : Int) (scripts : List Script) (outcome : Outcome) : Prop where
  keeps : outcome.snapshot.contents.Extends snapshot.contents
  addressed : outcome.snapshot.contents.ContentAddressed
  accounts : outcome.receipt.isHalt = true → AccountsForContracts machine invocation
    (machine.steps invocation snapshot gas scripts)
    (machine.progress invocation snapshot gas scripts).residue.created snapshot.contents
    outcome.snapshot.contents

theorem keepsContracts_executeChain (config : Config) (invocation : Invocation)
    (snapshot : Snapshot) (gas : Int) (scripts : List Script)
    (addressed : snapshot.contents.ContentAddressed) :
    KeepsContracts (standard config) invocation snapshot gas scripts
      ((standard config).executeChain invocation snapshot gas scripts) := by
  cases scripts with
  | nil =>
    refine ⟨.refl _, addressed, fun _ => ⟨fun hash => ?_, fun hash => ?_, .nil, ?_⟩⟩
    · refine iff_of_false Std.ExtTreeSet.not_mem_empty fun ⟨absent, there⟩ => ?_
      rw [Option.isSome_iff_ne_none] at there
      exact there absent
    · exact iff_of_false Std.ExtTreeSet.not_mem_empty List.not_mem_nil
    · exact fun _ _ => Execution.isSome_created? rfl
  | cons first rest =>
    obtain ⟨adds, knows⟩ := (standard config).addsNew_opening snapshot gas
    have settled := ((standard config).knowsAdded_invariant invocation snapshot).progress snapshot
      gas ⟨adds, fun _ => knows⟩ (first :: rest)
    have left := ((standard config).executeChain_settle invocation snapshot gas first rest).2
    have keeps := Progress.extends_settle settled.1
    rw [← left] at keeps
    exact ⟨keeps, keeps.contentAddressed addressed,
      accountsForContracts rfl invocation snapshot gas first rest⟩

/-- A script that makes a contract of one instruction. -/
def deployer : Script :=
  { code := [Opcode.PUSHDATA1.code, 1, Opcode.RET.code]
      ++ Opcode.SYSCALL.code :: Bytes.ofNat 4 Service.contractCreate.id }

/-- Code that makes a contract, too, of another instruction. -/
def foundingCode : Bytes :=
  [Opcode.PUSHDATA1.code, 1, Opcode.NOP.code]
    ++ Opcode.SYSCALL.code :: Bytes.ofNat 4 Service.contractCreate.id

/-- The hash of this code, worked out once. -/
def founder : ScriptHash :=
  ⟨[0xf6, 0x58, 0x12, 0x7a, 0xbf, 0xca, 0x31, 0x05, 0xa4, 0x00,
    0xc3, 0x21, 0xa5, 0xc0, 0x63, 0x57, 0x33, 0x0d, 0x4a, 0xcf], rfl⟩

theorem founder_eq : founder = scriptHash foundingCode := by
  decide +kernel

/-- A snapshot with a contract that has this code. -/
def founded : Snapshot :=
  { contents := { contracts := Std.ExtTreeMap.insert ∅ founder foundingCode } }

/-- A script that calls this contract. -/
def founderCall : Script :=
  { code := (Opcode.PUSHNULL.code :: Opcode.PUSHDATA1.code :: 20 :: founder.bytes)
      ++ Opcode.SYSCALL.code :: Bytes.ofNat 4 Service.contractCall.id }

theorem contentAddressed_founded : founded.contents.ContentAddressed := by
  intro hash code there
  unfold founded at there
  dsimp only at there
  rw [Std.ExtTreeMap.getElem?_insert] at there
  split at there
  · rename_i same
    cases there
    rw [← founder_eq]
    exact (Std.LawfulEqCmp.compare_eq_iff_eq.1 same).symm
  · rw [Std.ExtTreeMap.getElem?_empty] at there
    cases there

/-- One contract is there before, and after the chain also the two that a script and the contract
that the next script calls have made. -/
theorem keepsContracts_founderCall :
    let outcome := (standard {}).executeChain {} founded 100_000_000 [deployer, founderCall]
    (outcome.receipt.isHalt = true ∧ outcome.snapshot.contents.contracts.size = 3) ∧
      (founded.contents.contracts[founder]? = some foundingCode ∧
        outcome.snapshot.contents.contracts[founder]? = some foundingCode) ∧
      founded.contents.ContentAddressed ∧
      KeepsContracts (standard {}) {} founded 100_000_000 [deployer, founderCall] outcome := by
  intro outcome
  have there : founded.contents.contracts[founder]? = some foundingCode :=
    Std.ExtTreeMap.getElem?_insert_self
  have keeps :
      KeepsContracts (standard {}) {} founded 100_000_000 [deployer, founderCall] outcome :=
    keepsContracts_executeChain {} {} founded 100_000_000 [deployer, founderCall]
      contentAddressed_founded
  have kept := keeps.keeps.kept founder foundingCode there
  exact ⟨by decide +kernel, ⟨there, kept⟩, contentAddressed_founded, keeps⟩

end Machine

end GasMachine
