import Mathlib
import GasMachine.Store.Layered

/-!
# What writes do to a store

A write is about one place, an entry of the storage or a contract, and says what stands there
afterwards. The writes of a layer are about different places, so they cannot undo one another: they
leave the contents alone only if each of them does.
-/

set_option autoImplicit false

namespace GasMachine

/-! ## Places

Entries and contracts are kept in two tables; as places they are treated alike, and contents are the
same if they are so at every place. -/

/-- A place in a store. -/
inductive Place where
  /-- The entry of a key. -/
  | entry (key : StorageKey)
  /-- The contract with a hash. -/
  | contract (hash : ScriptHash)
deriving DecidableEq

namespace Write

/-- The place that a write is about. -/
def place : Write → Place
  | .put key _ | .delete key => .entry key
  | .addContract hash _ => .contract hash

/-- What stands at the place afterwards. -/
def value : Write → Option Bytes
  | .put _ value => some value
  | .delete _ => none
  | .addContract _ code => some code

end Write

namespace Contents

/-- What stands at a place. -/
def valueAt (contents : Contents) : Place → Option Bytes
  | .entry key => contents.storage[key]?
  | .contract hash => contents.contracts[hash]?

theorem ext_valueAt {a b : Contents} (same : ∀ place, a.valueAt place = b.valueAt place) :
    a = b :=
  Contents.ext (fun key => same (.entry key)) (fun hash => same (.contract hash))

variable (contents : Contents)

@[simp] theorem valueAt_write_self (change : Write) :
    (contents.write change).valueAt change.place = change.value := by
  cases change with
  | put key value => exact Std.ExtTreeMap.getElem?_insert_self
  | delete key => exact Std.ExtTreeMap.getElem?_erase_self
  | addContract hash code => exact Std.ExtTreeMap.getElem?_insert_self

theorem valueAt_write_of_ne {change : Write} {place : Place} (other : place ≠ change.place) :
    (contents.write change).valueAt place = contents.valueAt place := by
  cases change with
  | put key value =>
    cases place with
    | entry asked =>
      have differ : compare key asked ≠ .eq := fun same =>
        other (congrArg Place.entry (Std.LawfulEqOrd.eq_of_compare same).symm)
      exact Std.ExtTreeMap.getElem?_insert.trans (if_neg differ)
    | contract asked => rfl
  | delete key =>
    cases place with
    | entry asked =>
      have differ : compare key asked ≠ .eq := fun same =>
        other (congrArg Place.entry (Std.LawfulEqOrd.eq_of_compare same).symm)
      exact Std.ExtTreeMap.getElem?_erase.trans (if_neg differ)
    | contract asked => rfl
  | addContract hash code =>
    cases place with
    | entry asked => rfl
    | contract asked =>
      have differ : compare hash asked ≠ .eq := fun same =>
        other (congrArg Place.contract (Std.LawfulEqOrd.eq_of_compare same).symm)
      exact Std.ExtTreeMap.getElem?_insert.trans (if_neg differ)

/-- A write changes nothing exactly if it says what is there already. -/
theorem write_eq_self_iff (change : Write) :
    contents.write change = contents ↔ contents.valueAt change.place = change.value := by
  constructor
  · intro same
    rw [← contents.valueAt_write_self change, same]
  · intro there
    refine ext_valueAt fun place => ?_
    by_cases here : place = change.place
    · rw [here, valueAt_write_self, there]
    · exact contents.valueAt_write_of_ne here

/-! ## Several writes

In a list of writes about different places the order does not matter: each of them is the only one
that is about its place. -/

@[simp] theorem writeAll_nil : contents.writeAll [] = contents := rfl

@[simp] theorem writeAll_cons (change : Write) (rest : List Write) :
    contents.writeAll (change :: rest) = (contents.write change).writeAll rest := rfl

theorem valueAt_writeAll_of_not_mem {writes : List Write} {place : Place}
    (other : place ∉ writes.map Write.place) :
    (contents.writeAll writes).valueAt place = contents.valueAt place := by
  induction writes generalizing contents with
  | nil => rfl
  | cons change rest ih =>
    rw [List.map_cons, List.mem_cons, not_or] at other
    rw [writeAll_cons, ih _ other.2, contents.valueAt_write_of_ne other.1]

/-- Of writes about different places each one says what stands at its place in the end. -/
theorem valueAt_writeAll_of_mem {writes : List Write} (distinct : (writes.map Write.place).Nodup)
    {change : Write} (member : change ∈ writes) :
    (contents.writeAll writes).valueAt change.place = change.value := by
  induction writes generalizing contents with
  | nil => cases member
  | cons first rest ih =>
    rw [List.map_cons, List.nodup_cons] at distinct
    obtain ⟨alone, distinct⟩ := distinct
    rw [writeAll_cons]
    rcases List.mem_cons.1 member with rfl | later
    · rw [valueAt_writeAll_of_not_mem _ alone, valueAt_write_self]
    · exact ih _ distinct later

/-- Writes about different places change nothing exactly if none of them does. -/
theorem writeAll_eq_self_iff {writes : List Write} (distinct : (writes.map Write.place).Nodup) :
    contents.writeAll writes = contents ↔
      ∀ change ∈ writes, contents.write change = contents := by
  induction writes with
  | nil => simp
  | cons change rest ih =>
    rw [List.map_cons, List.nodup_cons] at distinct
    obtain ⟨alone, distinct⟩ := distinct
    rw [writeAll_cons, List.forall_mem_cons, ← ih distinct]
    constructor
    · intro same
      -- No later write is about the same place, so what the first one says is there in the end.
      have last := valueAt_writeAll_of_not_mem (contents.write change) alone
      rw [same, valueAt_write_self] at last
      have idle := (contents.write_eq_self_iff change).2 last
      rw [idle] at same
      exact ⟨idle, same⟩
    · rintro ⟨idle, same⟩
      rw [idle, same]

end Contents

/-! ## The writes of a layer

A layer is a table, so it has one write at most for each place. What it hands on is told by what it
says of a place, and a write that is recorded replaces what it said before. -/

namespace ChangeSet

theorem place_entryWrite (entry : StorageKey × Option Bytes) :
    (entryWrite entry).place = .entry entry.1 := by
  obtain ⟨key, value⟩ := entry
  cases value <;> rfl

/-- The writes of a layer are about different places. -/
theorem nodup_places (changes : ChangeSet) : (changes.writes.map Write.place).Nodup := by
  unfold writes
  rw [List.map_append, List.map_map, List.map_map, List.nodup_append]
  refine ⟨?_, ?_, ?_⟩
  · refine List.pairwise_map.2 (changes.contracts.distinct_keys_toList.imp ?_)
    intro one other differ same
    rw [Place.contract.inj same] at differ
    exact differ Std.ReflCmp.compare_self
  · refine List.pairwise_map.2 (changes.storage.distinct_keys_toList.imp ?_)
    intro one other differ same
    rw [Function.comp_apply, Function.comp_apply, place_entryWrite, place_entryWrite] at same
    rw [Place.entry.inj same] at differ
    exact differ Std.ReflCmp.compare_self
  · intro contract inContracts entry inStorage same
    obtain ⟨one, _, rfl⟩ := List.mem_map.1 inContracts
    obtain ⟨other, _, rfl⟩ := List.mem_map.1 inStorage
    rw [Function.comp_apply, Function.comp_apply, place_entryWrite] at same
    cases same

/-- What a layer says of a place, if it was written. -/
def value? (changes : ChangeSet) : Place → Option (Option Bytes)
  | .entry key => changes.storage[key]?
  | .contract hash => changes.contracts[hash]?.map some

theorem value_entryWrite (entry : StorageKey × Option Bytes) :
    (entryWrite entry).value = entry.2 := by
  obtain ⟨key, value⟩ := entry
  cases value <;> rfl

/-- A layer hands on a write for each place of which it says something. -/
theorem value?_eq_some_iff {changes : ChangeSet} {place : Place} {value : Option Bytes} :
    changes.value? place = some value ↔
      ∃ change ∈ changes.writes, change.place = place ∧ change.value = value := by
  unfold writes
  simp only [List.mem_append, List.mem_map, Prod.exists]
  cases place with
  | entry key =>
    rw [value?, ← Std.ExtTreeMap.mem_toList_iff_getElem?_eq_some]
    constructor
    · intro held
      exact ⟨_, Or.inr ⟨key, value, held, rfl⟩, place_entryWrite _, value_entryWrite _⟩
    · rintro ⟨_, ⟨hash, code, _, rfl⟩ | ⟨other, held, inLayer, rfl⟩, here, there⟩
      · cases here
      · rw [place_entryWrite] at here
        rw [value_entryWrite] at there
        cases here
        cases there
        exact inLayer
  | contract hash =>
    rw [value?, Option.map_eq_some_iff]
    constructor
    · rintro ⟨code, held, rfl⟩
      rw [← Std.ExtTreeMap.mem_toList_iff_getElem?_eq_some] at held
      exact ⟨_, Or.inl ⟨hash, code, held, rfl⟩, rfl, rfl⟩
    · rintro ⟨_, ⟨other, code, inLayer, rfl⟩ | ⟨key, held, _, rfl⟩, here, there⟩
      · cases here
        exact ⟨code, Std.ExtTreeMap.mem_toList_iff_getElem?_eq_some.1 inLayer, there⟩
      · rw [place_entryWrite] at here
        cases here

/-- The writes of a layer put at a place what the layer says of it, and leave the other places
alone. -/
theorem valueAt_writeAll (changes : ChangeSet) (contents : Contents) (place : Place) :
    (contents.writeAll changes.writes).valueAt place =
      (changes.value? place).getD (contents.valueAt place) := by
  cases said : changes.value? place with
  | some value =>
    obtain ⟨change, member, rfl, rfl⟩ := value?_eq_some_iff.1 said
    exact contents.valueAt_writeAll_of_mem changes.nodup_places member
  | none =>
    refine contents.valueAt_writeAll_of_not_mem fun member => ?_
    obtain ⟨change, written, rfl⟩ := List.mem_map.1 member
    cases said.symm.trans (value?_eq_some_iff.2 ⟨change, written, rfl, rfl⟩)

/-- A layer says the last that was written. -/
theorem value?_record (changes : ChangeSet) (change : Write) (place : Place) :
    (changes.record change).value? place =
      if change.place = place then some change.value else changes.value? place := by
  cases change with
  | put key value =>
    cases place <;> simp [record, value?, Std.ExtTreeMap.getElem?_insert, Write.place, Write.value]
  | delete key =>
    cases place <;> simp [record, value?, Std.ExtTreeMap.getElem?_insert, Write.place, Write.value]
  | addContract hash code =>
    cases place with
    | entry asked => simp [record, value?, Write.place]
    | contract asked =>
      simp only [record, value?, Std.ExtTreeMap.getElem?_insert, Write.place, Write.value,
        Std.LawfulEqCmp.compare_eq_iff_eq, Place.contract.injEq]
      split <;> rfl

/-- Holding back one more write has the effect of making it after the others. -/
theorem writeAll_record (changes : ChangeSet) (change : Write) (contents : Contents) :
    contents.writeAll (changes.record change).writes =
      (contents.writeAll changes.writes).write change := by
  refine Contents.ext_valueAt fun place => ?_
  rw [valueAt_writeAll, value?_record]
  by_cases here : change.place = place
  · subst here
    rw [if_pos rfl, Contents.valueAt_write_self]
    rfl
  · rw [if_neg here, Contents.valueAt_write_of_ne _ (Ne.symm here), valueAt_writeAll]

end ChangeSet

end GasMachine
