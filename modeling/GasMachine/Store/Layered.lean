import GasMachine.Store.Snapshot

/-!
# Layers of buffered writes

A layer holds back writes until it is committed to what lies below it or discarded. Reading looks
through the layers from the top and asks the snapshot only for what no layer knows. A commit hands
on the writes one by one, contracts first and each table in the order of its keys; it stops at the
first refusal, and what was handed on before stays.
-/

set_option autoImplicit false

namespace GasMachine

/-! ## One layer -/

/-- Writes that are held back. `none` stands for a removed key. -/
structure ChangeSet where
  storage : Std.ExtTreeMap StorageKey (Option Bytes) := ∅
  contracts : Std.ExtTreeMap ScriptHash Bytes := ∅

namespace ChangeSet

/-- Add a write; it replaces an earlier one of the same key. -/
def record (changes : ChangeSet) : Write → ChangeSet
  | .put key value => { changes with storage := changes.storage.insert key (some value) }
  | .delete key => { changes with storage := changes.storage.insert key none }
  | .addContract hash code => { changes with contracts := changes.contracts.insert hash code }

def entryWrite : StorageKey × Option Bytes → Write
  | (key, some value) => .put key value
  | (key, none) => .delete key

/-- The writes that are left, in the order in which they are handed on. -/
def writes (changes : ChangeSet) : List Write :=
  (changes.contracts.toList.map fun (hash, code) => Write.addContract hash code)
    ++ changes.storage.toList.map entryWrite

def isEmpty (changes : ChangeSet) : Bool :=
  changes.storage.isEmpty && changes.contracts.isEmpty

def storageCount (changes : ChangeSet) : Nat := changes.storage.size

end ChangeSet

/-! ## Layers over a snapshot -/

/-- A snapshot with any number of layers, the top one first. -/
structure LayeredStore where
  layers : List ChangeSet := []
  base : Snapshot := {}

namespace LayeredStore

/-- Look up a storage entry: the topmost layer that has written the key decides. -/
def getStorage (store : LayeredStore) (key : StorageKey) : Except StoreError (Option Bytes) :=
  match store.layers.findSome? fun layer => layer.storage[key]? with
  | some written => .ok written
  | none => store.base.getStorage key

def getContract (store : LayeredStore) (hash : ScriptHash) : Except StoreError (Option Bytes) :=
  match store.layers.findSome? fun layer => layer.contracts[hash]? with
  | some code => .ok (some code)
  | none => store.base.getContract hash

def hasContract (store : LayeredStore) (hash : ScriptHash) : Except StoreError Bool := do
  return (← store.getContract hash).isSome

/-- Make a change in the top layer, or in the snapshot if there is no layer. -/
def write (store : LayeredStore) (change : Write) : Except StoreError LayeredStore :=
  match store.layers with
  | top :: below => .ok { store with layers := top.record change :: below }
  | [] => do return { store with base := ← store.base.write change }

/-- Make changes one after the other, up to the first refusal. -/
def writeAll (store : LayeredStore) : List Write → LayeredStore × Option StoreError
  | [] => (store, none)
  | change :: rest =>
    match store.write change with
    | .ok after => after.writeAll rest
    | .error cause => (store, some cause)

def begin (store : LayeredStore) : LayeredStore := { store with layers := {} :: store.layers }

def discard (store : LayeredStore) : LayeredStore := { store with layers := store.layers.tail }

/-- Drop the top layer and hand its writes to what lies below. -/
def commit (store : LayeredStore) : LayeredStore × Option StoreError :=
  match store.layers with
  | [] => (store, none)
  | top :: below => LayeredStore.writeAll { store with layers := below } top.writes

end LayeredStore

end GasMachine
