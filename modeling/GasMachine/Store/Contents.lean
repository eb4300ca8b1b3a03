import GasMachine.Hash
import Std.Data.ExtTreeMap

/-!
# Contents of a store

A store holds the storage of contracts, by owner and key, and the code of contracts, by hash. Both
tables are listed in the order of their keys. Two contents are equal as soon as every look-up
gives the same.
-/

set_option autoImplicit false

namespace GasMachine

/-! ## Keys -/

structure StorageKey where
  owner : ScriptHash
  key : Bytes
deriving DecidableEq

namespace StorageKey

/-- Keys are ordered by owner first. -/
instance : Ord StorageKey := ⟨compareLex (compareOn owner) (compareOn key)⟩

theorem compare_def :
    (compare : StorageKey → StorageKey → Ordering) = compareLex (compareOn owner) (compareOn key) :=
  rfl

instance : Std.TransOrd StorageKey :=
  inferInstanceAs (Std.TransCmp (compareLex (compareOn owner) (compareOn key)))

instance : Std.LawfulEqOrd StorageKey where
  eq_of_compare {a b} h := by
    rw [compare_def, compareLex, Ordering.then_eq_eq] at h
    obtain ⟨sameOwner, sameKey⟩ := h
    cases a
    cases b
    simp only [compareOn] at sameOwner sameKey
    rw [Std.LawfulEqOrd.eq_of_compare sameOwner, Std.LawfulEqOrd.eq_of_compare sameKey]

end StorageKey

/-! ## Contents -/

structure Contents where
  storage : Std.ExtTreeMap StorageKey Bytes := ∅
  contracts : Std.ExtTreeMap ScriptHash Bytes := ∅

inductive Write where
  | put (key : StorageKey) (value : Bytes)
  /-- Remove a key, whether it is there or not. -/
  | delete (key : StorageKey)
  | addContract (hash : ScriptHash) (code : Bytes)

namespace Contents

def write (contents : Contents) : Write → Contents
  | .put key value => { contents with storage := contents.storage.insert key value }
  | .delete key => { contents with storage := contents.storage.erase key }
  | .addContract hash code => { contents with contracts := contents.contracts.insert hash code }

def writeAll (contents : Contents) (writes : List Write) : Contents :=
  writes.foldl write contents

/-- The storage of one contract, in key order. -/
def entriesOf (contents : Contents) (owner : ScriptHash) : List (Bytes × Bytes) :=
  contents.storage.toList.filterMap fun (place, value) =>
    if place.owner = owner then some (place.key, value) else none

@[ext] theorem ext {a b : Contents}
    (storage : ∀ key : StorageKey, a.storage[key]? = b.storage[key]?)
    (contracts : ∀ hash : ScriptHash, a.contracts[hash]? = b.contracts[hash]?) : a = b := by
  cases a
  cases b
  simp only [mk.injEq]
  exact ⟨Std.ExtTreeMap.ext_getElem? (fun {key} => storage key),
    Std.ExtTreeMap.ext_getElem? (fun {hash} => contracts hash)⟩

end Contents

end GasMachine
