import GasMachine.Store.Contents
import GasMachine.Digest

/-!
# Snapshots

The store that a caller hands in. It may refuse a request, as a store on a disk can, and whether it
does may depend on the changes it has made before; a refused request changes nothing. A store in
memory refuses nothing.
-/

set_option autoImplicit false

namespace GasMachine

inductive StoreError where
  | backend (text : String)
  | invalidFormat (text : String)
deriving DecidableEq

def StoreError.message : StoreError → String
  | .backend text => s!"backend error: {text}"
  | .invalidFormat text => s!"invalid data format: {text}"

/-! ## Requests -/

inductive Request where
  | getStorage (key : StorageKey)
  | getContract (hash : ScriptHash)
  | write (change : Write)

namespace Request

inductive Method where
  | getStorage | putStorage | deleteStorage | getContract | putContract
deriving DecidableEq

def method : Request → Method
  | .getStorage _ => .getStorage
  | .getContract _ => .getContract
  | .write (.put _ _) => .putStorage
  | .write (.delete _) => .deleteStorage
  | .write (.addContract _ _) => .putContract

/-- The key that a request is about: that of the storage entry, or the hash of the contract. -/
def key : Request → Bytes
  | .getStorage place => place.key
  | .getContract hash => hash.bytes
  | .write (.put place _) => place.key
  | .write (.delete place) => place.key
  | .write (.addContract hash _) => hash.bytes

end Request

/-! ## Stores that refuse -/

structure Snapshot where
  contents : Contents := {}
  /-- The changes made since the caller handed it in, oldest first. -/
  made : List Write := []
  /-- The requests that are refused after some changes. -/
  refuse : List Write → Request → Option StoreError := fun _ _ => none

namespace Snapshot

def permit (snapshot : Snapshot) (request : Request) : Except StoreError Unit :=
  match snapshot.refuse snapshot.made request with
  | some cause => .error cause
  | none => .ok ()

def getStorage (snapshot : Snapshot) (key : StorageKey) : Except StoreError (Option Bytes) := do
  snapshot.permit (.getStorage key)
  return snapshot.contents.storage[key]?

def getContract (snapshot : Snapshot) (hash : ScriptHash) : Except StoreError (Option Bytes) := do
  snapshot.permit (.getContract hash)
  return snapshot.contents.contracts[hash]?

def write (snapshot : Snapshot) (change : Write) : Except StoreError Snapshot := do
  snapshot.permit (.write change)
  return { snapshot with
    contents := snapshot.contents.write change
    made := snapshot.made ++ [change] }

/-- Store a contract under the hash of its code, whatever is refused otherwise. -/
def deploy (snapshot : Snapshot) (code : Bytes) : Snapshot :=
  { snapshot with contents := snapshot.contents.write (.addContract (scriptHash code) code) }

theorem write_eq_ok {snapshot after : Snapshot} {change : Write}
    (h : snapshot.write change = .ok after) :
    after = { snapshot with
      contents := snapshot.contents.write change
      made := snapshot.made ++ [change] } := by
  unfold write permit at h
  cases refused : snapshot.refuse snapshot.made (.write change) with
  | none =>
    simp only [refused] at h
    cases h
    rfl
  | some cause =>
    simp only [refused] at h
    cases h

end Snapshot

/-! ## Rules of refusal -/

/-- A rule that refuses requests of one kind, either about one key or about any. -/
structure RefusalRule where
  method : Request.Method
  key : Option Bytes := none
  cause : StoreError

def RefusalRule.appliesTo (rule : RefusalRule) (request : Request) : Bool :=
  rule.method = request.method && (rule.key.all fun key => key = request.key)

/-- What the first rule about a request says, whatever changes came before. -/
def RefusalRule.first (rules : List RefusalRule) (_ : List Write) (request : Request) :
    Option StoreError :=
  (rules.find? fun rule => rule.appliesTo request).map cause

end GasMachine
