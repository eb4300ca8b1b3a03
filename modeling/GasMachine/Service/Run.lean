import GasMachine.Item.Conversion
import GasMachine.Machine.Result

/-!
# What the services do

A service gets its arguments from the stack like any instruction. Storage is reached through a
handle on a storage area; a handle that may only read is refused wherever something would be
written. A call of a contract only asks for the contract to be run; its result arrives later.
-/

set_option autoImplicit false

namespace GasMachine.Service

/-- The longest storage key that may be written, in bytes. -/
def maxStorageKeySize : Nat := 64

/-- The longest name of a notification, in bytes. -/
def maxEventNameSize : Nat := 32

/-! ## Arguments -/

def hashItem (hash : ScriptHash) : Item := .byteString hash.bytes

def readHash (item : Item) : Except Fault ScriptHash := do
  match Hash.ofBytes (← item.toBytes) with
  | .ok hash => return hash
  | .error cause => throw (.invalidArgument (.notHash cause))

/-- An argument as a text of limited length; ill-formed parts are replaced. -/
def readText (limit : Nat) (item : Item) : Except Fault String := do
  let bytes ← item.toBytes
  if limit < bytes.length then throw (.invalidArgument (.longText bytes.length limit))
  else return Utf8.decodeLossy bytes

structure Area where
  owner : ScriptHash
  readOnly : Bool

def readArea : Item → Except Fault Area
  | .interop ⟨_, .storage owner readOnly⟩ => .ok ⟨owner, readOnly⟩
  | .interop ⟨_, .foreign typeName _⟩ => .error (.invalidArgument (.wrongHandle typeName))
  | item => .error (.invalidType (.kinds [.interop]) item.kind)

def readWritableArea (item : Item) : Except Fault Area := do
  let area ← readArea item
  if area.readOnly then throw .readOnlyContext else return area

def readStorageKey (item : Item) : Except Fault Bytes := do
  let key ← item.toBytes
  if maxStorageKeySize < key.length then
    throw (.invalidArgument (.longKey key.length maxStorageKeySize))
  else return key

def readCallArguments : Item → Except Fault (List Item)
  | .array items | .struct items => .ok items
  | .null => .ok []
  | item => .error (.invalidType (.kinds [.array]) item.kind)

def ofStore {α : Type} : Except StoreError α → Except Fault α
  | .ok value => .ok value
  | .error cause => .error (.storage cause)

/-! ## Services -/

def giveArea (frame : Frame) (world : World) (readOnly : Bool) : Results :=
  Results.one (.interop ⟨world.nextSerial, .storage frame.script readOnly⟩)
    { world with nextSerial := world.nextSerial + 1 }

def run (service : Service) (host : Host) (frame : Frame) (world : World) (arguments : List Item) :
    Except Fault Results :=
  match service with
  | .getTrigger => .ok (.one (.integer host.invocation.trigger.code) world)
  | .getTime =>
    match host.invocation.block with
    | some block => .ok (.one (.integer block.timestamp) world)
    | none => .error .missingPersistingBlock
  | .gasLeft => .ok (.one (.integer frame.gas) world)
  | .getExecutingScriptHash => .ok (.one (hashItem frame.script) world)
  | .getCallingScriptHash => .ok (.one ((frame.calling.map hashItem).getD .null) world)
  | .getEntryScriptHash => .ok (.one (hashItem frame.entry) world)
  | .checkWitness => do
    let hash ← readHash (← Arguments.one arguments)
    return .one (.boolean (host.invocation.witnesses.contains hash)) world
  | .log => do
    let message ← readText host.limits.itemSize (← Arguments.one arguments)
    return { effect := .log message, world }
  | .notify => do
    let (name, state) ← Arguments.two arguments
    return { effect := .notify (← readText maxEventNameSize name) state.toParameter, world }
  | .getContext => .ok (giveArea frame world false)
  | .getReadOnlyContext => .ok (giveArea frame world true)
  | .storageGet => do
    let (area, key) ← Arguments.two arguments
    let area ← readArea area
    let value ← ofStore (world.store.getStorage ⟨area.owner, ← key.toBytes⟩)
    return .one ((value.map Item.byteString).getD .null) world
  | .storagePut => do
    let (area, key, value) ← Arguments.three arguments
    let area ← readWritableArea area
    let key ← readStorageKey key
    let value ← value.toBytes
    if host.limits.itemSize < value.length then
      throw (.itemOverflow value.length host.limits.itemSize)
    let store ← ofStore (world.store.write (.put ⟨area.owner, key⟩ value))
    return .nothing { world with store }
  | .storageDelete => do
    let (area, key) ← Arguments.two arguments
    let area ← readWritableArea area
    let store ← ofStore (world.store.write (.delete ⟨area.owner, ← readStorageKey key⟩))
    return .nothing { world with store }
  | .contractCreate => do
    let code ← (← Arguments.one arguments).toBytes
    if code.isEmpty then throw (.invalidArgument .emptyContract)
    let hash := scriptHash code
    if ← ofStore (world.store.hasContract hash) then throw (.contractExists hash)
    let store ← ofStore (world.store.write (.addContract hash code))
    return { stack := [hashItem hash], effect := .create hash, world := { world with store } }
  | .contractCall => do
    let (hash, parameters) ← Arguments.two arguments
    let hash ← readHash hash
    let parameters ← readCallArguments parameters
    match ← ofStore (world.store.getContract hash) with
    | some code => return { effect := .call code parameters, world }
    | none => throw (.contractNotFound hash)

end GasMachine.Service
