import GasMachine.Digest
import GasMachine.Invocation

/-!
# Services

Services are what scripts can ask of the world around them. A system call names a service by a
number that is derived from its name. What a service costs, takes and gives is known before it
runs, so that a call is checked and charged like any other instruction.
-/

set_option autoImplicit false

namespace GasMachine

/-- The services, in the order of their ids. -/
inductive Service where
  | getTime | storageGet | getEntryScriptHash | getCallingScriptHash | contractCall | notify
  | getExecutingScriptHash | storagePut | contractCreate | checkWitness | log | getTrigger
  | getContext | gasLeft | getReadOnlyContext | storageDelete
deriving DecidableEq

namespace Service

/-! ## Names and ids -/

def all : List Service :=
  [.getTime, .storageGet, .getEntryScriptHash, .getCallingScriptHash, .contractCall, .notify,
   .getExecutingScriptHash, .storagePut, .contractCreate, .checkWitness, .log, .getTrigger,
   .getContext, .gasLeft, .getReadOnlyContext, .storageDelete]

def name : Service → String
  | .getTime => "System.Runtime.GetTime"
  | .storageGet => "System.Storage.Get"
  | .getEntryScriptHash => "System.Runtime.GetEntryScriptHash"
  | .getCallingScriptHash => "System.Runtime.GetCallingScriptHash"
  | .contractCall => "System.Contract.Call"
  | .notify => "System.Runtime.Notify"
  | .getExecutingScriptHash => "System.Runtime.GetExecutingScriptHash"
  | .storagePut => "System.Storage.Put"
  | .contractCreate => "System.Contract.Create"
  | .checkWitness => "System.Runtime.CheckWitness"
  | .log => "System.Runtime.Log"
  | .getTrigger => "System.Runtime.GetTrigger"
  | .getContext => "System.Storage.GetContext"
  | .gasLeft => "System.Runtime.GasLeft"
  | .getReadOnlyContext => "System.Storage.GetReadOnlyContext"
  | .storageDelete => "System.Storage.Delete"

/-- The id of a service, worked out once from its name. -/
def id : Service → Nat
  | .getTime => 0x0388c3b7
  | .storageGet => 0x31e85d92
  | .getEntryScriptHash => 0x38e2b4f9
  | .getCallingScriptHash => 0x3c6e5339
  | .contractCall => 0x525b7d62
  | .notify => 0x616f0195
  | .getExecutingScriptHash => 0x74a8fedb
  | .storagePut => 0x84183fe6
  | .contractCreate => 0x852c35ce
  | .checkWitness => 0x8cec27f8
  | .log => 0x9647e7cf
  | .getTrigger => 0xa0387de9
  | .getContext => 0xce67f69b
  | .gasLeft => 0xced88814
  | .getReadOnlyContext => 0xe26bb4f6
  | .storageDelete => 0xedc5582f

theorem id_eq (service : Service) : service.id = serviceId (Utf8.encode service.name) := by
  cases service <;> decide +kernel

/-! ## What a call asks for -/

/-- The fee of a service, on top of the price of the system call. -/
def price : Service → Nat
  | .getTrigger | .getTime => 250
  | .gasLeft | .getExecutingScriptHash | .getCallingScriptHash | .getEntryScriptHash
  | .getContext | .getReadOnlyContext => 400
  | .checkWitness => 30_000
  | .log | .notify | .storageGet | .storagePut | .storageDelete | .contractCall => 1_000_000
  | .contractCreate => 10_000_000

def arity : Service → Nat
  | .storagePut => 3
  | .notify | .storageGet | .storageDelete | .contractCall => 2
  | .checkWitness | .log | .contractCreate => 1
  | _ => 0

/-- The items that a service puts on the stack by the time it returns. -/
def results : Service → Nat
  | .log | .notify | .storagePut | .storageDelete | .contractCall => 0
  | _ => 1

/-- Room kept free for an item that arrives later: the result of a called contract. -/
def growth : Service → Int
  | .contractCall => 1
  | _ => 0

/-- How much deeper the script is nested while the service works. -/
def invocation : Service → Int
  | .contractCall => 1
  | _ => 0

/-- The triggers under which a service may run; services that write need the right to write. -/
def triggers : Service → List Trigger
  | .storagePut | .storageDelete | .contractCreate => [.application]
  | _ => Trigger.all

def allows (service : Service) (trigger : Trigger) : Bool :=
  service.triggers.contains trigger

def summary (service : Service) : String :=
  s!"InteropDescriptor \x7b name: {Quoted.string service.name}, "
    ++ s!"id: 0x{Hex.padded 8 service.id}, price: {service.price} \x7d"

end Service

/-! ## Registries -/

/-- The services of a machine, in the order of their ids. -/
structure ServiceRegistry where
  services : List Service := Service.all

namespace ServiceRegistry

def ofList (services : List Service) : ServiceRegistry :=
  ⟨Service.all.filter fun service => services.contains service⟩

def find? (registry : ServiceRegistry) (id : Nat) : Option Service :=
  registry.services.find? fun service => service.id == id

def named? (registry : ServiceRegistry) (name : String) : Option Service :=
  registry.find? (serviceId (Utf8.encode name))

theorem find?_mem {registry : ServiceRegistry} {id : Nat} {service : Service}
    (h : registry.find? id = some service) : service ∈ registry.services ∧ service.id = id := by
  exact ⟨List.mem_of_find?_eq_some h, by simpa using List.find?_some h⟩

end ServiceRegistry

end GasMachine
