import GasMachine.Instruction.Run
import GasMachine.Proofs.Success

/-!
# What instructions can ask for

Most behaviours only compute: they move on inside the script and leave the world alone
(`Behaviour.run_plain`). Whatever reaches beyond the frame goes through a system call. A system
call makes at most one change to the store (`Behaviour.run_changes`), and only one service has a
contract run (`Behaviour.run_call`).
-/

set_option autoImplicit false

namespace GasMachine

/-- Whether an effect only says where the script goes on. -/
def Effect.isMove : Effect → Bool
  | .none | .jump _ | .enter _ | .leave _ => true
  | _ => false

/-- The service that asks for an effect, if it takes one. -/
def Effect.service? : Effect → Option Service
  | .log _ => some .log
  | .notify _ _ => some .notify
  | .create _ => some .contractCreate
  | .call _ _ => some .contractCall
  | .none | .jump _ | .enter _ | .leave _ => Option.none

theorem Effect.service?_of_isMove {effect : Effect} (move : effect.isMove = true) :
    effect.service? = Option.none := by
  cases effect <;> first | rfl | cases move

/-- Results that stay inside the script. -/
structure Results.Plain (world : World) (results : Results) : Prop where
  move : results.effect.isMove = true
  world : results.world = world

/-- The owner of the entry that a write is about. -/
def Write.owner? : Write → Option ScriptHash
  | .put key _ | .delete key => some key.owner
  | .addContract _ _ => none

/-! ## Arguments

Taking arguments apart gives items that were among them. Each lemma is said twice, once for what the
arguments were and once for a property that all of them have. -/

namespace Arguments

variable {p : Item → Prop} {items : List Item}

theorem one_ensures : Ensures (fun item => items = [item]) (one items) := by
  unfold one
  split
  · exact Ensures.ok rfl
  · exact Ensures.error _

theorem two_ensures : Ensures (fun pair => items = [pair.1, pair.2]) (two items) := by
  unfold two
  split
  · exact Ensures.ok rfl
  · exact Ensures.error _

theorem three_ensures :
    Ensures (fun triple => items = [triple.1, triple.2.1, triple.2.2]) (three items) := by
  unfold three
  split
  · exact Ensures.ok rfl
  · exact Ensures.error _

theorem counted_ensures : Ensures (fun pair => items = pair.1 :: pair.2) (counted items) := by
  unfold counted
  split
  · exact Ensures.ok rfl
  · exact Ensures.error _

theorem one_all (held : ∀ item ∈ items, p item) : Ensures p (one items) := by
  unfold one
  split
  · exact Ensures.ok (List.forall_mem_singleton.1 held)
  · exact Ensures.error _

theorem two_all (held : ∀ item ∈ items, p item) :
    Ensures (fun (a, b) => p a ∧ p b) (two items) := by
  unfold two
  split
  · simp only [List.forall_mem_cons] at held
    exact Ensures.ok ⟨held.1, held.2.1⟩
  · exact Ensures.error _

theorem three_all (held : ∀ item ∈ items, p item) :
    Ensures (fun (a, b, c) => p a ∧ p b ∧ p c) (three items) := by
  unfold three
  split
  · simp only [List.forall_mem_cons] at held
    exact Ensures.ok ⟨held.1, held.2.1, held.2.2.1⟩
  · exact Ensures.error _

theorem five_all (held : ∀ item ∈ items, p item) :
    Ensures (fun (a, b, c, d, e) => p a ∧ p b ∧ p c ∧ p d ∧ p e) (five items) := by
  unfold five
  split
  · simp only [List.forall_mem_cons] at held
    exact Ensures.ok ⟨held.1, held.2.1, held.2.2.1, held.2.2.2.1, held.2.2.2.2.1⟩
  · exact Ensures.error _

theorem counted_all (held : ∀ item ∈ items, p item) :
    Ensures (fun (_, rest) => ∀ item ∈ rest, p item) (counted items) := by
  unfold counted
  split
  · exact Ensures.ok (List.forall_mem_cons.1 held).2
  · exact Ensures.error _

end Arguments

/-! ## Behaviours

The case analysis over behaviours is done here once for effects. What can be said of straight
behaviours is stronger, so they are treated first. -/

namespace Behaviour

variable (host : Host) (instruction : Instruction) (frame : Frame) (world : World)
  (arguments : Arguments)

theorem jumpWhen_isMove (taken : Bool) :
    Ensures (fun effect => effect.isMove = true) (jumpWhen taken instruction frame) := by
  unfold jumpWhen
  split
  · exact Ensures.map_any fun _ => rfl
  · exact Ensures.ok rfl

theorem leaveEffect_isMove :
    Ensures (fun effect => effect.isMove = true) (leaveEffect frame) := by
  unfold leaveEffect
  split
  · exact Ensures.map_any fun _ => rfl
  · exact Ensures.ok rfl

/-- Whether a behaviour goes on with the next instruction, whatever it is given, and does not ask
where it is. -/
def isStraight : Behaviour → Bool
  | .pushPointer | .jump | .jumpIf | .jumpCompare | .call | .callPointer | .leave | .systemCall =>
    false
  | _ => true

theorem run_straight {behaviour : Behaviour} (straight : behaviour.isStraight = true) :
    Ensures (fun results => results.effect = .none ∧ results.world = world)
      (behaviour.run host instruction frame world arguments) := by
  cases behaviour <;> try cases straight
  -- They put items on the stacks or fail, after any number of parts that may fail.
  all_goals
    dsimp only [run]
    repeat' with_reducible first
      | refine Ensures.bind_any fun _ => ?_
      | exact Ensures.error _
      | exact Ensures.throw _
      | refine Ensures.ok ⟨?_, ?_⟩
      | refine Ensures.pure ⟨?_, ?_⟩
      | refine Ensures.map_any fun _ => ⟨?_, ?_⟩
      | split
  all_goals rfl

/-- Whatever is not a system call computes inside the script. -/
theorem run_plain {behaviour : Behaviour} (h : behaviour ≠ .systemCall) :
    Ensures (Results.Plain world) (behaviour.run host instruction frame world arguments) := by
  have moves {wanted : Except Fault Effect}
      (move : Ensures (fun effect => effect.isMove = true) wanted) :
      Ensures (Results.Plain world)
        (wanted.map fun effect => ({ effect, world } : Results)) :=
    Ensures.map (move.mono fun _ isMove => ⟨isMove, rfl⟩)
  have enters (target : Except Fault Nat) :
      Ensures (fun effect => effect.isMove = true) (target.map Effect.enter) :=
    Ensures.map_any fun _ => rfl
  by_cases straight : behaviour.isStraight = true
  · refine (run_straight host instruction frame world arguments straight).mono ?_
    rintro results ⟨none, same⟩
    exact ⟨congrArg Effect.isMove none, same⟩
  cases behaviour
  case systemCall => exact absurd rfl h
  case pushPointer => exact Ensures.map_any fun _ => ⟨rfl, rfl⟩
  case jump => exact moves (jumpWhen_isMove _ _ _)
  case jumpIf => exact Ensures.bind_any fun _ => moves (jumpWhen_isMove _ _ _)
  case jumpCompare =>
    refine Ensures.bind_any fun _ => Ensures.bind_any fun _ => Ensures.bind_any fun _ => ?_
    exact Ensures.bind_any fun _ => moves (jumpWhen_isMove _ _ _)
  case call => exact moves (enters _)
  case callPointer => exact Ensures.bind_any fun _ => moves (enters _)
  case leave => exact moves (leaveEffect_isMove _)
  all_goals exact absurd rfl straight

end Behaviour

/-! ## Services

What a service does to the store is told as the write itself and not as a new store, because what
follows from it depends on the place that is written and on the arguments that allowed it
(`Changes`). -/

namespace Service

variable (service : Service) (host : Host) (frame : Frame) (world : World)
  (arguments : List Item)

theorem ofStore_ensures {α : Type} {asked : Except StoreError α} :
    Ensures (fun value => asked = .ok value) (ofStore asked) := by
  cases asked with
  | error cause => exact Ensures.error _
  | ok value => exact Ensures.ok rfl

theorem readWritableArea_ensures (item : Item) :
    Ensures (fun area => ∃ serial, item = .interop ⟨serial, .storage area.owner false⟩)
      (readWritableArea item) := by
  have handle : Ensures (fun area => ∃ serial,
      item = .interop ⟨serial, .storage area.owner area.readOnly⟩) (readArea item) := by
    unfold readArea
    split
    · exact Ensures.ok ⟨_, rfl⟩
    · exact Ensures.error _
    · exact Ensures.error _
  refine handle.bind fun area held => ?_
  split
  · exact Ensures.throw _
  · rename_i writable
    obtain ⟨serial, same⟩ := held
    rw [Bool.not_eq_true] at writable
    rw [writable] at same
    exact Ensures.pure ⟨serial, same⟩

/-- A change that a service makes to the store with its arguments. -/
inductive Changes (limits : Limits) (arguments : List Item) : Service → Write → Prop where
  | put {item key value : Item} {area : Area} {place content : Bytes}
    (taken : arguments = [item, key, value]) (writable : readWritableArea item = .ok area)
    (named : readStorageKey key = .ok place) (bytes : value.toBytes = .ok content)
    (fits : content.length ≤ limits.itemSize) :
    Changes limits arguments .storagePut (.put ⟨area.owner, place⟩ content)
  | delete {item key : Item} {area : Area} {place : Bytes} (taken : arguments = [item, key])
    (writable : readWritableArea item = .ok area) (named : readStorageKey key = .ok place) :
    Changes limits arguments .storageDelete (.delete ⟨area.owner, place⟩)
  | create {item : Item} {code : Bytes} (taken : arguments = [item])
    (bytes : item.toBytes = .ok code) :
    Changes limits arguments .contractCreate (.addContract (scriptHash code) code)

/-- A service leaves the store alone or makes one change to it. -/
theorem run_changes :
    Ensures (fun results => results.world.store = world.store ∨
        ∃ change, service.Changes host.limits arguments change ∧
          world.store.write change = .ok results.world.store)
      (service.run host frame world arguments) := by
  cases service
  case storagePut =>
    refine Arguments.three_ensures.bind fun (item, key, value) taken => ?_
    refine (Ensures.self _).bind fun area writable => (Ensures.self _).bind fun place named => ?_
    refine (Ensures.self _).bind fun content bytes => ?_
    split
    · exact Ensures.throw _
    · rename_i fits
      refine ofStore_ensures.bind fun store written => Ensures.pure (Or.inr ⟨_, ?_, written⟩)
      exact .put taken writable named bytes (Nat.not_lt.1 fits)
  case storageDelete =>
    refine Arguments.two_ensures.bind fun (item, key) taken => ?_
    refine (Ensures.self _).bind fun area writable => (Ensures.self _).bind fun place named => ?_
    refine ofStore_ensures.bind fun store written => Ensures.pure (Or.inr ⟨_, ?_, written⟩)
    exact .delete taken writable named
  case contractCreate =>
    refine Arguments.one_ensures.bind fun item taken => (Ensures.self _).bind fun code bytes => ?_
    dsimp only
    split
    · exact Ensures.throw _
    · refine Ensures.bind_any fun present => ?_
      split
      · exact Ensures.throw _
      · refine ofStore_ensures.bind fun store written => Ensures.pure (Or.inr ⟨_, ?_, written⟩)
        exact .create taken bytes
  -- The other services do not write.
  all_goals
    dsimp only [run]
    repeat' with_reducible first
      | refine Ensures.bind_any fun _ => ?_
      | exact Ensures.error _
      | exact Ensures.throw _
      | refine Ensures.ok ?_
      | refine Ensures.pure ?_
      | split
  all_goals exact Or.inl rfl

/-- A service writes an entry only with a handle that it was given. -/
theorem Changes.handed {limits : Limits} {service : Service} {change : Write}
    (changes : service.Changes limits arguments change) (owner : ScriptHash)
    (about : change.owner? = some owner) :
    ∃ serial, Item.interop ⟨serial, .storage owner false⟩ ∈ arguments := by
  cases changes with
  | put taken writable _ _ _ =>
    cases about
    obtain ⟨serial, rfl⟩ := readWritableArea_ensures _ _ writable
    exact ⟨serial, taken ▸ List.mem_cons_self⟩
  | delete taken writable _ =>
    cases about
    obtain ⟨serial, rfl⟩ := readWritableArea_ensures _ _ writable
    exact ⟨serial, taken ▸ List.mem_cons_self⟩
  | create _ _ => cases about

/-- What is known when a service asks for a contract to be run: which service it is, and that the
contract's stack is what its second argument holds. -/
structure Calls (service : Service) (world : World) (arguments items : List Item)
    (results : Results) : Prop where
  service : service = .contractCall
  arguments : ∃ hash parameters, arguments = [hash, parameters] ∧
    readCallArguments parameters = .ok items
  stack : results.stack = []
  alt : results.alt = []
  world : results.world = world

theorem run_call :
    Ensures (fun results => ∀ code items, results.effect = .call code items →
      service.Calls world arguments items results) (service.run host frame world arguments) := by
  cases service
  case contractCall =>
    refine Arguments.two_ensures.bind fun pair two => Ensures.bind_any fun _ => ?_
    refine (Ensures.self _).bind fun parameters read => Ensures.bind_any fun code => ?_
    split
    · refine Ensures.pure fun _ _ asked => ?_
      cases asked
      exact ⟨rfl, ⟨pair.1, pair.2, two, read⟩, rfl, rfl, rfl⟩
    · exact Ensures.throw _
  -- The other services ask for nothing of the kind.
  all_goals
    dsimp only [run]
    repeat' with_reducible first
      | refine Ensures.bind_any fun _ => ?_
      | exact Ensures.error _
      | exact Ensures.throw _
      | refine Ensures.ok ?_
      | refine Ensures.pure ?_
      | split
  all_goals
    intro code items asked
    cases asked

/-- An effect that takes a service is asked for by that service. -/
theorem run_service? :
    Ensures (fun results => ∀ asked, results.effect.service? = some asked → service = asked)
      (service.run host frame world arguments) := by
  cases service
  all_goals
    dsimp only [run]
    repeat' with_reducible first
      | refine Ensures.bind_any fun _ => ?_
      | exact Ensures.error _
      | exact Ensures.throw _
      | refine Ensures.ok ?_
      | refine Ensures.pure ?_
      | split
  all_goals
    intro asked same
    cases same
  all_goals rfl

/-- The call of a contract asks for nothing else. -/
theorem contractCall_effect :
    Ensures (fun results => ∃ code items, results.effect = .call code items)
      (contractCall.run host frame world arguments) := by
  refine Ensures.bind_any fun _ => Ensures.bind_any fun _ => ?_
  refine Ensures.bind_any fun parameters => Ensures.bind_any fun code => ?_
  split
  · rename_i code
    exact Ensures.pure ⟨code, parameters, rfl⟩
  · exact Ensures.throw _

end Service

/-! ## Behaviours and services together

A behaviour that is no system call computes inside the script; a system call does what its service
does. So every statement about services carries over to instructions. -/

namespace Behaviour

variable (behaviour : Behaviour) (host : Host) (instruction : Instruction) (frame : Frame)
  (world : World) (arguments : Arguments)

/-- A system call runs the service that it names. -/
theorem run_systemCall {service : Service} (named : host.service instruction = .ok service) :
    Ensures (fun results => service.run host frame world arguments.stack = .ok results)
      (systemCall.run host instruction frame world arguments) := by
  refine (Ensures.self _).bind fun other also => ?_
  cases named.symm.trans also
  dsimp only
  split
  · exact Ensures.self _
  · exact Ensures.throw _

/-- An instruction leaves the store alone, or is a system call that makes one change to it. -/
theorem run_changes :
    Ensures (fun results => results.world.store = world.store ∨
        ∃ (service : Service) (change : Write), service.Changes host.limits arguments.stack change ∧
          world.store.write change = .ok results.world.store)
      (behaviour.run host instruction frame world arguments) := by
  by_cases system : behaviour = .systemCall
  · subst system
    refine Ensures.bind_any fun service => ?_
    dsimp only
    split
    · refine (service.run_changes host frame world arguments.stack).mono fun results => ?_
      exact Or.imp_right fun ⟨change, changes, written⟩ => ⟨service, change, changes, written⟩
    · exact Ensures.throw _
  · refine (run_plain host instruction frame world arguments system).mono fun results plain => ?_
    rw [plain.world]
    exact Or.inl rfl

/-- An instruction that asks for a contract to be run is a system call that names the call of a
contract. -/
theorem run_call :
    Ensures (fun results => ∀ code items, results.effect = .call code items →
      behaviour = .systemCall ∧ ∃ service, host.service instruction = .ok service ∧
        service.Calls world arguments.stack items results)
      (behaviour.run host instruction frame world arguments) := by
  by_cases system : behaviour = .systemCall
  · subst system
    refine (Ensures.self _).bind fun service named => ?_
    dsimp only
    split
    · refine (service.run_call host frame world arguments.stack).mono ?_
      intro results calls code items asked
      exact ⟨rfl, service, named, calls code items asked⟩
    · exact Ensures.throw _
  · refine (run_plain host instruction frame world arguments system).mono ?_
    intro results plain code items asked
    have move := plain.move
    rw [asked] at move
    cases move

/-- An effect that takes a service is asked for by a system call that names it. -/
theorem run_service? :
    Ensures (fun results => ∀ asked, results.effect.service? = some asked →
      behaviour = .systemCall ∧ host.service instruction = .ok asked)
      (behaviour.run host instruction frame world arguments) := by
  by_cases system : behaviour = .systemCall
  · subst system
    refine (Ensures.self _).bind fun service named => ?_
    dsimp only
    split
    · refine (service.run_service? host frame world arguments.stack).mono ?_
      intro results same asked takes
      cases same asked takes
      exact ⟨rfl, named⟩
    · exact Ensures.throw _
  · refine (run_plain host instruction frame world arguments system).mono ?_
    intro results plain asked takes
    rw [Effect.service?_of_isMove plain.move] at takes
    cases takes

end Behaviour

end GasMachine
