import GasMachine.Proofs.Declared
import GasMachine.Proofs.Holdings

/-!
# The shape of compound items

An array, a struct or a map has no more elements than the machine allows, and the keys of a map are
short, of a kind that keys may have, and distinct. Nothing checks an item after it was made: the
number of its elements is declared before, from what the stacks show at that time. So what carries
the bound is that the declared number is the number of elements made (`hasSlots_of_found`), and that
whatever declares nothing makes no more elements than it got (`Behaviour.run_shapely`).
-/

set_option autoImplicit false

namespace GasMachine

/-! ## Keys -/

namespace Item

/-- What the key of a map has to be. -/
structure FitsKey (limit : Nat) (key : Item) : Prop where
  kind : key.kind ∈ [ItemKind.boolean, ItemKind.integer, ItemKind.byteString]
  length : ∃ bytes, key.toBytes = .ok bytes ∧ bytes.length ≤ limit

theorem checkKey_ensures (limit : Nat) (key : Item) :
    Ensures (fun _ => key.FitsKey limit) (key.checkKey limit) := by
  unfold checkKey
  split
  · exact Ensures.error _
  · rename_i primitive
    split
    · rename_i size counted
      split
      · exact Ensures.error _
      · rename_i short
        obtain ⟨bytes, bytesOf, length⟩ := byteLength?_eq_some_iff.1 counted
        refine Ensures.ok ⟨?_, bytes, bytesOf, by omega⟩
        cases key <;> simp_all [kind, ItemKind.isPrimitive]
    · rename_i uncounted
      -- Whatever may be a key has bytes.
      cases key <;> simp_all [kind, ItemKind.isPrimitive, byteLength?]

end Item

namespace ItemMap

variable {limit : Nat} {key value : Item} {entries : ItemMap}

theorem contains_iff_mem_keys : contains key entries = true ↔ key ∈ keys entries := by
  induction entries with
  | nil => simp [contains, get?, keys]
  | cons entry rest ih =>
    unfold contains keys at ih ⊢
    rw [get?, List.map_cons, List.mem_cons]
    split
    · rename_i same
      exact iff_of_true rfl (Or.inl (eq_of_beq same).symm)
    · rename_i other
      have apart : key ≠ entry.1 := fun same => other (beq_iff_eq.2 same.symm)
      rw [ih, or_iff_right apart]

/-- A new key goes to the end; a key that is there stays where it is. -/
theorem keys_insert (key value : Item) (entries : ItemMap) :
    keys (insert key value entries) =
      if contains key entries then keys entries else keys entries ++ [key] := by
  induction entries with
  | nil => rfl
  | cons entry rest ih =>
    unfold contains keys at ih ⊢
    rw [insert, get?]
    split
    · rfl
    · rw [List.map_cons, ih]
      split <;> rfl

theorem length_insert (key value : Item) (entries : ItemMap) :
    (insert key value entries).length =
      if contains key entries then entries.length else entries.length + 1 := by
  have lengths := congrArg List.length (keys_insert key value entries)
  rw [apply_ite List.length] at lengths
  simpa only [keys, List.length_map, List.length_append, List.length_singleton] using lengths

theorem erase_sublist (key : Item) (entries : ItemMap) :
    (erase key entries).Sublist entries := by
  induction entries with
  | nil => exact List.Sublist.refl _
  | cons entry rest ih =>
    rw [erase]
    split
    · exact List.sublist_cons_self _ _
    · exact ih.cons_cons _

/-- Distinct keys each of which may be one. -/
structure Keyed (limit : Nat) (entries : ItemMap) : Prop where
  distinct : (keys entries).Nodup
  fits : ∀ key ∈ keys entries, key.FitsKey limit

theorem keyed_nil : Keyed limit [] := ⟨List.nodup_nil, List.forall_mem_nil _⟩

theorem Keyed.sublist (keyed : Keyed limit entries) {fewer : ItemMap}
    (sublist : fewer.Sublist entries) : Keyed limit fewer := by
  have names : (keys fewer).Sublist (keys entries) := sublist.map Prod.fst
  exact ⟨keyed.distinct.sublist names, fun key member => keyed.fits key (names.subset member)⟩

theorem Keyed.insert (keyed : Keyed limit entries) (fits : key.FitsKey limit) (value : Item) :
    Keyed limit (insert key value entries) := by
  by_cases there : contains key entries = true
  · have same : keys (ItemMap.insert key value entries) = keys entries := by
      rw [keys_insert, if_pos there]
    exact ⟨same ▸ keyed.distinct, same ▸ keyed.fits⟩
  · have longer : keys (ItemMap.insert key value entries) = keys entries ++ [key] := by
      rw [keys_insert, if_neg there]
    have fresh : key ∉ keys entries := fun member => there (contains_iff_mem_keys.2 member)
    constructor
    case distinct =>
      rw [longer]
      exact List.nodup_append.2 ⟨keyed.distinct, List.nodup_singleton key,
        fun old member new isKey same => fresh (List.mem_singleton.1 isKey ▸ same ▸ member)⟩
    case fits =>
      rw [longer]
      exact List.forall_mem_append.2 ⟨keyed.fits, List.forall_mem_singleton.2 fits⟩

end ItemMap

/-! ## Shapely items

The property is about an item and not about what is inside it; everywhere is added later, in the
same way as for any other property. An item without elements has it for nothing. -/

namespace Item

/-- What the limits say of an item itself, whatever is inside it. -/
structure Shapely (limits : Limits) (item : Item) : Prop where
  elements : ∀ count, item.elementCount? = some count → count ≤ limits.arraySize
  keys : ∀ entries, item = .map entries → ItemMap.Keyed limits.mapKeySize entries

variable {limits : Limits} {item key value : Item} {items : List Item} {entries : ItemMap}

theorem shapely_of_flat (flat : item.elementCount? = none) : item.Shapely limits := by
  constructor
  case elements =>
    intro count counted
    cases flat.symm.trans counted
  case keys =>
    rintro entries rfl
    cases flat

theorem shapely_array (few : items.length ≤ limits.arraySize) :
    (Item.array items).Shapely limits := by
  constructor
  case elements =>
    intro count counted
    cases counted
    exact few
  case keys =>
    intro entries same
    cases same

theorem shapely_struct (few : items.length ≤ limits.arraySize) :
    (Item.struct items).Shapely limits := by
  constructor
  case elements =>
    intro count counted
    cases counted
    exact few
  case keys =>
    intro entries same
    cases same

theorem shapely_map (few : entries.length ≤ limits.arraySize)
    (keyed : ItemMap.Keyed limits.mapKeySize entries) : (Item.map entries).Shapely limits := by
  constructor
  case elements =>
    intro count counted
    cases counted
    exact few
  case keys =>
    intro others same
    cases same
    exact keyed

/-! ### Operations -/

/-- Setting an element adds none, unless it is the value of a key that was not there. -/
theorem setItem_shapely (held : item.Shapely limits)
    (slot : ∀ entries, item = .map entries → ItemMap.contains key entries = false →
      entries.length < limits.arraySize) :
    Ensures (Shapely limits) (setItem limits key value item) := by
  have replaced (items : List Item) (index : Nat) :
      Ensures (fun result => result.length = items.length) (replace items index value) :=
    Ensures.bind_any fun _ => Ensures.pure (List.length_set ..)
  unfold setItem
  cases item with
  | array items =>
    refine Ensures.bind_any fun index => (replaced items index).bind fun result same => ?_
    exact Ensures.pure (shapely_array (same ▸ held.elements _ rfl))
  | struct items =>
    refine Ensures.bind_any fun index => (replaced items index).bind fun result same => ?_
    exact Ensures.pure (shapely_struct (same ▸ held.elements _ rfl))
  | map entries =>
    refine (checkKey_ensures limits.mapKeySize key).bind fun _ fits => ?_
    refine Ensures.pure (shapely_map ?_ ((held.keys entries rfl).insert fits value))
    rw [ItemMap.length_insert]
    split
    · exact held.elements _ rfl
    · rename_i absent
      exact slot entries rfl (Bool.eq_false_iff.2 absent)
  | buffer bytes =>
    refine Ensures.bind_any fun _ => Ensures.bind_any fun _ => Ensures.bind_any fun _ => ?_
    exact Ensures.pure (shapely_of_flat rfl)
  | _ => exact Ensures.error _

theorem append_shapely (element : Item)
    (slot : ∀ count, item.elementCount? = some count → count < limits.arraySize) :
    Ensures (Shapely limits) (append element item) := by
  have longer (items : List Item) (few : items.length < limits.arraySize) :
      (items ++ [element]).length ≤ limits.arraySize := by
    rw [List.length_append]
    exact few
  unfold append
  cases item with
  | array items => exact Ensures.ok (shapely_array (longer items (slot _ rfl)))
  | struct items => exact Ensures.ok (shapely_struct (longer items (slot _ rfl)))
  | _ => exact Ensures.error _

theorem removeItem_shapely (key : Item) (held : item.Shapely limits) :
    Ensures (Shapely limits) (removeItem limits key item) := by
  have shorter (items : List Item) (index : Nat) :
      Ensures (fun result => result.length ≤ items.length) (takeOut items index) :=
    Ensures.bind_any fun _ => Ensures.pure (List.length_eraseIdx_le ..)
  unfold removeItem
  cases item with
  | array items =>
    refine Ensures.bind_any fun index => (shorter items index).bind fun result fewer => ?_
    exact Ensures.pure (shapely_array (fewer.trans (held.elements _ rfl)))
  | struct items =>
    refine Ensures.bind_any fun index => (shorter items index).bind fun result fewer => ?_
    exact Ensures.pure (shapely_struct (fewer.trans (held.elements _ rfl)))
  | map entries =>
    have fewer := ItemMap.erase_sublist key entries
    refine Ensures.bind_any fun _ => Ensures.pure (shapely_map ?_ ?_)
    · exact fewer.length_le.trans (held.elements _ rfl)
    · exact (held.keys entries rfl).sublist fewer
  | _ => exact Ensures.error _

theorem reverseItems_shapely (held : item.Shapely limits) :
    Ensures (Shapely limits) item.reverseItems := by
  unfold reverseItems
  cases item with
  | array items =>
    exact Ensures.ok (shapely_array (items.length_reverse ▸ held.elements _ rfl))
  | struct items =>
    exact Ensures.ok (shapely_struct (items.length_reverse ▸ held.elements _ rfl))
  | buffer bytes => exact Ensures.ok (shapely_of_flat rfl)
  | _ => exact Ensures.error _

theorem clearItems_shapely (item : Item) : Ensures (Shapely limits) item.clearItems := by
  unfold clearItems
  cases item with
  | array _ => exact Ensures.ok (shapely_array (Nat.zero_le _))
  | struct _ => exact Ensures.ok (shapely_struct (Nat.zero_le _))
  | map _ => exact Ensures.ok (shapely_map (Nat.zero_le _) ItemMap.keyed_nil)
  | _ => exact Ensures.error _

theorem keys_shapely (held : item.Shapely limits) : Ensures (Shapely limits) item.keys := by
  unfold keys
  cases item with
  | map entries =>
    refine Ensures.ok (shapely_array ?_)
    rw [ItemMap.keys, List.length_map]
    exact held.elements _ rfl
  | _ => exact Ensures.error _

theorem values_shapely (held : item.Shapely limits) : Ensures (Shapely limits) item.values := by
  unfold values
  cases item with
  | array items => exact Ensures.ok (shapely_array (held.elements _ rfl))
  | struct items => exact Ensures.ok (shapely_array (held.elements _ rfl))
  | map entries =>
    refine Ensures.ok (shapely_array ?_)
    rw [ItemMap.values, List.length_map]
    exact held.elements _ rfl
  | _ => exact Ensures.error _

theorem convert_shapely (limit : Nat) (target : ItemKind) (held : item.Shapely limits) :
    Ensures (Shapely limits) (item.convert limit target) := by
  unfold convert
  split
  · exact Ensures.ok held
  · split
    all_goals first
      | exact Ensures.ok (shapely_of_flat rfl)
      | exact Ensures.map_any fun _ => shapely_of_flat rfl
      | exact Ensures.ok (shapely_struct (held.elements _ rfl))
      | exact Ensures.ok (shapely_array (held.elements _ rfl))
      | exact Ensures.error _

end Item

/-! ## Slots for elements

The number that an instruction declares comes from the count or the item on the stack before it
acts, and the behaviour reads the same item. So the slots that were checked are the slots that are
used; this is where the refinement has to fit the behaviour. -/

namespace Behaviour

/-- The limits leave room for the elements that a behaviour adds to what it gets. -/
def HasSlots (behaviour : Behaviour) (limits : Limits) (arguments : List Item) : Prop :=
  match behaviour with
  | .pack => ∀ count items size, arguments = count :: items →
      count.toCount limits.integerSize = .ok size → items.length ≤ limits.arraySize
  | .newSized => ∀ item size, arguments = [item] →
      item.toCount limits.integerSize = .ok size → size ≤ limits.arraySize
  | .append => ∀ element item count, arguments = [element, item] →
      item.elementCount? = some count → count < limits.arraySize
  | .setItem => ∀ value key entries, arguments = [value, key, .map entries] →
      ItemMap.contains key entries = false → entries.length < limits.arraySize
  | _ => True

end Behaviour

namespace Machine

variable {machine : Machine} {invocation : Invocation} {frame : Frame} {instruction : Instruction}

/-- What an admitted instruction declares is what it needs slots for. -/
theorem hasSlots_of_found (standard : machine.table = {})
    (found : machine.instructionAt? invocation frame = some instruction)
    (admitted : machine.config.limits.Admits frame instruction) :
    instruction.behaviour.HasSlots machine.config.limits (frame.argumentsOf instruction).stack := by
  have few := admitted.arraySize
  have own (refinement : Refinement) := resolved_of_found standard found refinement
  cases behaviour : instruction.behaviour
  case pack =>
    rw [behaviour] at own
    obtain ⟨base, _, _, resolved⟩ := own .pack rfl
    intro count items size arguments counted
    dsimp only [Refinement.resolve] at resolved
    rw [host, Frame.peekCount?_of_take arguments counted] at resolved
    have demand := Except.ok.inj resolved
    have taken : (frame.argumentsOf instruction).stack.length ≤ instruction.demand.stackIn :=
      List.length_take_le ..
    rw [arguments, List.length_cons, ← demand] at taken
    rw [← demand] at few
    have most : saturate (size + 1) ≤ size + 1 := Nat.min_le_left _ _
    dsimp only at taken few
    omega
  case newSized =>
    rw [behaviour] at own
    obtain ⟨base, _, _, resolved⟩ := own .newSized rfl
    intro item size arguments counted
    dsimp only [Refinement.resolve] at resolved
    rw [host, Frame.peekCount?_of_take arguments counted] at resolved
    rw [← Except.ok.inj resolved] at few
    exact few
  case append =>
    rw [behaviour] at own
    obtain ⟨base, _, _, resolved⟩ := own .append rfl
    intro element item count arguments counted
    have seen : frame.peek? 1 = some item := Frame.peek?_of_take arguments rfl
    dsimp only [Refinement.resolve] at resolved
    rw [seen, Option.bind_some, counted] at resolved
    rw [← Except.ok.inj resolved] at few
    exact few
  case setItem =>
    rw [behaviour] at own
    obtain ⟨base, _, _, resolved⟩ := own .setItem rfl
    intro value key entries arguments absent
    have seen : frame.peek? 2 = some (.map entries) :=
      Frame.peek?_of_take arguments rfl
    have named : frame.peek? 1 = some key := Frame.peek?_of_take arguments rfl
    dsimp only [Refinement.resolve] at resolved
    rw [seen, named] at resolved
    dsimp only at resolved
    rw [absent] at resolved
    rw [← Except.ok.inj resolved] at few
    exact few
  all_goals trivial

end Machine

/-! ## Results -/

namespace Service

/-- No service makes a compound item. -/
theorem run_flat (service : Service) (host : Host) (frame : Frame) (world : World)
    (arguments : List Item) :
    Ensures (Results.Each fun item => item.elementCount? = none)
      (service.run host frame world arguments) := by
  have flat {item : Item} {after : World} (flat : item.elementCount? = none) :
      (Results.one item after).Each fun item => item.elementCount? = none :=
    Results.each_one flat
  cases service
  case getCallingScriptHash =>
    unfold run
    cases frame.calling <;> exact Ensures.ok (flat rfl)
  case storageGet =>
    refine Ensures.bind_any fun _ => Ensures.bind_any fun _ => Ensures.bind_any fun _ => ?_
    refine Ensures.bind_any fun value => ?_
    cases value <;> exact Ensures.pure (flat rfl)
  all_goals
    dsimp only [run]
    repeat' with_reducible first
      | refine Ensures.bind_any fun _ => ?_
      | exact Ensures.error _
      | exact Ensures.throw _
      | refine Ensures.ok ?_
      | refine Ensures.pure ?_
      | split
  all_goals first
    | exact flat rfl
    | exact Results.each_of_nil rfl rfl
    | exact ⟨List.forall_mem_singleton.2 rfl, List.forall_mem_nil _⟩

end Service

namespace Behaviour

variable (behaviour : Behaviour) (host : Host) (instruction : Instruction) (frame : Frame)
  (world : World) (arguments : Arguments)

theorem sizedCompound_shapely {limits : Limits} {size : Nat} (few : size ≤ limits.arraySize) :
    Ensures (Item.Shapely limits) (sizedCompound instruction size) := by
  have filled (element : Item) :
      Ensures (fun items => items.length ≤ limits.arraySize) (replicated size element) :=
    Ensures.bind_any fun _ => Ensures.pure (List.length_replicate.trans_le few)
  unfold sizedCompound
  split
  · exact (filled .null).bind fun items few => Ensures.pure (Item.shapely_struct few)
  · refine Ensures.bind_any fun _ => ?_
    split
    · exact (filled _).bind fun items few => Ensures.pure (Item.shapely_array few)
    · exact Ensures.throw _
  · exact (filled .null).bind fun items few => Ensures.pure (Item.shapely_array few)

/-- What a behaviour makes of shapely items is shapely, if there are slots for it. -/
theorem run_shapely (ordinary : ∀ stack alt, behaviour ≠ .constant stack alt)
    (slots : behaviour.HasSlots host.limits arguments.stack)
    (stack : ∀ item ∈ arguments.stack, item.Everywhere (Item.Shapely host.limits))
    (alt : ∀ item ∈ arguments.alt, item.Everywhere (Item.Shapely host.limits)) :
    Ensures (Results.Each (Item.Shapely host.limits))
      (behaviour.run host instruction frame world arguments) := by
  have own : ∀ item ∈ arguments.stack, item.Shapely host.limits :=
    fun item member => (stack item member).own
  by_cases moves : behaviour.moves = true
  · exact run_moves _ _ _ _ _ _ moves (Item.shapely_of_flat rfl) own
      fun item member => (alt item member).own
  by_cases computes : behaviour.computes = true
  · exact (run_computes _ _ _ _ _ _ computes).mono fun _ each =>
      each.mono fun _ plain => Item.shapely_of_flat (Item.elementCount?_of_isPlain plain)
  have one {item : Item} (shapely : item.Shapely host.limits) :
      Ensures (Results.Each (Item.Shapely host.limits))
        (.ok (.one item world) : Except Fault Results) :=
    Ensures.ok (Results.each_one shapely)
  have orFault {result : Except Fault Item} (shapely : Ensures (Item.Shapely host.limits) result) :
      Ensures (Results.Each (Item.Shapely host.limits)) (result.map (.one · world)) :=
    Ensures.map (shapely.mono fun _ => Results.each_one)
  have first := Arguments.one_all own
  have both := Arguments.two_all own
  cases behaviour
  case constant stack alt => exact absurd rfl (ordinary stack alt)
  case pushPointer =>
    unfold run pointer
    dsimp only
    split
    · exact one (Item.shapely_of_flat rfl)
    · exact Ensures.error _
  case systemCall =>
    refine Ensures.bind_any fun service => ?_
    dsimp only
    split
    · exact (service.run_flat host frame world arguments.stack).mono fun _ each =>
        each.mono fun _ => Item.shapely_of_flat
    · exact Ensures.throw _
  case pack =>
    have below : Ensures (fun items => items.length ≤ host.limits.arraySize)
        (belowCount host.limits.integerSize arguments.stack) := by
      refine Arguments.counted_ensures.bind fun (count, items) arguments => ?_
      exact (Ensures.self _).bind fun size counted =>
        Ensures.pure (slots count items size arguments counted)
    exact below.bind fun _ few => one (Item.shapely_array few)
  case unpack =>
    refine (Arguments.one_all stack).bind fun item held => (Item.unpack_ensures item).bind ?_
    rintro items ⟨count, _, rfl⟩
    refine Ensures.ok (Results.each_many (List.forall_mem_cons.2 ⟨?_, ?_⟩))
    · exact Item.shapely_of_flat rfl
    · exact fun part member => (held.parts part member).own
  case newEmpty =>
    unfold run emptyCompound
    dsimp only
    split
    · exact one (Item.shapely_array (Nat.zero_le _))
    · exact one (Item.shapely_struct (Nat.zero_le _))
    · exact one (Item.shapely_map (Nat.zero_le _) ItemMap.keyed_nil)
  case newSized =>
    refine Arguments.one_ensures.bind fun item only => (Ensures.self _).bind fun size counted => ?_
    exact orFault (sizedCompound_shapely instruction (slots item size only counted))
  case keys => exact first.bind fun _ held => orFault (Item.keys_shapely held)
  case values => exact first.bind fun _ held => orFault (Item.values_shapely held)
  case pickItem =>
    refine (Arguments.two_all stack).bind fun (key, item) held => orFault ?_
    refine (Item.pickItem_ensures host.limits key item).mono fun picked source => ?_
    rcases source with part | ⟨byte, rfl⟩
    · exact (held.2.parts picked part).own
    · exact Item.shapely_of_flat rfl
  case append =>
    refine Arguments.two_ensures.bind fun (element, item) both => orFault ?_
    exact Item.append_shapely element fun count counted => slots element item count both counted
  case setItem =>
    refine Arguments.three_ensures.bind fun (value, key, item) three => orFault ?_
    have held : item.Shapely host.limits := own item (by rw [three]; simp)
    refine Item.setItem_shapely held fun entries same absent => ?_
    exact slots value key entries (three.trans (by rw [same])) absent
  case reverseItems => exact first.bind fun _ held => orFault (Item.reverseItems_shapely held)
  case removeItem => exact both.bind fun _ held => orFault (Item.removeItem_shapely _ held.2)
  case clearItems => exact first.bind fun _ _ => orFault (Item.clearItems_shapely _)
  case convert =>
    exact Ensures.bind_any fun _ => first.bind fun _ held =>
      orFault (Item.convert_shapely _ _ held)
  all_goals first
    | exact absurd rfl moves
    | exact absurd rfl computes

end Behaviour

/-! ## Chains

Nothing is asked of the stages, so the guard of the invariant is trivial: the check that every
instruction passes is enough. -/

namespace Machine

variable {machine : Machine} {invocation : Invocation}

theorem Acts.shapely (standard : machine.table = {}) {frame : Frame} {world : World}
    {instruction : Instruction} {results : Results}
    (acts : machine.Acts invocation frame world instruction results)
    (held : frame.Holds (Item.Shapely machine.config.limits)) :
    results.Everywhere (Item.Shapely machine.config.limits) := by
  have composed := acts.composed standard held (fun kind => Item.shapely_of_flat ?initial)
    (fun _ _ => Item.shapely_of_flat rfl) fun _ _ _ _ => Item.shapely_of_flat rfl
  case initial => cases kind <;> rfl
  refine composed.everywhere_of_each ?_
  refine Behaviour.run_shapely instruction.behaviour (machine.host invocation) instruction _ world _
    ?_ (hasSlots_of_found standard acts.found acts.admitted) ?_ ?_ results acts.ran
  · intro stack alt
    rw [behaviour_of_standard standard acts.found]
    exact Opcode.standardEntry_ne_constant _ _ _
  · exact fun item member => held.stack item (List.mem_of_mem_take member)
  · exact fun item member => held.alt item (List.mem_of_mem_take member)

theorem shapely_invariant (standard : machine.table = {}) (invocation : Invocation) :
    GuardedInvariant machine invocation (fun _ => True)
      (Execution.Holds (Item.Shapely machine.config.limits))
      (fun progress => progress.residue.Holds (Item.Shapely machine.config.limits)) :=
  Execution.holds_invariant standard (Item.shapely_of_flat rfl)
    fun _ _ held _ _ _ acts => acts.shapely standard held.frame

/-- Whatever is on the stacks of a frame at a stage of a chain, at any depth, is shapely: no
compound item has more elements than the limits allow, and the keys of every map are distinct and
such as keys may be. -/
theorem shapely_of_mem_stages (config : Config) (invocation : Invocation) (snapshot : Snapshot)
    (gas : Int) (scripts : List Script) (stage : Execution)
    (member : stage ∈ (standard config).stages invocation snapshot gas scripts) :
    stage.Holds (Item.Shapely config.limits) := by
  have invariant := shapely_invariant (rfl : (standard config).table = {}) invocation
  have start : ((standard config).opening snapshot gas).residue.Holds
      (Item.Shapely config.limits) :=
    ⟨List.forall_mem_nil _, List.forall_mem_nil _⟩
  exact (invariant.chain snapshot gas start scripts fun _ _ => trivial).1 stage member

/-- Compound items of three elements at most, and keys of one byte. -/
def narrow : Config := { limits := { arraySize := 3, mapKeySize := 1 } }

/-- A snapshot with a contract that puts two more keys into the map that it gets. -/
def keySetter : Snapshot :=
  let code := [Opcode.PUSHT.code, Opcode.PUSH3.code, Opcode.SETITEM.code,
    Opcode.PUSHF.code, Opcode.PUSH4.code, Opcode.SETITEM.code]
  { contents := { contracts := Std.ExtTreeMap.empty.insert Hash.zero code } }

/-- A script that keeps a map of one key, an array its value, and hands a copy to the contract. -/
def mapKeeper : Script :=
  { code := [Opcode.NEWMAP.code, Opcode.PUSH1.code, Opcode.PUSH1.code, Opcode.PUSH2.code,
      Opcode.PUSH2.code, Opcode.PACK.code, Opcode.SETITEM.code, Opcode.DUP.code,
      Opcode.TOALTSTACK.code, Opcode.PUSH1.code, Opcode.PACK.code]
      ++ (Opcode.PUSHDATA1.code :: 20 :: List.replicate 20 0)
      ++ Opcode.SYSCALL.code :: Bytes.ofNat 4 Service.contractCall.id }

/-- The stage at which the map in the contract has as many keys as it may have, while the script
that called keeps its own. -/
theorem shapely_in_contract :
    ∃ stage ∈ (standard narrow).stages {} keySetter 10_000_000 [mapKeeper],
      (stage.frame.stack.map Item.elementCount? = [some 3] ∧
        stage.callers.map (fun caller => caller.frame.alt.map Item.elementCount?) =
          [[some 1]]) ∧
        stage.Holds (Item.Shapely narrow.limits) := by
  have reached : ((standard narrow).stages {} keySetter 10_000_000 [mapKeeper]).any
      (fun stage => stage.frame.stack.map Item.elementCount? = [some 3] ∧
        stage.callers.map (fun caller => caller.frame.alt.map Item.elementCount?) =
          [[some 1]]) := by
    decide +kernel
  obtain ⟨stage, member, full⟩ := List.any_eq_true.1 reached
  exact ⟨stage, member, of_decide_eq_true full,
    shapely_of_mem_stages narrow {} keySetter 10_000_000 [mapKeeper] stage member⟩

end Machine

end GasMachine
