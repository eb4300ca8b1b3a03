import GasMachine.Proofs.Shape
import GasMachine.Proofs.StackSize

/-!
# What is nested inside results

Copies, new elements and unpacked items change how many items are nested inside others. For every
operation on items, and from them for every behaviour, the number of items nested inside the results
is compared with the number inside the arguments. The difference is no more than what is known
beforehand (`Behaviour.Foresees`), and where it is less, there are no more items than before
(`Results.Grows`).
-/

set_option autoImplicit false

namespace GasMachine

/-! ## Counting

Nested items are counted by recursion over the item and its lists. These lemmas turn the count into
sums over parts, so that orders and sublists can be used and the recursion need not be opened again.
-/

namespace Item

@[simp] theorem nodeCountAll_nil : nodeCountAll [] = 0 := rfl

@[simp] theorem nodeCountAll_cons (item : Item) (rest : List Item) :
    nodeCountAll (item :: rest) = nodeCount item + nodeCountAll rest :=
  rfl

theorem nodeCountAll_eq_sum (items : List Item) :
    nodeCountAll items = (items.map nodeCount).sum := by
  induction items with
  | nil => rfl
  | cons item rest ih => rw [nodeCountAll_cons, ih, List.map_cons, List.sum_cons]

theorem nestedCountAll_eq_sum (items : List Item) :
    nestedCountAll items = (items.map nestedCount).sum := by
  induction items with
  | nil => rfl
  | cons item rest ih => rw [nestedCountAll_cons, ih, List.map_cons, List.sum_cons]

theorem nodeCount_eq (item : Item) : nodeCount item = 1 + nestedCount item := by
  have pos := nodeCount_pos item
  rw [nestedCount]
  omega

variable {items others : List Item}

theorem nodeCountAll_le_of_sublist (sublist : items.Sublist others) :
    nodeCountAll items ≤ nodeCountAll others := by
  rw [nodeCountAll_eq_sum, nodeCountAll_eq_sum]
  exact (sublist.map nodeCount).sum_le_sum fun _ _ => Nat.zero_le _

theorem nestedCountAll_le_of_sublist (sublist : items.Sublist others) :
    nestedCountAll items ≤ nestedCountAll others := by
  rw [nestedCountAll_eq_sum, nestedCountAll_eq_sum]
  exact (sublist.map nestedCount).sum_le_sum fun _ _ => Nat.zero_le _

theorem nestedCountAll_eq_of_perm (perm : items.Perm others) :
    nestedCountAll items = nestedCountAll others := by
  rw [nestedCountAll_eq_sum, nestedCountAll_eq_sum]
  exact (perm.map nestedCount).sum_eq

theorem nestedCountAll_eq_zero (flat : ∀ item ∈ items, item.nestedCount = 0) :
    nestedCountAll items = 0 := by
  rw [nestedCountAll_eq_sum]
  exact List.sum_eq_zero (List.forall_mem_map.2 flat)

theorem nestedCount_le_all {item : Item} (member : item ∈ items) :
    item.nestedCount ≤ nestedCountAll items := by
  have alone : nestedCountAll [item] ≤ nestedCountAll items :=
    nestedCountAll_le_of_sublist (List.singleton_sublist.2 member)
  exact alone

/-- What is nested inside a map are its keys and its values, each with what is inside it. -/
theorem nodeCountEntries_eq (entries : ItemMap) :
    nodeCountEntries entries =
      nodeCountAll (ItemMap.keys entries) + nodeCountAll (ItemMap.values entries) := by
  induction entries with
  | nil => rfl
  | cons entry rest ih =>
    rw [nodeCountEntries, ih]
    simp only [ItemMap.keys, ItemMap.values, List.map_cons, nodeCountAll_cons]
    omega

theorem nestedCount_map (entries : ItemMap) :
    nestedCount (.map entries) = nodeCountEntries entries := by
  rw [nestedCount, nodeCount]
  omega

/-- What is nested inside an item are its parts, each with what is inside it. -/
theorem nestedCount_eq (item : Item) : item.nestedCount = nodeCountAll item.parts := by
  cases item
  case array items => rw [nestedCount_array, parts, nodeCountAll_eq]
  case struct items => rw [nestedCount_struct, parts, nodeCountAll_eq]
  case map entries =>
    rw [nestedCount_map, parts]
    induction entries with
    | nil => rfl
    | cons entry rest ih =>
      rw [nodeCountEntries, ih, List.flatMap_cons]
      simp only [List.cons_append, List.nil_append, nodeCountAll_cons]
      omega
  all_goals rfl

theorem nestedCount_of_isPlain {item : Item} (plain : item.isPlain = true) :
    item.nestedCount = 0 := by
  rw [nestedCount_eq, parts_of_isPlain plain, nodeCountAll_nil]

theorem nestedCount_of_elementCount? {item : Item} (flat : item.elementCount? = none) :
    item.nestedCount = 0 := by
  cases item <;> first | rfl | cases flat

/-! ## Operations on items

One bound for each operation, mostly an inequality: an operation may drop what was there, and then
there is less. Where an element is added its slot counts as one more, and for a new key as two. -/

variable {item : Item}

/-- What counts as a number has nothing inside it. -/
theorem toInteger_flat (limit : Nat) (item : Item) :
    Ensures (fun _ => item.nestedCount = 0) (item.toInteger limit) := by
  unfold toInteger
  cases item with
  | boolean _ | integer _ | byteString _ => exact fun _ _ => rfl
  | _ => exact Ensures.error _

theorem toCount_flat (limit : Nat) (item : Item) :
    Ensures (fun _ => item.nestedCount = 0) (item.toCount limit) :=
  (toInteger_flat limit item).bind fun _ flat => by
    split
    · exact Ensures.pure flat
    · exact Ensures.throw _

theorem keys_nested (item : Item) :
    Ensures (fun result => result.nestedCount ≤ item.nestedCount) item.keys := by
  unfold keys
  cases item with
  | map entries =>
    refine Ensures.ok ?_
    rw [nestedCount_eq, nestedCount_map, nodeCountEntries_eq]
    exact Nat.le_add_right _ _
  | _ => exact Ensures.error _

theorem values_nested (item : Item) :
    Ensures (fun result => result.nestedCount ≤ item.nestedCount) item.values := by
  unfold values
  cases item with
  | array items => exact Ensures.ok (Nat.le_refl _)
  | struct items =>
    refine Ensures.ok ?_
    rw [nestedCount_eq, nestedCount_eq]
    exact Nat.le_refl _
  | map entries =>
    refine Ensures.ok ?_
    rw [nestedCount_eq, nestedCount_map, nodeCountEntries_eq]
    exact Nat.le_add_left _ _
  | _ => exact Ensures.error _

theorem pickItem_nested (limits : Limits) (key item : Item) :
    Ensures (fun picked => picked.nestedCount ≤ item.nestedCount) (pickItem limits key item) := by
  refine (pickItem_ensures limits key item).mono fun picked source => ?_
  rcases source with part | ⟨byte, rfl⟩
  · have inside := nestedCount_le_all part
    rw [item.nestedCount_eq, nodeCountAll_eq]
    omega
  · exact Nat.zero_le _

theorem unpack_nested (item : Item) :
    Ensures (fun items => items.length = item.parts.length + 1 ∧
      nestedCountAll items + item.parts.length = item.nestedCount) item.unpack := by
  refine (unpack_ensures item).mono ?_
  rintro items ⟨count, _, rfl⟩
  have flat : (Item.integer count).nestedCount = 0 := rfl
  rw [nestedCountAll_cons, flat, nestedCount_eq, nodeCountAll_eq]
  exact ⟨rfl, by omega⟩

theorem append_nested (element item : Item) :
    Ensures (fun result => result.nestedCount = item.nestedCount + (1 + element.nestedCount))
      (append element item) := by
  have longer (items : List Item) : (items ++ [element]).length
      + nestedCountAll (items ++ [element]) =
        items.length + nestedCountAll items + (1 + element.nestedCount) := by
    rw [nestedCountAll_append, List.length_append]
    simp only [List.length_singleton, nestedCountAll_cons, nestedCountAll_nil]
    omega
  unfold append
  cases item with
  | array items =>
    rw [nestedCount_array]
    exact Ensures.ok ((nestedCount_array _).trans (longer items))
  | struct items =>
    rw [nestedCount_struct]
    exact Ensures.ok ((nestedCount_struct _).trans (longer items))
  | _ => exact Ensures.error _

/-- How many more items a map holds once the key is in it. -/
def newSlots (key : Item) : Item → Nat
  | .map entries => if ItemMap.contains key entries then 0 else 2
  | _ => 0

theorem newSlots_le (key item : Item) : newSlots key item ≤ 2 := by
  unfold newSlots
  split
  · split <;> omega
  · omega

/-- The new element is there in place of another one. -/
theorem nodeCountAll_set (items : List Item) (index : Nat) (value : Item) :
    nodeCountAll (items.set index value) ≤ nodeCountAll items + value.nestedCount := by
  induction items generalizing index with
  | nil => exact Nat.zero_le _
  | cons item rest ih =>
    have own := item.nodeCount_eq
    have new := value.nodeCount_eq
    cases index with
    | zero =>
      rw [List.set_cons_zero, nodeCountAll_cons, nodeCountAll_cons]
      omega
    | succ index =>
      have later := ih index
      rw [List.set_cons_succ, nodeCountAll_cons, nodeCountAll_cons]
      omega

theorem nodeCountEntries_insert (key value : Item) (entries : ItemMap) :
    nodeCountEntries (ItemMap.insert key value entries) ≤
      nodeCountEntries entries + key.nestedCount + value.nestedCount
        + newSlots key (.map entries) := by
  have name := key.nodeCount_eq
  have new := value.nodeCount_eq
  induction entries with
  | nil =>
    show nodeCount key + nodeCount value + 0 ≤ 0 + key.nestedCount + value.nestedCount + 2
    omega
  | cons entry rest ih =>
    have old := entry.2.nodeCount_eq
    dsimp only [newSlots] at ih ⊢
    unfold ItemMap.contains at ih ⊢
    rw [ItemMap.insert, ItemMap.get?]
    split
    · rw [nodeCountEntries, nodeCountEntries]
      omega
    · rw [nodeCountEntries, nodeCountEntries]
      omega

theorem setItem_nested (limits : Limits) (key value item : Item) :
    Ensures (fun result => result.nestedCount ≤
        item.nestedCount + key.nestedCount + value.nestedCount + newSlots key item)
      (setItem limits key value item) := by
  have replaced (items : List Item) (index : Nat) :
      Ensures (fun result => nodeCountAll result ≤ nodeCountAll items + value.nestedCount)
        (replace items index value) :=
    Ensures.bind_any fun _ => Ensures.pure (nodeCountAll_set items index value)
  unfold setItem
  cases item with
  | array items =>
    refine Ensures.bind_any fun index => (replaced items index).bind fun result few => ?_
    refine Ensures.pure ?_
    rw [nestedCount_eq, nestedCount_eq, parts, parts]
    omega
  | struct items =>
    refine Ensures.bind_any fun index => (replaced items index).bind fun result few => ?_
    refine Ensures.pure ?_
    rw [nestedCount_eq, nestedCount_eq, parts, parts]
    omega
  | map entries =>
    refine Ensures.bind_any fun _ => Ensures.pure ?_
    rw [nestedCount_map, nestedCount_map]
    exact nodeCountEntries_insert key value entries
  | buffer bytes =>
    refine Ensures.bind_any fun _ => Ensures.bind_any fun _ => Ensures.bind_any fun _ => ?_
    exact Ensures.pure (Nat.zero_le _)
  | _ => exact Ensures.error _

theorem removeItem_nested (limits : Limits) (key item : Item) :
    Ensures (fun result => result.nestedCount ≤ item.nestedCount)
      (removeItem limits key item) := by
  have shorter (items : List Item) (index : Nat) :
      Ensures (fun result => nodeCountAll result ≤ nodeCountAll items) (takeOut items index) :=
    Ensures.bind_any fun _ =>
      Ensures.pure (nodeCountAll_le_of_sublist (List.eraseIdx_sublist items index))
  unfold removeItem
  cases item with
  | array items =>
    refine Ensures.bind_any fun index => (shorter items index).bind fun result few => ?_
    refine Ensures.pure ?_
    rw [nestedCount_eq, nestedCount_eq]
    exact few
  | struct items =>
    refine Ensures.bind_any fun index => (shorter items index).bind fun result few => ?_
    refine Ensures.pure ?_
    rw [nestedCount_eq, nestedCount_eq]
    exact few
  | map entries =>
    have fewer := ItemMap.erase_sublist key entries
    refine Ensures.bind_any fun _ => Ensures.pure ?_
    rw [nestedCount_map, nestedCount_map, nodeCountEntries_eq, nodeCountEntries_eq]
    exact Nat.add_le_add (nodeCountAll_le_of_sublist (fewer.map Prod.fst))
      (nodeCountAll_le_of_sublist (fewer.map Prod.snd))
  | _ => exact Ensures.error _

theorem reverseItems_nested (item : Item) :
    Ensures (fun result => result.nestedCount ≤ item.nestedCount) item.reverseItems := by
  have reversed (items : List Item) : nestedCountAll items.reverse = nestedCountAll items :=
    nestedCountAll_eq_of_perm (List.reverse_perm items)
  unfold reverseItems
  cases item with
  | array items =>
    refine Ensures.ok (Nat.le_of_eq ?_)
    rw [nestedCount_array, nestedCount_array, reversed, List.length_reverse]
  | struct items =>
    refine Ensures.ok (Nat.le_of_eq ?_)
    rw [nestedCount_struct, nestedCount_struct, reversed, List.length_reverse]
  | buffer _ => exact Ensures.ok (Nat.zero_le _)
  | _ => exact Ensures.error _

theorem clearItems_nested (item : Item) :
    Ensures (fun result => result.nestedCount ≤ item.nestedCount) item.clearItems := by
  unfold clearItems
  cases item with
  | array _ | struct _ | map _ => exact Ensures.ok (Nat.zero_le _)
  | _ => exact Ensures.error _

theorem convert_nested (limit : Nat) (target : ItemKind) (item : Item) :
    Ensures (fun result => result.nestedCount ≤ item.nestedCount) (item.convert limit target) := by
  unfold convert
  split
  · exact Ensures.ok (Nat.le_refl _)
  · split
    all_goals first
      | exact Ensures.ok (Nat.zero_le _)
      | exact Ensures.map_any fun _ => Nat.zero_le _
      -- Arrays and structs keep their elements.
      | exact Ensures.ok (Nat.le_of_eq (by rw [nestedCount_eq, nestedCount_eq]; rfl))
      | exact Ensures.error _

end Item

/-! ## Results

`Grows` has a second part beside the bound. Where results need less than was foreseen, there are no
more items than before altogether; without this the size worked out beforehand would say nothing
about the size afterwards, which is what the check rests on. -/

/-- The items of arguments. -/
def Arguments.count (arguments : Arguments) : Nat :=
  arguments.stack.length + arguments.alt.length

/-- The items nested inside arguments. -/
def Arguments.nested (arguments : Arguments) : Nat :=
  Item.nestedCountAll arguments.stack + Item.nestedCountAll arguments.alt

namespace Results

def count (results : Results) : Nat := results.stack.length + results.alt.length

def nested (results : Results) : Nat :=
  Item.nestedCountAll results.stack + Item.nestedCountAll results.alt

/-- Results have no more nested inside them than the arguments had and a growth allows for. If they
have less, then with the growth they are no more items than the arguments. -/
structure Grows (arguments : Arguments) (growth : Int) (results : Results) : Prop where
  nested : (results.nested : Int) ≤ arguments.nested + growth
  tight : (results.nested : Int) = arguments.nested + growth ∨
    results.count + growth ≤ arguments.count

variable {arguments : Arguments} {results : Results}

theorem nested_of_flat (flat : results.Each fun item => item.nestedCount = 0) :
    results.nested = 0 := by
  rw [nested, Item.nestedCountAll_eq_zero flat.stack, Item.nestedCountAll_eq_zero flat.alt]

/-- Where something is nested, there is something that it is nested in. -/
theorem count_pos_of_nested (some_ : 0 < results.nested) : 0 < results.count := by
  by_contra none
  unfold count at none
  have stack := List.eq_nil_of_length_eq_zero (show results.stack.length = 0 by omega)
  have alt := List.eq_nil_of_length_eq_zero (show results.alt.length = 0 by omega)
  rw [nested, stack, alt] at some_
  exact absurd some_ (Nat.lt_irrefl 0)

/-- A single flat result takes the place of an argument, or there were none. -/
theorem grows_of_flat (flat : results.Each fun item => item.nestedCount = 0)
    (few : results.count ≤ 1) : results.Grows arguments 0 := by
  have nothing := nested_of_flat flat
  constructor
  case nested => omega
  case tight =>
    by_cases none : arguments.count = 0
    · unfold Arguments.count at none
      have stack := List.eq_nil_of_length_eq_zero (Nat.eq_zero_of_add_eq_zero_right none)
      have alt := List.eq_nil_of_length_eq_zero (Nat.eq_zero_of_add_eq_zero_left none)
      have empty : arguments.nested = 0 := by
        rw [Arguments.nested, stack, alt]
        rfl
      exact .inl (by omega)
    · exact .inr (by omega)

theorem grows_of_fewer (nested : results.nested ≤ arguments.nested)
    (fewer : results.count ≤ arguments.count) : results.Grows arguments 0 :=
  ⟨by omega, .inr (by omega)⟩

variable {stack items : List Item} {growth : Int} {world : World}

/-- Results on the stack alone, of arguments from the stack alone. -/
theorem grows_many
    (nested : (Item.nestedCountAll items : Int) ≤ Item.nestedCountAll stack + growth)
    (room : items.length + growth ≤ stack.length) :
    (Results.many items world).Grows ⟨stack, []⟩ growth :=
  ⟨nested, .inr room⟩

/-- Results that need all of the growth. -/
theorem grows_exactly
    (same : (Item.nestedCountAll items : Int) = Item.nestedCountAll stack + growth) :
    (Results.many items world).Grows ⟨stack, []⟩ growth :=
  ⟨Int.le_of_eq same, .inl same⟩

theorem grows_one {item : Item}
    (nested : (item.nestedCount : Int) ≤ Item.nestedCountAll stack + growth)
    (room : 1 + growth ≤ stack.length) : (Results.one item world).Grows ⟨stack, []⟩ growth :=
  @grows_many stack [item] growth world nested room

/-- A result that is made of one of the arguments. -/
theorem grows_of_mem {item made : Item} (member : item ∈ stack)
    (nested : made.nestedCount ≤ item.nestedCount) :
    (Results.one made world).Grows ⟨stack, []⟩ 0 := by
  have inside := Item.nestedCount_le_all member
  have some_ := List.length_pos_of_mem member
  exact grows_one (by omega) (by omega)

end Results

/-! ## Services -/

/-- A service gives a flat item or none. The call of a contract gives none, and keeps the room of
one of its two arguments for the result of the contract. -/
theorem Service.run_grows (service : Service) (host : Host) (frame : Frame) (world : World)
    {arguments : Arguments} (given : arguments.stack.length = service.arity) :
    Ensures (fun results => results.stack.length = service.results → results.alt.length = 0 →
        results.Grows arguments service.growth)
      (service.run host frame world arguments.stack) := by
  refine (service.run_flat host frame world arguments.stack).mono
    fun results each stackOut altOut => ?_
  have flat := each.mono fun _ => Item.nestedCount_of_elementCount?
  have few : results.count = service.results := by rw [Results.count, stackOut, altOut]; rfl
  by_cases calls : service = .contractCall
  · subst calls
    have nothing := Results.nested_of_flat flat
    have two : 2 ≤ arguments.count := Nat.le_add_right_of_le (Nat.le_of_eq given.symm)
    have growth : contractCall.growth = 1 := rfl
    have none : results.count = 0 := few
    constructor
    case nested => omega
    case tight => exact .inr (by omega)
  · have growth : service.growth = 0 := by cases service <;> first | rfl | exact absurd rfl calls
    have one : service.results ≤ 1 := by cases service <;> decide
    rw [growth]
    exact Results.grows_of_flat flat (few.trans_le one)

/-! ## Behaviours

What is foreseen is written down for each behaviour, in terms of its arguments. The behaviours that
move items are treated by what they copy, those that compute give flat items, and those that are
left are treated one by one. -/

theorem slots_of_le {count : Nat} (few : count ≤ TwosComplement.signedMax) :
    slots count = count := by
  unfold slots
  omega

namespace Behaviour

/-- How many items a behaviour takes from the alt stack. -/
def takesAlt : Behaviour → Nat
  | .copyFromAlt | .fromAlt => 1
  | _ => 0

/-- A behaviour gets from the alt stack what it takes, and nothing else where that is copied. -/
structure Fed (behaviour : Behaviour) (arguments : Arguments) : Prop where
  alt : arguments.alt.length = behaviour.takesAlt
  stack : behaviour = .copyFromAlt → arguments.stack = []

/-- A growth is what the results of a behaviour need at most: what is nested inside a copy, the
elements of a new item, or less where elements come out of an item. -/
def Foresees (behaviour : Behaviour) (limit : Nat) (arguments : Arguments) (growth : Int) : Prop :=
  match behaviour with
  | .copyTop => ∀ top, arguments.stack = [top] → growth = top.nestedCount
  | .tuck => ∀ top below, arguments.stack = [top, below] → growth = top.nestedCount
  | .copySecond => ∀ top below, arguments.stack = [top, below] → growth = below.nestedCount
  | .copyAt => ∀ count items size, arguments.stack = count :: items →
      count.toCount limit = .ok size → growth = (items.getLast?.getD .null).nestedCount
  | .copyFromAlt => ∀ item, arguments.alt = [item] → growth = item.nestedCount
  | .pack => ∀ count items size, arguments.stack = count :: items →
      count.toCount limit = .ok size → growth = items.length
  | .unpack => ∀ item out, arguments.stack = [item] → item.unpack = .ok out →
      growth = -item.parts.length
  | .newSized => ∀ item size, arguments.stack = [item] → item.toCount limit = .ok size →
      growth = slots size
  | .append => growth = 1
  | .setItem => ∀ value key item, arguments.stack = [value, key, item] →
      growth = Item.newSlots key item
  | _ => growth = 0

theorem belowCount_of_toCount {limit size : Nat} {count : Item} {items : List Item}
    (counted : count.toCount limit = .ok size) : belowCount limit (count :: items) = .ok items := by
  unfold belowCount Arguments.counted
  dsimp only [bind, Except.bind]
  rw [counted]
  rfl

theorem belowCount_ensures (limit : Nat) (arguments : List Item) :
    Ensures (fun items => ∃ count size, arguments = count :: items ∧
      count.toCount limit = .ok size) (belowCount limit arguments) := by
  refine Arguments.counted_ensures.bind fun pair same => ?_
  refine (Ensures.self _).bind fun size counted => Ensures.pure ?_
  exact ⟨pair.1, size, same, counted⟩

theorem reserve_ensures (bytes : Nat) :
    Ensures (fun _ => bytes ≤ TwosComplement.signedMax) (reserve bytes) := by
  unfold reserve
  split
  · rename_i fits
    exact Ensures.ok fits
  · exact Ensures.error _

theorem zeros_ensures (size : Nat) :
    Ensures (fun _ => size ≤ TwosComplement.signedMax) (zeros size) :=
  (reserve_ensures size).bind fun _ fits => Ensures.pure fits

/-- Memory was there for the elements of a new compound item, and they are flat. -/
theorem sizedCompound_ensures (instruction : Instruction) (size : Nat) :
    Ensures (fun item => elementWidth * size ≤ TwosComplement.signedMax ∧
      item.nestedCount = size) (sizedCompound instruction size) := by
  have filled (kind : ItemKind) :
      Ensures (fun items => elementWidth * size ≤ TwosComplement.signedMax ∧
        items.length + Item.nestedCountAll items = size)
        (replicated size (Item.initial kind)) := by
    refine (reserve_ensures _).bind fun _ fits => Ensures.pure ⟨fits, ?_⟩
    have flat : (Item.initial kind).nestedCount = 0 := by cases kind <;> rfl
    have nothing : Item.nestedCountAll (List.replicate size (Item.initial kind)) = 0 :=
      Item.nestedCountAll_eq_zero fun item member => by rw [List.eq_of_mem_replicate member, flat]
    rw [nothing, List.length_replicate]
    rfl
  have array {items : List Item} (held : elementWidth * size ≤ TwosComplement.signedMax ∧
      items.length + Item.nestedCountAll items = size) :
      elementWidth * size ≤ TwosComplement.signedMax ∧ (Item.array items).nestedCount = size :=
    ⟨held.1, (Item.nestedCount_array items).trans held.2⟩
  unfold sizedCompound
  split
  · exact (filled .any).bind fun items held =>
      Ensures.pure ⟨held.1, (Item.nestedCount_struct items).trans held.2⟩
  · refine Ensures.bind_any fun _ => ?_
    split
    · exact (filled _).bind fun _ held => Ensures.pure (array held)
    · exact Ensures.throw _
  · exact (filled .any).bind fun _ held => Ensures.pure (array held)

theorem nestedCountAll_lastToFront_le (items : List Item) :
    Item.nestedCountAll (lastToFront items) ≤ Item.nestedCountAll items := by
  unfold lastToFront
  split
  · rename_i last found
    have whole : items = items.dropLast ++ [last] :=
      (List.dropLast_append_getLast? last found).symm
    have sum := congrArg Item.nestedCountAll whole
    rw [Item.nestedCountAll_append, Item.nestedCountAll_cons, Item.nestedCountAll_nil] at sum
    rw [Item.nestedCountAll_cons]
    omega
  · exact Nat.zero_le _

theorem takesAlt_of_not_moves {behaviour : Behaviour} (still : behaviour.moves = false) :
    behaviour.takesAlt = 0 := by
  cases behaviour <;> first
    | rfl
    | cases still

variable {behaviour : Behaviour} {host : Host} (instruction : Instruction) (frame : Frame)
  (world : World) {arguments : Arguments} {growth : Int}

/-- What is moved needs no growth, and what is copied needs what is nested inside it. -/
theorem run_moves_grows (moves : behaviour.moves = true) (fed : behaviour.Fed arguments)
    (foreseen : behaviour.Foresees host.limits.integerSize arguments growth) :
    Ensures (Results.Grows arguments growth)
      (behaviour.run host instruction frame world arguments) := by
  obtain ⟨stack, alt⟩ := arguments
  have taken : alt.length = behaviour.takesAlt := fed.alt
  have fewer {items : List Item} (noAlt : alt.length = 0) (same : growth = 0)
      (nested : Item.nestedCountAll items ≤ Item.nestedCountAll stack)
      (length : items.length ≤ stack.length) :
      Ensures (Results.Grows ⟨stack, alt⟩ growth)
        (.ok (.many items world) : Except Fault Results) := by
    cases List.eq_nil_of_length_eq_zero noAlt
    subst same
    exact Ensures.ok (Results.grows_of_fewer nested length)
  have copied {items : List Item} (noAlt : alt.length = 0)
      (same : (Item.nestedCountAll items : Int) = Item.nestedCountAll stack + growth) :
      Ensures (Results.Grows ⟨stack, alt⟩ growth)
        (.ok (.many items world) : Except Fault Results) := by
    cases List.eq_nil_of_length_eq_zero noAlt
    exact Ensures.ok (Results.grows_exactly same)
  have below := belowCount_ensures host.limits.integerSize stack
  cases behaviour
  case dropItems => exact fewer taken foreseen (Nat.zero_le _) (Nat.zero_le _)
  case dropSecond =>
    refine Arguments.two_ensures.bind fun (top, second) same => ?_
    subst same
    exact @fewer [top] taken foreseen (by simp) (by simp)
  case dropAt =>
    refine below.bind fun items held => ?_
    obtain ⟨count, size, rfl, _⟩ := held
    have part := Item.nestedCountAll_le_of_sublist (List.dropLast_sublist items)
    refine fewer taken foreseen ?_ ?_
    · rw [Item.nestedCountAll_cons]
      omega
    · rw [List.length_dropLast, List.length_cons]
      omega
  case swap =>
    refine Arguments.two_ensures.bind fun (b, a) same => ?_
    subst same
    exact fewer taken foreseen (by simp; omega) (by simp)
  case rotate =>
    refine Arguments.three_ensures.bind fun (c, b, a) same => ?_
    subst same
    exact fewer taken foreseen (by simp; omega) (by simp)
  case roll =>
    refine below.bind fun items held => ?_
    obtain ⟨count, size, rfl, _⟩ := held
    have part := nestedCountAll_lastToFront_le items
    refine fewer taken foreseen ?_ ?_
    · rw [Item.nestedCountAll_cons]
      omega
    · rw [length_lastToFront, List.length_cons]
      omega
  case reverse =>
    have same := Item.nestedCountAll_eq_of_perm (List.reverse_perm stack)
    exact fewer taken foreseen (Nat.le_of_eq same) (Nat.le_of_eq List.length_reverse)
  case reverseCounted =>
    refine below.bind fun items held => ?_
    obtain ⟨count, size, rfl, _⟩ := held
    have same := Item.nestedCountAll_eq_of_perm (List.reverse_perm items)
    refine fewer taken foreseen ?_ ?_
    · rw [Item.nestedCountAll_cons]
      omega
    · rw [List.length_reverse, List.length_cons]
      omega
  case toAlt =>
    obtain rfl : growth = 0 := foreseen
    cases List.eq_nil_of_length_eq_zero taken
    refine Arguments.one_ensures.bind fun item same => ?_
    subst same
    exact Ensures.pure (Results.grows_of_fewer (Nat.le_of_eq (Nat.add_comm _ _)) (Nat.le_refl 1))
  case fromAlt =>
    obtain rfl : growth = 0 := foreseen
    obtain ⟨item, rfl⟩ := List.length_eq_one_iff.1 taken
    refine Ensures.ok (Results.grows_of_fewer ?_ (Nat.le_add_left 1 _))
    exact Nat.le_add_left item.nestedCount _
  -- Copies: what is nested inside them has been foreseen.
  case copyTop =>
    refine Arguments.one_ensures.bind fun top same => copied taken ?_
    rw [foreseen top same]
    obtain rfl : stack = [top] := same
    simp
  case copySecond =>
    refine Arguments.two_ensures.bind fun (top, second) same => copied taken ?_
    rw [foreseen top second same]
    obtain rfl : stack = [top, second] := same
    simp
    omega
  case tuck =>
    refine Arguments.two_ensures.bind fun (top, second) same => copied taken ?_
    rw [foreseen top second same]
    obtain rfl : stack = [top, second] := same
    simp
    omega
  case copyAt =>
    refine below.bind fun items held => copied taken ?_
    obtain ⟨count, size, rfl, counted⟩ := held
    have none := count.toCount_flat _ size counted
    rw [foreseen count items size rfl counted, copyLastToFront, Item.nestedCountAll_cons,
      Item.nestedCountAll_cons, none]
    omega
  case copyFromAlt =>
    obtain rfl : stack = [] := fed.stack rfl
    obtain ⟨item, rfl⟩ := List.length_eq_one_iff.1 taken
    have same : growth = item.nestedCount := foreseen item rfl
    have twice : (item.nestedCount + item.nestedCount : Int) = 0 + item.nestedCount + growth := by
      omega
    exact Ensures.ok ⟨Int.le_of_eq twice, .inl twice⟩
  all_goals cases moves

/-- What is made, put together or taken apart needs no more than the growth that is foreseen. -/
theorem run_makes_grows (still : behaviour.moves = false) (made : behaviour.computes = false)
    (ordinary : behaviour ≠ .systemCall) (own : ∀ stack alt, behaviour ≠ .constant stack alt)
    (fed : behaviour.Fed arguments)
    (foreseen : behaviour.Foresees host.limits.integerSize arguments growth) :
    Ensures (Results.Grows arguments growth)
      (behaviour.run host instruction frame world arguments) := by
  obtain ⟨stack, alt⟩ := arguments
  obtain rfl : alt = [] :=
    List.eq_nil_of_length_eq_zero (fed.alt.trans (takesAlt_of_not_moves still))
  have flat {result : Except Fault Item} (same : growth = 0)
      (nothing : Ensures (fun item => item.nestedCount = 0) result) :
      Ensures (Results.Grows ⟨stack, []⟩ growth) (result.map (Results.one · world)) := by
    subst same
    exact Ensures.map (nothing.mono fun item none =>
      Results.grows_of_flat (Results.each_one none) (Nat.le_refl 1))
  have kept {result : Except Fault Item} {item : Item} {items : List Item} (all : stack = items)
      (same : growth = 0) (member : item ∈ items)
      (nested : Ensures (fun made => made.nestedCount ≤ item.nestedCount) result) :
      Ensures (Results.Grows ⟨stack, []⟩ growth) (result.map (Results.one · world)) := by
    subst all same
    exact Ensures.map (nested.mono fun _ few => Results.grows_of_mem member few)
  cases behaviour
  case systemCall => exact absurd rfl ordinary
  case constant stack alt => exact absurd rfl (own stack alt)
  -- New items.
  case pushPointer =>
    refine flat foreseen ?_
    unfold pointer
    dsimp only
    split
    · exact Ensures.ok rfl
    · exact Ensures.error _
  case newEmpty =>
    have empty : (emptyCompound instruction.opcode).nestedCount = 0 := by
      unfold emptyCompound
      split <;> rfl
    exact flat foreseen (Ensures.ok empty)
  case newSized =>
    refine Arguments.one_ensures.bind fun item same => ?_
    refine (Ensures.self _).bind fun size counted => ?_
    have grown : growth = slots size := foreseen item size same counted
    have none := item.toCount_flat _ size counted
    obtain rfl : stack = [item] := same
    refine Ensures.map ((sizedCompound_ensures instruction size).mono fun result held => ?_)
    have few : size ≤ TwosComplement.signedMax := by
      have fits := held.1
      unfold elementWidth at fits
      omega
    refine @Results.grows_exactly [item] [result] growth world ?_
    rw [grown, slots_of_le few]
    simp [held.2, none]
  case pack =>
    refine (belowCount_ensures host.limits.integerSize stack).bind fun items held => ?_
    obtain ⟨count, size, rfl, counted⟩ := held
    have packed : growth = items.length := foreseen count items size rfl counted
    refine Ensures.ok (Results.grows_one ?_ ?_)
    · rw [Item.nestedCountAll_cons, Item.nestedCount_array]
      omega
    · rw [List.length_cons]
      omega
  -- Parts of items.
  case unpack =>
    refine Arguments.one_ensures.bind fun item same => ?_
    refine (Ensures.self _).bind fun out unpacked => ?_
    have came : growth = -item.parts.length := foreseen item out same unpacked
    obtain ⟨length, nested⟩ := item.unpack_nested out unpacked
    obtain rfl : stack = [item] := same
    refine Ensures.ok (Results.grows_many ?_ ?_)
    · rw [Item.nestedCountAll_cons, Item.nestedCountAll_nil]
      omega
    · rw [length, List.length_singleton]
      omega
  case keys =>
    exact Arguments.one_ensures.bind fun item same =>
      kept same foreseen (by simp) item.keys_nested
  case values =>
    exact Arguments.one_ensures.bind fun item same =>
      kept same foreseen (by simp) item.values_nested
  case pickItem =>
    exact Arguments.two_ensures.bind fun (key, item) same =>
      kept same foreseen (by simp) (Item.pickItem_nested host.limits key item)
  -- Items that are changed.
  case append =>
    obtain rfl : growth = 1 := foreseen
    refine Arguments.two_ensures.bind fun (element, item) same => ?_
    obtain rfl : stack = [element, item] := same
    refine Ensures.map ((Item.append_nested element item).mono fun _ one => ?_)
    refine Results.grows_one ?_ (Int.le_refl _)
    rw [one, Item.nestedCountAll_cons, Item.nestedCountAll_cons, Item.nestedCountAll_nil]
    omega
  case setItem =>
    refine Arguments.three_ensures.bind fun (value, key, item) same => ?_
    have grown : growth = Item.newSlots key item := foreseen value key item same
    have two := Item.newSlots_le key item
    obtain rfl : stack = [value, key, item] := same
    refine Ensures.map ((Item.setItem_nested host.limits key value item).mono fun _ few => ?_)
    refine Results.grows_one ?_ ?_
    · simp only [Item.nestedCountAll_cons, Item.nestedCountAll_nil]
      omega
    · simp only [List.length_cons, List.length_nil]
      omega
  case reverseItems =>
    exact Arguments.one_ensures.bind fun item same =>
      kept same foreseen (by simp) item.reverseItems_nested
  case removeItem =>
    exact Arguments.two_ensures.bind fun (key, item) same =>
      kept same foreseen (by simp) (Item.removeItem_nested host.limits key item)
  case clearItems =>
    exact Arguments.one_ensures.bind fun item same =>
      kept same foreseen (by simp) item.clearItems_nested
  case convert =>
    exact Ensures.bind_any fun kind => Arguments.one_ensures.bind fun item same =>
      kept same foreseen (by simp) (item.convert_nested _ kind)
  all_goals first
    | cases still; done
    | cases made

/-- What is put together is one item. -/
theorem count_of_pack :
    Ensures (fun results => results.count = 1)
      (pack.run host instruction frame world arguments) :=
  Ensures.bind_any fun _ => Ensures.ok rfl

end Behaviour

end GasMachine
