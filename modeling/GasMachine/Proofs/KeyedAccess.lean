import GasMachine.Proofs.Outcomes
import GasMachine.Proofs.Updates

/-!
# Access by key is coherent

Four opcodes read keys, each in its own way, and they agree on which keys there are. What is found
at a key, what setting it comes to and what removing it leaves is said as relations between items
(`Item.HasAt`, `Item.Sets`, `Item.Removes`): for elements and bytes by the index that the key stands
for, for maps by the entries. The opcodes succeed exactly if there is such an item, and yield it.

The entries of a map are a list here, so the keys have to be said to be distinct. Those of all items
that scripts can make are (`Machine.distinct_of_mem_stages`).
-/

set_option autoImplicit false

namespace GasMachine

namespace Item

/-! ## Relations

Each relation has one case for each kind of item that can be accessed, and says how the item looks
and not how it is come by. So an equivalence with the computation is a statement about success as
well as about the result. -/

/-- Keys of a map are distinct. -/
def Distinct (item : Item) : Prop := ∀ entries, item = .map entries → (ItemMap.keys entries).Nodup

/-- The element, byte or value of a key. -/
inductive HasAt (limits : Limits) (key : Item) : Item → Item → Prop where
  | array {items : List Item} {index : Nat} {found : Item}
    (stands : key.toInteger limits.integerSize = .ok index) (there : items[index]? = some found) :
    HasAt limits key (.array items) found
  | struct {items : List Item} {index : Nat} {found : Item}
    (stands : key.toInteger limits.integerSize = .ok index) (there : items[index]? = some found) :
    HasAt limits key (.struct items) found
  | byteString {bytes : Bytes} {index : Nat} {byte : UInt8}
    (stands : key.toInteger limits.integerSize = .ok index) (there : bytes[index]? = some byte) :
    HasAt limits key (.byteString bytes) (.integer byte.toNat)
  | buffer {bytes : Bytes} {index : Nat} {byte : UInt8}
    (stands : key.toInteger limits.integerSize = .ok index) (there : bytes[index]? = some byte) :
    HasAt limits key (.buffer bytes) (.integer byte.toNat)
  | map {entries : ItemMap} {found : Item} (fits : key.FitsKey limits.mapKeySize)
    (there : (key, found) ∈ entries) : HasAt limits key (.map entries) found

/-- An item, and the same with a value at a key. A byte of a buffer is set to a number with or
without sign. -/
inductive Sets (limits : Limits) (key value : Item) : Item → Item → Prop where
  | array {items updated : List Item} {index : Nat}
    (stands : key.toInteger limits.integerSize = .ok index)
    (update : IsUpdate items index value updated) :
    Sets limits key value (.array items) (.array updated)
  | struct {items updated : List Item} {index : Nat}
    (stands : key.toInteger limits.integerSize = .ok index)
    (update : IsUpdate items index value updated) :
    Sets limits key value (.struct items) (.struct updated)
  | buffer {bytes updated : Bytes} {index : Nat} {number : Int} {byte : UInt8}
    (stands : key.toInteger limits.integerSize = .ok index)
    (reads : value.toInteger limits.integerSize = .ok number)
    (low : -128 ≤ number) (high : number ≤ 255) (same : (byte.toNat : Int) = number % 256)
    (update : IsUpdate bytes index byte updated) :
    Sets limits key value (.buffer bytes) (.buffer updated)
  | map {entries updated : ItemMap} (fits : key.FitsKey limits.mapKeySize)
    (update : ItemMap.IsUpdate entries key value updated) :
    Sets limits key value (.map entries) (.map updated)

/-- An item, and the same without what is at a key. A map need not have the key. -/
inductive Removes (limits : Limits) (key : Item) : Item → Item → Prop where
  | array {before behind : List Item} {found : Item}
    (stands : key.toInteger limits.integerSize = .ok before.length) :
    Removes limits key (.array (before ++ found :: behind)) (.array (before ++ behind))
  | struct {before behind : List Item} {found : Item}
    (stands : key.toInteger limits.integerSize = .ok before.length) :
    Removes limits key (.struct (before ++ found :: behind)) (.struct (before ++ behind))
  | map {entries : ItemMap} (fits : key.FitsKey limits.mapKeySize) :
    Removes limits key (.map entries) (.map (entries.filter fun entry => entry.1 ≠ key))

variable {limits : Limits} {key value item found updated : Item} {size index : Nat}

/-! ## Reading keys

A key is read as a number and has to be inside. What is read is the same in all four opcodes; only
what is done where there is nothing differs. -/

theorem readIndex_eq_ok_iff : key.readIndex limits size = .ok index ↔
    key.toInteger limits.integerSize = .ok index ∧ index < size := by
  unfold readIndex
  rw [bind_eq_ok_iff]
  constructor
  · rintro ⟨number, read, inside⟩
    split at inside
    · rename_i range
      obtain rfl := Except.ok.inj inside
      rw [read, Int.toNat_of_nonneg range.1]
      exact ⟨rfl, by omega⟩
    · cases inside
  · rintro ⟨read, inside⟩
    refine ⟨index, read, ?_⟩
    rw [if_pos ⟨Int.natCast_nonneg index, Int.ofNat_lt.2 inside⟩]
    rfl

theorem hasIndex_eq_ok_iff {answer : Bool} : key.hasIndex limits size = .ok answer ↔
    ∃ index : Nat,
      key.toInteger limits.integerSize = .ok index ∧ decide (index < size) = answer := by
  unfold hasIndex
  rw [bind_eq_ok_iff]
  constructor
  · rintro ⟨number, read, inside⟩
    split at inside
    · cases inside
    · lift number to Nat using by omega
      exact ⟨number, read, (by simpa using Except.ok.inj inside)⟩
  · rintro ⟨index, read, rfl⟩
    refine ⟨index, read, ?_⟩
    rw [if_neg (Int.not_lt.2 (Int.natCast_nonneg index))]
    simp [pure, Except.pure]

theorem checkKey_eq_ok_iff {limit : Nat} {done : Unit} :
    key.checkKey limit = .ok done ↔ key.FitsKey limit := by
  refine ⟨key.checkKey_ensures limit done, ?_⟩
  rintro ⟨kind, bytes, written, short⟩
  have primitive : key.kind.isPrimitive = true := by
    cases key <;> first | rfl | simp [Item.kind] at kind
  unfold checkKey
  rw [byteLength?_eq_some_iff.2 ⟨bytes, written, rfl⟩, if_neg (not_not_intro primitive)]
  exact if_neg (Nat.not_lt.2 short)

/-! ## Reading

Case by case along the definition of the operation. For lists and bytes the index settles what is
found, and for maps that the keys are distinct. -/

/-- The index of a key is inside, and what is there goes on. -/
theorem look_at_key_iff {α β : Type} {access : Access} {items : List α}
    {next : α → Except Fault β} {result : β} :
    (do next (← look access items (← key.readIndex limits items.length))) = .ok result ↔
      ∃ (index : Nat) (element : α), key.toInteger limits.integerSize = .ok index ∧
        items[index]? = some element ∧ next element = .ok result := by
  simp only [bind_eq_ok_iff, readIndex_eq_ok_iff, look_eq_ok_iff]
  constructor
  · rintro ⟨index, ⟨stands, _⟩, element, there, goesOn⟩
    exact ⟨index, element, stands, there, goesOn⟩
  · rintro ⟨index, element, stands, there, goesOn⟩
    exact ⟨index, ⟨stands, (List.getElem?_eq_some_iff.1 there).1⟩, element, there, goesOn⟩

theorem elementAt_eq_ok_iff {items : List Item} : elementAt limits items key = .ok found ↔
    ∃ index : Nat, key.toInteger limits.integerSize = .ok index ∧ items[index]? = some found := by
  unfold elementAt
  simp only [bind_eq_ok_iff, readIndex_eq_ok_iff, look_eq_ok_iff]
  constructor
  · rintro ⟨index, ⟨stands, _⟩, there⟩
    exact ⟨index, stands, there⟩
  · rintro ⟨index, stands, there⟩
    exact ⟨index, ⟨stands, (List.getElem?_eq_some_iff.1 there).1⟩, there⟩

theorem hasIndex_eq_true_iff {α : Type} {items : List α} :
    key.hasIndex limits items.length = .ok true ↔ ∃ (index : Nat) (element : α),
      key.toInteger limits.integerSize = .ok index ∧ items[index]? = some element := by
  simp only [hasIndex_eq_ok_iff, decide_eq_true_eq]
  constructor
  · rintro ⟨index, stands, inside⟩
    exact ⟨index, items[index], stands, List.getElem?_eq_getElem inside⟩
  · rintro ⟨index, element, stands, there⟩
    exact ⟨index, stands, (List.getElem?_eq_some_iff.1 there).1⟩

theorem pickItem_eq_ok_iff (distinct : item.Distinct) :
    pickItem limits key item = .ok found ↔ HasAt limits key item found := by
  cases item with
  | array items =>
    refine elementAt_eq_ok_iff.trans ⟨fun ⟨_, stands, there⟩ => .array stands there, ?_⟩
    rintro (⟨stands, there⟩)
    exact ⟨_, stands, there⟩
  | struct items =>
    refine elementAt_eq_ok_iff.trans ⟨fun ⟨_, stands, there⟩ => .struct stands there, ?_⟩
    rintro (_ | ⟨stands, there⟩)
    exact ⟨_, stands, there⟩
  | byteString bytes =>
    refine look_at_key_iff.trans ⟨fun ⟨_, _, stands, there, made⟩ => ?_, ?_⟩
    · exact Except.ok.inj made ▸ .byteString stands there
    · rintro (_ | _ | ⟨stands, there⟩)
      exact ⟨_, _, stands, there, rfl⟩
  | buffer bytes =>
    refine look_at_key_iff.trans ⟨fun ⟨_, _, stands, there, made⟩ => ?_, ?_⟩
    · exact Except.ok.inj made ▸ .buffer stands there
    · rintro (_ | _ | _ | ⟨stands, there⟩)
      exact ⟨_, _, stands, there, rfl⟩
  | map entries =>
    refine bind_eq_ok_iff.trans ⟨?_, ?_⟩
    · rintro ⟨_, checked, made⟩
      have fits := checkKey_eq_ok_iff.1 checked
      split at made
      · rename_i value there
        obtain rfl := Except.ok.inj made
        exact .map fits ((ItemMap.get?_eq_some_iff (distinct entries rfl)).1 there)
      · cases made
    · rintro (_ | _ | _ | _ | ⟨fits, there⟩)
      refine ⟨(), checkKey_eq_ok_iff.2 fits, ?_⟩
      rw [(ItemMap.get?_eq_some_iff (distinct entries rfl)).2 there]
      rfl
  | _ => exact iff_of_false nofun nofun

/-- A key is there exactly if something is found at it. -/
theorem hasKey_eq_true_iff :
    hasKey limits key item = .ok true ↔ ∃ found, HasAt limits key item found := by
  cases item with
  | array items =>
    refine hasIndex_eq_true_iff.trans ⟨fun ⟨_, _, stands, there⟩ => ⟨_, .array stands there⟩, ?_⟩
    rintro ⟨_, ⟨stands, there⟩⟩
    exact ⟨_, _, stands, there⟩
  | struct items =>
    refine hasIndex_eq_true_iff.trans ⟨fun ⟨_, _, stands, there⟩ => ⟨_, .struct stands there⟩, ?_⟩
    rintro ⟨_, (_ | ⟨stands, there⟩)⟩
    exact ⟨_, _, stands, there⟩
  | byteString bytes =>
    refine hasIndex_eq_true_iff.trans
      ⟨fun ⟨_, _, stands, there⟩ => ⟨_, .byteString stands there⟩, ?_⟩
    rintro ⟨_, (_ | _ | ⟨stands, there⟩)⟩
    exact ⟨_, _, stands, there⟩
  | buffer bytes =>
    refine hasIndex_eq_true_iff.trans ⟨fun ⟨_, _, stands, there⟩ => ⟨_, .buffer stands there⟩, ?_⟩
    rintro ⟨_, (_ | _ | _ | ⟨stands, there⟩)⟩
    exact ⟨_, _, stands, there⟩
  | map entries =>
    refine bind_eq_ok_iff.trans ⟨?_, ?_⟩
    · rintro ⟨_, checked, there⟩
      obtain ⟨⟨_, found⟩, member, rfl⟩ :=
        List.mem_map.1 (ItemMap.contains_iff_mem_keys.1 (Except.ok.inj there))
      exact ⟨found, .map (checkKey_eq_ok_iff.1 checked) member⟩
    · rintro ⟨_, (_ | _ | _ | _ | ⟨fits, there⟩)⟩
      refine ⟨(), checkKey_eq_ok_iff.2 fits, congrArg Except.ok ?_⟩
      exact ItemMap.contains_iff_mem_keys.2 (ItemMap.mem_keys_of_mem there)
  | _ => exact iff_of_false nofun nofun

theorem readIndex_of_hasIndex_false (missing : key.hasIndex limits size = .ok false) :
    ∃ shown, key.readIndex limits size = .error (.indexOutOfRange shown size) := by
  obtain ⟨index, stands, outside⟩ := hasIndex_eq_ok_iff.1 missing
  refine ⟨shownIndex index TwosComplement.signedMax, ?_⟩
  unfold readIndex
  rw [stands]
  exact if_neg fun range => of_decide_eq_false outside (Int.ofNat_lt.1 range.2)

/-- Where a key could be but is not, there is nothing to pick. -/
theorem pickItem_of_hasKey_false (missing : hasKey limits key item = .ok false) :
    pickItem limits key item = .error .keyNotFound ∨
      ∃ index size, pickItem limits key item = .error (.indexOutOfRange index size) := by
  cases item with
  | array items | struct items =>
    obtain ⟨shown, refused⟩ := readIndex_of_hasIndex_false missing
    refine .inr ⟨shown, items.length, ?_⟩
    show elementAt limits items key = _
    unfold elementAt
    rw [refused]
    rfl
  | byteString bytes | buffer bytes =>
    obtain ⟨shown, refused⟩ := readIndex_of_hasIndex_false missing
    refine .inr ⟨shown, bytes.length, ?_⟩
    unfold pickItem
    dsimp only
    rw [refused]
    rfl
  | map entries =>
    obtain ⟨_, checked, absent⟩ := bind_eq_ok_iff.1 missing
    have nothing : ItemMap.get? key entries = none :=
      Option.not_isSome_iff_eq_none.1 (Bool.eq_false_iff.1 (Except.ok.inj absent))
    refine .inl ?_
    unfold pickItem
    dsimp only
    rw [checked, nothing]
    rfl
  | _ => cases missing

/-! ## Writing

As for reading, with what the update leaves in place of what is found. Afterwards the keys of a map
are distinct again, so that one access can follow another. -/

theorem readByte_eq_ok_iff {byte : UInt8} : value.readByte limits = .ok byte ↔
    ∃ number, value.toInteger limits.integerSize = .ok number ∧ -128 ≤ number ∧ number ≤ 255 ∧
      (byte.toNat : Int) = number % 256 := by
  unfold readByte
  rw [bind_eq_ok_iff]
  refine exists_congr fun number => and_congr_right fun _ => ?_
  split
  · rename_i range
    have digit : ((UInt8.ofNat (number % 256).toNat).toNat : Int) = number % 256 := by
      rw [UInt8.toNat_ofNat']
      omega
    constructor
    · intro made
      obtain rfl := Except.ok.inj made
      exact ⟨range.1, range.2, digit⟩
    · rintro ⟨_, _, same⟩
      refine congrArg Except.ok (UInt8.toNat_inj.1 (Int.ofNat_inj.1 ?_))
      rw [digit, same]
  · rename_i outside
    exact iff_of_false nofun fun ⟨low, high, _⟩ => outside ⟨low, high⟩

/-- The index of a key is inside, and the list with a value there goes on. -/
theorem replace_at_key_iff {α β : Type} {items : List α} {value : α}
    {next : List α → Except Fault β} {result : β} :
    (do next (← replace items (← key.readIndex limits items.length) value)) = .ok result ↔
      ∃ (index : Nat) (updated : List α), key.toInteger limits.integerSize = .ok index ∧
        IsUpdate items index value updated ∧ next updated = .ok result := by
  simp only [bind_eq_ok_iff, readIndex_eq_ok_iff]
  constructor
  · rintro ⟨index, ⟨stands, inside⟩, updated, replaced, goesOn⟩
    exact ⟨index, updated, stands, (replace_eq_ok_iff inside).1 replaced, goesOn⟩
  · rintro ⟨index, updated, stands, update, goesOn⟩
    exact ⟨index, ⟨stands, update.inside⟩, updated, (replace_eq_ok_iff update.inside).2 update,
      goesOn⟩

theorem setItem_eq_ok_iff (distinct : item.Distinct) :
    setItem limits key value item = .ok updated ↔ Sets limits key value item updated := by
  cases item with
  | array items =>
    refine replace_at_key_iff.trans ⟨fun ⟨_, _, stands, update, made⟩ => ?_, ?_⟩
    · exact Except.ok.inj made ▸ .array stands update
    · rintro (⟨stands, update⟩)
      exact ⟨_, _, stands, update, rfl⟩
  | struct items =>
    refine replace_at_key_iff.trans ⟨fun ⟨_, _, stands, update, made⟩ => ?_, ?_⟩
    · exact Except.ok.inj made ▸ .struct stands update
    · rintro (_ | ⟨stands, update⟩)
      exact ⟨_, _, stands, update, rfl⟩
  | buffer bytes =>
    unfold setItem
    simp only [bind_eq_ok_iff, readIndex_eq_ok_iff, readByte_eq_ok_iff]
    constructor
    · rintro ⟨index, ⟨stands, inside⟩, byte, ⟨number, reads, low, high, same⟩, others, replaced,
        made⟩
      exact Except.ok.inj made ▸
        .buffer stands reads low high same ((replace_eq_ok_iff inside).1 replaced)
    · rintro (_ | _ | ⟨stands, reads, low, high, same, update⟩)
      exact ⟨_, ⟨stands, update.inside⟩, _, ⟨_, reads, low, high, same⟩, _,
        (replace_eq_ok_iff update.inside).2 update, rfl⟩
  | map entries =>
    have keyed := distinct entries rfl
    unfold setItem
    simp only [bind_eq_ok_iff, checkKey_eq_ok_iff]
    constructor
    · rintro ⟨_, fits, made⟩
      exact Except.ok.inj made ▸ .map fits ((ItemMap.insert_eq_iff keyed).1 rfl)
    · rintro (_ | _ | _ | ⟨fits, update⟩)
      exact ⟨(), fits, congrArg (Except.ok ∘ map) ((ItemMap.insert_eq_iff keyed).2 update)⟩
  | _ => exact iff_of_false nofun nofun

/-- What was set is found. -/
theorem Sets.hasAt (sets : Sets limits key value item updated) :
    ∃ found, HasAt limits key updated found ∧ (item.kind ≠ .buffer → found = value) ∧
      (item.kind = .buffer → ∀ number, value.toInteger limits.integerSize = .ok number →
        found = .integer (number % 256)) := by
  cases sets with
  | array stands update =>
    exact ⟨value, .array stands update.there, fun _ => rfl, nofun⟩
  | struct stands update =>
    exact ⟨value, .struct stands update.there, fun _ => rfl, nofun⟩
  | buffer stands reads low high same update =>
    refine ⟨_, .buffer stands update.there, fun other => absurd rfl other, fun _ number also => ?_⟩
    cases reads.symm.trans also
    rw [same]
  | map fits update => exact ⟨value, .map fits update.there, fun _ => rfl, nofun⟩

theorem Sets.distinct (sets : Sets limits key value item updated) (distinct : item.Distinct) :
    updated.Distinct := by
  rintro entries rfl
  cases sets with
  | map fits update => exact update.distinct (distinct _ rfl)

/-- The index of a key is inside, and the list without what is there goes on. -/
theorem takeOut_at_key_iff {α β : Type} {items : List α} {next : List α → Except Fault β}
    {result : β} :
    (do next (← takeOut items (← key.readIndex limits items.length))) = .ok result ↔
      ∃ before found behind, items = before ++ found :: behind ∧
        key.toInteger limits.integerSize = .ok before.length ∧
          next (before ++ behind) = .ok result := by
  simp only [bind_eq_ok_iff, readIndex_eq_ok_iff]
  constructor
  · rintro ⟨index, ⟨stands, inside⟩, updated, taken, goesOn⟩
    obtain ⟨before, found, behind, rfl, rfl, rfl⟩ := (takeOut_eq_ok_iff inside).1 taken
    exact ⟨before, found, behind, rfl, stands, goesOn⟩
  · rintro ⟨before, found, behind, rfl, stands, goesOn⟩
    have inside : before.length < (before ++ found :: behind).length := by simp
    exact ⟨_, ⟨stands, inside⟩, _, (takeOut_eq_ok_iff inside).2 ⟨_, _, _, rfl, rfl, rfl⟩, goesOn⟩

theorem removeItem_eq_ok_iff (distinct : item.Distinct) :
    removeItem limits key item = .ok updated ↔ Removes limits key item updated := by
  cases item with
  | array items =>
    refine takeOut_at_key_iff.trans ⟨fun ⟨_, _, _, split, stands, made⟩ => ?_, ?_⟩
    · subst split
      exact Except.ok.inj made ▸ .array stands
    · rintro ⟨stands⟩
      exact ⟨_, _, _, rfl, stands, rfl⟩
  | struct items =>
    refine takeOut_at_key_iff.trans ⟨fun ⟨_, _, _, split, stands, made⟩ => ?_, ?_⟩
    · subst split
      exact Except.ok.inj made ▸ .struct stands
    · rintro (_ | ⟨stands⟩)
      exact ⟨_, _, _, rfl, stands, rfl⟩
  | map entries =>
    have erased := ItemMap.erase_eq_filter (distinct entries rfl) key
    unfold removeItem
    simp only [bind_eq_ok_iff, checkKey_eq_ok_iff, erased]
    constructor
    · rintro ⟨_, fits, made⟩
      exact Except.ok.inj made ▸ .map fits
    · rintro (_ | _ | ⟨fits⟩)
      exact ⟨(), fits, rfl⟩
  | _ => exact iff_of_false nofun nofun

/-- A key that was removed from a map is not there any more. -/
theorem Removes.hasKey_eq_false (removes : Removes limits key item updated)
    (isMap : item.kind = .map) : hasKey limits key updated = .ok false := by
  cases removes with
  | array | struct => cases isMap
  | @map entries fits =>
    refine bind_eq_ok_iff.2 ⟨(), checkKey_eq_ok_iff.2 fits, congrArg Except.ok ?_⟩
    rw [Bool.eq_false_iff, ne_eq, ItemMap.contains_iff_mem_keys]
    intro there
    obtain ⟨entry, member, own⟩ := List.mem_map.1 there
    exact of_decide_eq_true (List.mem_filter.1 member).2 own

end Item

/-! ## Opcodes

An operation becomes an opcode by its arguments, and a step by having room for what comes of it.
Three of the four never make an item larger; setting may need a slot for a new key, so there the
room is a hypothesis. -/

namespace Opcode

variable {limits : Limits} {key value item : Item} {outcome : Except Fault Item}

/-- An outcome that is made of one item and of no more than is inside it is modest. -/
theorem modest_of_nested {arguments : List Item} {made : Except Fault Item}
    (sound : Sound True (fun _ => True) made) (member : item ∈ arguments)
    (nested : Ensures (fun result => result.nestedCount ≤ item.nestedCount) made) :
    Modest arguments made := by
  have inside := Item.nestedCount_le_all member
  have some_ := List.length_pos_of_mem member
  refine sound.self.mono fun result gave => ?_
  have few := nested result gave
  omega

theorem yields_hasKey : HASKEY.Yields limits [key, item] outcome ↔
    (Item.hasKey limits key item).map .boolean = outcome := by
  have modest : Modest [key, item] ((Item.hasKey limits key item).map .boolean) :=
    Sound.map ((Item.hasKey_sound limits item key).mono fun _ _ => Nat.le_add_right_of_le
      (Nat.le_add_left 1 1))
  refine yields_iff ?_ rfl rfl (Nat.le_add_left 1 _) modest
  rintro host instruction frame world rfl
  show (Item.hasKey host.limits key item >>= fun there =>
    .ok (Results.one (.boolean there) world)) = _
  cases Item.hasKey host.limits key item <;> rfl

theorem yields_pickItem : PICKITEM.Yields limits [key, item] outcome ↔
    Item.pickItem limits key item = outcome := by
  have modest : Modest [key, item] (Item.pickItem limits key item) :=
    modest_of_nested (Item.pickItem_sound limits item key) (by simp)
      (Item.pickItem_nested limits key item)
  refine yields_iff ?_ rfl rfl (Nat.le_add_left 1 _) modest
  rintro host instruction frame world rfl
  rfl

theorem yields_removeItem : REMOVE.Yields limits [key, item] outcome ↔
    Item.removeItem limits key item = outcome := by
  have modest : Modest [key, item] (Item.removeItem limits key item) :=
    modest_of_nested (Item.removeItem_sound limits item key) (by simp)
      (Item.removeItem_nested limits key item)
  refine yields_iff ?_ rfl rfl (Nat.le_add_left 1 _) modest
  rintro host instruction frame world rfl
  rfl

theorem makes_setItem : SETITEM.Makes limits [value, key, item] outcome ↔
    Item.setItem limits key value item = outcome := by
  refine makes_iff ?_
  rintro host instruction frame world rfl
  rfl

/-- The machine sets an item unless a new key would be one too many. -/
theorem performs_setItem (makes : SETITEM.Makes limits [value, key, item] outcome)
    (slot : ∀ entries, item = .map entries → key ∉ ItemMap.keys entries →
      entries.length < limits.arraySize) :
    SETITEM.Performs limits [value, key, item] outcome := by
  have modest : Modest [value, key, item] outcome := by
    rw [← makes_setItem.1 makes]
    refine (Item.setItem_sound limits item key value).self.mono fun result made => ?_
    have few := Item.setItem_nested limits key value item result made
    have two := Item.newSlots_le key item
    simp only [List.length_cons, List.length_nil, Item.nestedCountAll_cons, Item.nestedCountAll_nil]
    omega
  refine makes.performs rfl modest fun host frame rest _ stack => ?_
  have there : frame.peek? 2 = some item := congrArg (·[2]?) stack
  have named : frame.peek? 1 = some key := congrArg (·[1]?) stack
  have none : (1 : Int) + 0 ≤ 3 := by decide
  have two : (1 : Int) + 2 ≤ 3 := by decide
  have calm : ({ stackIn := 3, stackOut := 1 } : Demand).OneFor limits [value, key, item] :=
    ⟨⟨rfl, rfl, rfl, Nat.zero_le _, Nat.zero_le _⟩, rfl, rfl, none, rfl⟩
  unfold Instruction.resolve Refinement.resolve
  dsimp only [withOperand, standardEntry, Entry.of]
  rw [there, named]
  cases item with
  | map entries =>
    dsimp only
    by_cases old : ItemMap.contains key entries = true
    · rw [if_pos old]
      exact ⟨_, calm, rfl⟩
    · have fresh : key ∉ ItemMap.keys entries := mt ItemMap.contains_iff_mem_keys.2 old
      rw [if_neg old]
      refine ⟨{ stackIn := 3, stackOut := 1, arraySize := entries.length + 1, growth := 2 },
        ?_, rfl⟩
      exact ⟨⟨rfl, rfl, rfl, slot entries rfl fresh, Nat.zero_le _⟩, rfl, rfl, two, rfl⟩
  | _ => exact ⟨_, calm, rfl⟩

end Opcode

/-- Of every map on the stacks of a frame at a stage of a chain, at any depth, the keys are
distinct. -/
theorem Machine.distinct_of_mem_stages (config : Config) (invocation : Invocation)
    (snapshot : Snapshot) (gas : Int) (scripts : List Script) (stage : Execution)
    (member : stage ∈ (standard config).stages invocation snapshot gas scripts) :
    stage.Holds Item.Distinct := by
  have invariant := shapely_invariant (rfl : (standard config).table = {}) invocation
  have start : ((standard config).opening snapshot gas).residue.Holds
      (Item.Shapely config.limits) :=
    ⟨List.forall_mem_nil _, List.forall_mem_nil _⟩
  have held := (invariant.chain snapshot gas start scripts fun _ _ => trivial).1 stage member
  exact held.mono fun item shapely entries isMap => (shapely.keys entries isMap).distinct

/-! ## What the opcodes yield -/

/-- What the opcodes for access by key yield. -/
structure Limits.AccessesCoherently (limits : Limits) (key item : Item) : Prop where
  /-- Something is picked exactly if the key is there. -/
  picks : (∃ found, Opcode.PICKITEM.Yields limits [key, item] (.ok found)) ↔
    Opcode.HASKEY.Yields limits [key, item] (.ok (.boolean true))
  /-- What is picked is what is there. -/
  finds : ∀ found, Opcode.PICKITEM.Yields limits [key, item] (.ok found) ↔
    Item.HasAt limits key item found
  /-- If the key is not there, picking faults for this reason. -/
  misses : Opcode.HASKEY.Yields limits [key, item] (.ok (.boolean false)) →
    Opcode.PICKITEM.Yields limits [key, item] (.error .keyNotFound) ∨
      ∃ index size, Opcode.PICKITEM.Yields limits [key, item] (.error (.indexOutOfRange index size))
  /-- Setting gives the same item with the value at the key. -/
  sets : ∀ value updated, Opcode.SETITEM.Makes limits [value, key, item] (.ok updated) ↔
    Item.Sets limits key value item updated
  /-- The machine does so unless a new key would be one too many. -/
  performs : ∀ value outcome, Opcode.SETITEM.Makes limits [value, key, item] outcome →
    (∀ entries, item = .map entries → key ∉ ItemMap.keys entries →
      entries.length < limits.arraySize) →
        Opcode.SETITEM.Performs limits [value, key, item] outcome
  /-- What was set is picked, a byte as the remainder of its number. -/
  readsBack : ∀ value updated, Opcode.SETITEM.Makes limits [value, key, item] (.ok updated) →
    ∃ found, Opcode.PICKITEM.Yields limits [key, updated] (.ok found) ∧
      (item.kind ≠ .buffer → found = value) ∧
        (item.kind = .buffer → ∀ number, value.toInteger limits.integerSize = .ok number →
          found = .integer (number % 256))
  /-- Removing gives the same item without what is at the key. -/
  removes : ∀ remaining, Opcode.REMOVE.Yields limits [key, item] (.ok remaining) ↔
    Item.Removes limits key item remaining
  /-- What was removed from a map is not there any more. -/
  gone : ∀ remaining, item.kind = .map → Opcode.REMOVE.Yields limits [key, item] (.ok remaining) →
    Opcode.HASKEY.Yields limits [key, remaining] (.ok (.boolean false))

theorem Limits.accessesCoherently (limits : Limits) (key item : Item) (distinct : item.Distinct) :
    limits.AccessesCoherently key item := by
  have found (answer : Bool) : Opcode.HASKEY.Yields limits [key, item] (.ok (.boolean answer)) ↔
      Item.hasKey limits key item = .ok answer := by
    rw [Opcode.yields_hasKey]
    cases Item.hasKey limits key item <;> simp [Except.map]
  constructor
  case picks =>
    rw [found, Item.hasKey_eq_true_iff]
    simp only [Opcode.yields_pickItem, Item.pickItem_eq_ok_iff distinct]
  case finds =>
    intro found
    rw [Opcode.yields_pickItem, Item.pickItem_eq_ok_iff distinct]
  case misses =>
    simp only [found, Opcode.yields_pickItem]
    exact Item.pickItem_of_hasKey_false
  case sets =>
    intro value updated
    rw [Opcode.makes_setItem, Item.setItem_eq_ok_iff distinct]
  case performs => exact fun value outcome => Opcode.performs_setItem
  case readsBack =>
    intro value updated made
    have sets := (Item.setItem_eq_ok_iff distinct).1 (Opcode.makes_setItem.1 made)
    obtain ⟨found, there, same, digit⟩ := sets.hasAt
    refine ⟨found, ?_, same, digit⟩
    rw [Opcode.yields_pickItem, Item.pickItem_eq_ok_iff (sets.distinct distinct)]
    exact there
  case removes =>
    intro remaining
    rw [Opcode.yields_removeItem, Item.removeItem_eq_ok_iff distinct]
  case gone =>
    intro remaining isMap made
    have removes := (Item.removeItem_eq_ok_iff distinct).1 (Opcode.yields_removeItem.1 made)
    rw [Opcode.yields_hasKey, removes.hasKey_eq_false isMap]
    rfl

/-- Three keys that read as the same number, each with an entry of its own. -/
def likeKeys : ItemMap :=
  [(.boolean true, .integer 7), (.integer 1, .array [.null]), (.byteString [1], .null)]

/-- The second entry is found and removed, and a fourth key comes last. -/
theorem Limits.accessesCoherently_likeKeys :
    (Item.map likeKeys).Distinct ∧
    Opcode.HASKEY.Yields {} [.integer 1, .map likeKeys] (.ok (.boolean true)) ∧
    Opcode.PICKITEM.Yields {} [.integer 1, .map likeKeys] (.ok (.array [.null])) ∧
    Opcode.REMOVE.Yields {} [.integer 1, .map likeKeys]
      (.ok (.map [(.boolean true, .integer 7), (.byteString [1], .null)])) ∧
    Opcode.SETITEM.Makes {} [.null, .byteString [1, 0], .map likeKeys]
      (.ok (.map (likeKeys ++ [(.byteString [1, 0], .null)]))) := by
  have distinct : (Item.map likeKeys).Distinct := by
    rintro entries same
    obtain rfl := Item.map.inj same
    decide +kernel
  have number := accessesCoherently {} (.integer 1) (.map likeKeys) distinct
  have bytes := accessesCoherently {} (.byteString [1, 0]) (.map likeKeys) distinct
  have numberFits : (Item.integer 1).FitsKey 64 := ⟨by decide, _, rfl, by decide⟩
  have bytesFit : (Item.byteString [1, 0]).FitsKey 64 := ⟨by decide, _, rfl, by decide⟩
  have picked := (number.finds (.array [.null])).2 (.map numberFits (by decide +kernel))
  have update : ItemMap.IsUpdate likeKeys (.byteString [1, 0]) .null
      (likeKeys ++ [(.byteString [1, 0], .null)]) :=
    (ItemMap.insert_eq_iff (distinct _ rfl)).1 (by decide +kernel)
  refine ⟨distinct, number.picks.1 ⟨_, picked⟩, picked, ?_, ?_⟩
  · exact (number.removes _).2 (.map numberFits)
  · exact (bytes.sets .null _).2 (.map bytesFit update)

end GasMachine
