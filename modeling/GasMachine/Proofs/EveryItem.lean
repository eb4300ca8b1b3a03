import GasMachine.Item.Keyed
import GasMachine.Proofs.Success

/-!
# Items inside items

A property of items is said to hold everywhere in an item if the item has it and so does whatever
is inside it, at any depth. The operations on compound items take them apart and put them together,
so what they give is composed of what they got: its parts were there before, and if it is a
reference, a pointer or a handle, then so was the item itself.
-/

set_option autoImplicit false

namespace GasMachine

/-! ## Parts

`Within` is the nesting as a relation, and `Everywhere` quantifies over it, so that no depth needs
to be mentioned. A result is mostly known to be `Composed`: its parts have the property, while
whether the result itself has it depends on the property. A reference must not turn up from nowhere,
so for these the property is part of it. -/

namespace Item

/-- The items directly inside an item. -/
def parts : Item → List Item
  | .array items | .struct items => items
  | .map entries => entries.flatMap fun (key, value) => [key, value]
  | _ => []

/-- Whether an item stands for something outside itself. -/
def isReference : Item → Bool
  | .pointer _ _ | .interop _ => true
  | _ => false

/-- Whether an item is a value of its own, neither compound nor a reference. -/
def isPlain : Item → Bool
  | .null | .boolean _ | .integer _ | .byteString _ | .buffer _ => true
  | _ => false

theorem isReference_of_isPlain {item : Item} (plain : item.isPlain = true) :
    item.isReference = false := by
  cases item <;> first | rfl | cases plain

theorem parts_of_isPlain {item : Item} (plain : item.isPlain = true) : item.parts = [] := by
  cases item <;> first | rfl | cases plain

theorem elementCount?_of_isPlain {item : Item} (plain : item.isPlain = true) :
    item.elementCount? = none := by
  cases item <;> first | rfl | cases plain

/-- An item is within another if it is the other, or inside it at some depth. -/
inductive Within : Item → Item → Prop where
  | self (item : Item) : Within item item
  | part {inner part whole : Item} (member : part ∈ whole.parts) (deeper : Within inner part) :
    Within inner whole

/-- A property of an item and of all that is inside it. -/
def Everywhere (p : Item → Prop) (item : Item) : Prop := ∀ inner, Within inner item → p inner

/-- An item whose parts have a property everywhere. The item itself need not have it, unless it is
a reference. -/
structure Composed (p : Item → Prop) (item : Item) : Prop where
  reference : item.isReference = true → p item
  parts : ∀ part ∈ item.parts, part.Everywhere p

variable {p : Item → Prop} {item : Item}

theorem everywhere_iff :
    item.Everywhere p ↔ p item ∧ ∀ part ∈ item.parts, part.Everywhere p := by
  constructor
  · intro every
    exact ⟨every item (.self item), fun part member inner deeper =>
      every inner (.part member deeper)⟩
  · rintro ⟨own, inside⟩ inner within
    cases within with
    | self => exact own
    | part member deeper => exact inside _ member inner deeper

theorem Everywhere.own (every : item.Everywhere p) : p item := every item (.self item)

theorem Everywhere.parts (every : item.Everywhere p) : ∀ part ∈ item.parts, part.Everywhere p :=
  (everywhere_iff.1 every).2

theorem Everywhere.mono {q : Item → Prop} (every : item.Everywhere p)
    (weaker : ∀ item, p item → q item) : item.Everywhere q :=
  fun inner within => weaker inner (every inner within)

theorem Everywhere.composed (every : item.Everywhere p) : item.Composed p :=
  ⟨fun _ => every.own, every.parts⟩

theorem Composed.everywhere (composed : item.Composed p) (own : p item) : item.Everywhere p :=
  everywhere_iff.2 ⟨own, composed.parts⟩

theorem composed_of_parts (noReference : item.isReference = false)
    (parts : ∀ part ∈ item.parts, part.Everywhere p) : item.Composed p :=
  ⟨fun reference => absurd (noReference.symm.trans reference) Bool.false_ne_true, parts⟩

/-- An item without parts that is no reference. -/
theorem composed_of_plain (noReference : item.isReference = false) (flat : item.parts = []) :
    item.Composed p := by
  refine composed_of_parts noReference ?_
  rw [flat]
  exact List.forall_mem_nil _

theorem everywhere_of_flat (flat : item.parts = []) (own : p item) : item.Everywhere p := by
  refine everywhere_iff.2 ⟨own, ?_⟩
  rw [flat]
  exact List.forall_mem_nil _

end Item

/-! ## Entries

The entries of a map are pairs and its parts are single items; the lemmas about insertion and
removal are said of pairs, since that is what these work on. -/

namespace ItemMap

variable {p : Item → Prop} {entries : ItemMap}

theorem parts_map_iff :
    (∀ part ∈ (Item.map entries).parts, p part) ↔
      ∀ entry ∈ entries, p entry.1 ∧ p entry.2 := by
  simp only [Item.parts, List.mem_flatMap, List.mem_cons, List.not_mem_nil, or_false]
  constructor
  · intro every entry member
    exact ⟨every _ ⟨entry, member, Or.inl rfl⟩, every _ ⟨entry, member, Or.inr rfl⟩⟩
  · rintro every part ⟨entry, member, rfl | rfl⟩
    · exact (every entry member).1
    · exact (every entry member).2

theorem forall_mem_insert {q : Item × Item → Prop} {key value : Item}
    (held : ∀ entry ∈ entries, q entry) (fresh : ∀ k, (k == key) = true → q (k, value)) :
    ∀ entry ∈ insert key value entries, q entry := by
  induction entries with
  | nil => exact List.forall_mem_singleton.2 (fresh key (beq_self_eq_true key))
  | cons entry rest ih =>
    obtain ⟨first, later⟩ := List.forall_mem_cons.1 held
    rw [insert]
    split
    · rename_i same
      exact List.forall_mem_cons.2 ⟨fresh _ same, later⟩
    · exact List.forall_mem_cons.2 ⟨first, ih later⟩

theorem erase_subset (key : Item) : erase key entries ⊆ entries := by
  induction entries with
  | nil => exact List.Subset.refl _
  | cons entry rest ih =>
    rw [erase]
    split
    · exact List.subset_cons_self _ _
    · exact List.cons_subset_cons _ ih

theorem get?_mem {key value : Item} (found : get? key entries = some value) :
    ∃ k, (k, value) ∈ entries := by
  induction entries with
  | nil => cases found
  | cons entry rest ih =>
    rw [get?] at found
    split at found
    · cases found
      exact ⟨entry.1, List.mem_cons_self⟩
    · obtain ⟨k, member⟩ := ih found
      exact ⟨k, List.mem_cons_of_mem _ member⟩

end ItemMap

/-! ## Operations on items

One lemma for each operation. None of them is recursive: an operation changes one level of an item
and moves what is inside as it is. -/

namespace Item

section Places

variable {α : Type} {items : List α}

theorem look_ensures (access : Access) (index : Nat) :
    Ensures (fun found => found ∈ items) (look access items index) := by
  unfold look
  split
  · rename_i found here
    exact Ensures.ok (List.mem_of_getElem? here)
  · exact Ensures.error _

theorem replace_ensures (index : Nat) (value : α) :
    Ensures (fun result => ∀ one ∈ result, one ∈ items ∨ one = value)
      (replace items index value) :=
  Ensures.bind_any fun _ => Ensures.pure fun _ => List.mem_or_eq_of_mem_set

theorem takeOut_ensures (index : Nat) :
    Ensures (fun result => ∀ one ∈ result, one ∈ items) (takeOut items index) :=
  Ensures.bind_any fun _ => Ensures.pure fun _ => List.mem_of_mem_eraseIdx

end Places

variable {p : Item → Prop} {item : Item}

theorem composed_map {entries : ItemMap}
    (held : ∀ entry ∈ entries, entry.1.Everywhere p ∧ entry.2.Everywhere p) :
    (Item.map entries).Composed p :=
  composed_of_parts rfl (ItemMap.parts_map_iff.2 held)

theorem ofInteger_isPlain (limit : Nat) (value : Int) :
    Ensures (fun item => item.isPlain = true) (ofInteger limit value) := by
  unfold ofInteger
  split
  · exact Ensures.error _
  · exact Ensures.ok rfl

/-- What is picked out of an item is one of its parts or a byte. -/
theorem pickItem_ensures (limits : Limits) (key item : Item) :
    Ensures (fun picked => picked ∈ item.parts ∨ ∃ byte : UInt8, picked = .integer byte.toNat)
      (pickItem limits key item) := by
  unfold pickItem
  cases item with
  | array items | struct items =>
    exact Ensures.bind_any fun index => (look_ensures _ index).mono fun _ => Or.inl
  | map entries =>
    refine Ensures.bind_any fun _ => ?_
    split
    · rename_i value found
      obtain ⟨k, member⟩ := ItemMap.get?_mem found
      have inside : ∀ entry ∈ entries, entry.2 ∈ (Item.map entries).parts := fun entry there =>
        (ItemMap.parts_map_iff.1 (fun _ part => part) entry there).2
      exact Ensures.pure (Or.inl (inside _ member))
    · exact Ensures.throw _
  | byteString _ | buffer _ =>
    exact Ensures.bind_any fun _ => Ensures.bind_any fun byte => Ensures.pure (Or.inr ⟨byte, rfl⟩)
  | _ => exact Ensures.error _

theorem pickItem_composed (limits : Limits) (key : Item) (every : item.Everywhere p) :
    Ensures (Composed p) (pickItem limits key item) := by
  refine (pickItem_ensures limits key item).mono fun picked source => ?_
  rcases source with part | ⟨byte, rfl⟩
  · exact (every.parts picked part).composed
  · exact composed_of_plain rfl rfl

theorem keys_composed (every : item.Everywhere p) : Ensures (Composed p) item.keys := by
  unfold keys
  cases item with
  | map entries =>
    refine Ensures.ok (composed_of_parts rfl (List.forall_mem_map.2 ?_))
    exact fun entry member => (ItemMap.parts_map_iff.1 every.parts entry member).1
  | _ => exact Ensures.error _

theorem values_composed (every : item.Everywhere p) : Ensures (Composed p) item.values := by
  unfold values
  cases item with
  | array items => exact Ensures.ok (composed_of_parts rfl every.parts)
  | struct items => exact Ensures.ok (composed_of_parts rfl every.parts)
  | map entries =>
    refine Ensures.ok (composed_of_parts rfl (List.forall_mem_map.2 ?_))
    exact fun entry member => (ItemMap.parts_map_iff.1 every.parts entry member).2
  | _ => exact Ensures.error _

/-- Taking an item apart gives the number of its elements and its parts. -/
theorem unpack_ensures (item : Item) :
    Ensures (fun items => ∃ count : Nat, item.elementCount? = some count ∧
      items = .integer count :: item.parts) item.unpack := by
  unfold unpack
  cases item with
  | array _ | struct _ | map _ => exact Ensures.ok ⟨_, rfl, rfl⟩
  | _ => exact Ensures.error _

theorem unpack_composed (every : item.Everywhere p) :
    Ensures (fun items => ∀ one ∈ items, one.Composed p) item.unpack := by
  refine (unpack_ensures item).mono ?_
  rintro items ⟨count, _, rfl⟩
  exact List.forall_mem_cons.2
    ⟨composed_of_plain rfl rfl, fun part member => (every.parts part member).composed⟩

theorem setItem_composed (limits : Limits) {key value : Item} (keyHeld : key.Everywhere p)
    (valueHeld : value.Everywhere p) (every : item.Everywhere p) :
    Ensures (Composed p) (setItem limits key value item) := by
  have replaced {items : List Item} (held : ∀ item ∈ items, item.Everywhere p) (index : Nat) :
      Ensures (fun result => ∀ one ∈ result, one.Everywhere p) (replace items index value) := by
    refine (replace_ensures index value).mono fun result from_ one member => ?_
    rcases from_ one member with old | rfl
    · exact held one old
    · exact valueHeld
  have parts := every.parts
  unfold setItem
  cases item with
  | array items =>
    refine Ensures.bind_any fun index => (replaced parts index).bind fun result held => ?_
    exact Ensures.pure (composed_of_parts rfl held)
  | struct items =>
    refine Ensures.bind_any fun index => (replaced parts index).bind fun result held => ?_
    exact Ensures.pure (composed_of_parts rfl held)
  | map entries =>
    refine Ensures.bind_any fun _ => Ensures.pure (composed_map ?_)
    -- An entry that is replaced keeps its key, which is equal to the new one.
    refine ItemMap.forall_mem_insert (ItemMap.parts_map_iff.1 parts) fun k same => ?_
    rw [eq_of_beq same]
    exact ⟨keyHeld, valueHeld⟩
  | buffer bytes =>
    refine Ensures.bind_any fun _ => Ensures.bind_any fun _ => Ensures.bind_any fun _ => ?_
    exact Ensures.pure (composed_of_plain rfl rfl)
  | _ => exact Ensures.error _

theorem append_composed {element : Item} (elementHeld : element.Everywhere p)
    (every : item.Everywhere p) : Ensures (Composed p) (append element item) := by
  have longer {items : List Item} (held : ∀ item ∈ items, item.Everywhere p) :
      ∀ one ∈ items ++ [element], one.Everywhere p :=
    List.forall_mem_append.2 ⟨held, List.forall_mem_singleton.2 elementHeld⟩
  unfold append
  cases item with
  | array items => exact Ensures.ok (composed_of_parts rfl (longer every.parts))
  | struct items => exact Ensures.ok (composed_of_parts rfl (longer every.parts))
  | _ => exact Ensures.error _

theorem removeItem_composed (limits : Limits) (key : Item) (every : item.Everywhere p) :
    Ensures (Composed p) (removeItem limits key item) := by
  have shorter {items : List Item} (held : ∀ item ∈ items, item.Everywhere p) (index : Nat) :
      Ensures (fun result => ∀ one ∈ result, one.Everywhere p) (takeOut items index) :=
    (takeOut_ensures index).mono fun result from_ one member => held one (from_ one member)
  have parts := every.parts
  unfold removeItem
  cases item with
  | array items =>
    refine Ensures.bind_any fun index => (shorter parts index).bind fun result held => ?_
    exact Ensures.pure (composed_of_parts rfl held)
  | struct items =>
    refine Ensures.bind_any fun index => (shorter parts index).bind fun result held => ?_
    exact Ensures.pure (composed_of_parts rfl held)
  | map entries =>
    refine Ensures.bind_any fun _ => Ensures.pure (composed_map ?_)
    exact fun entry member => ItemMap.parts_map_iff.1 parts entry (ItemMap.erase_subset key member)
  | _ => exact Ensures.error _

theorem reverseItems_composed (every : item.Everywhere p) :
    Ensures (Composed p) item.reverseItems := by
  have reversed {items : List Item} (held : ∀ item ∈ items, item.Everywhere p) :
      ∀ one ∈ items.reverse, one.Everywhere p :=
    fun one member => held one (List.mem_reverse.1 member)
  unfold reverseItems
  cases item with
  | array items => exact Ensures.ok (composed_of_parts rfl (reversed every.parts))
  | struct items => exact Ensures.ok (composed_of_parts rfl (reversed every.parts))
  | buffer bytes => exact Ensures.ok (composed_of_plain rfl rfl)
  | _ => exact Ensures.error _

theorem clearItems_composed (item : Item) : Ensures (Composed p) item.clearItems := by
  unfold clearItems
  cases item with
  | array _ | struct _ | map _ => exact Ensures.ok (composed_of_plain rfl rfl)
  | _ => exact Ensures.error _

theorem convert_composed (limit : Nat) (target : ItemKind) (every : item.Everywhere p) :
    Ensures (Composed p) (item.convert limit target) := by
  unfold convert
  split
  · exact Ensures.ok every.composed
  · split
    all_goals first
      | exact Ensures.ok (composed_of_plain rfl rfl)
      | exact Ensures.map_any fun _ => composed_of_plain rfl rfl
      -- Arrays and structs keep their elements.
      | exact Ensures.ok (composed_of_parts rfl every.parts)
      | exact Ensures.error _

end Item

end GasMachine
