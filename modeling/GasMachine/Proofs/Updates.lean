import GasMachine.Proofs.Shape

/-!
# Updates of lists and maps

What replacing one element and what inserting an entry come to, said place by place and key by key:
the new value is there, and all else is as before. Lists of the same length are the same if they are
so at every place, and maps with the same distinct keys in the same order are the same if they have
the same entries, so this leaves nothing open (`Item.replace_eq_ok_iff`, `ItemMap.insert_eq_iff`).
What is removed is told by what is left: the others, in their order.
-/

set_option autoImplicit false

namespace GasMachine

/-! ## Lists

Said place by place, an update is unique: lists of one length that agree everywhere are equal. That
makes an equivalence of what would otherwise be a consequence. -/

section Lists

variable {α : Type} {items updated : List α} {index : Nat} {value : α}

/-- One element of a list has another value, and the others are as before. -/
structure IsUpdate (items : List α) (index : Nat) (value : α) (updated : List α) : Prop where
  inside : index < items.length
  length : updated.length = items.length
  there : updated[index]? = some value
  elsewhere : ∀ place, place ≠ index → updated[place]? = items[place]?

theorem isUpdate_set (inside : index < items.length) (value : α) :
    IsUpdate items index value (items.set index value) := by
  constructor
  case inside => exact inside
  case length => exact List.length_set
  case there => exact List.getElem?_set_self inside
  case elsewhere => exact fun place apart => List.getElem?_set_ne apart.symm

theorem IsUpdate.eq_set (update : IsUpdate items index value updated) :
    updated = items.set index value := by
  have same := isUpdate_set update.inside value
  refine List.ext_getElem? fun place => ?_
  by_cases here : place = index
  · subst here
    rw [update.there, same.there]
  · rw [update.elsewhere place here, same.elsewhere place here]

namespace Item

theorem look_of_lt (access : Access) (inside : index < items.length) :
    look access items index = .ok items[index] := by
  unfold look
  rw [List.getElem?_eq_getElem inside]

theorem look_eq_ok_iff {access : Access} :
    look access items index = .ok value ↔ items[index]? = some value := by
  unfold look
  split
  · rename_i found there
    rw [there, Except.ok.injEq, Option.some.injEq]
  · rename_i nothing
    rw [nothing]
    exact iff_of_false nofun nofun

/-- Replacing an element inside a list is an update. -/
theorem replace_eq_ok_iff (inside : index < items.length) :
    replace items index value = .ok updated ↔ IsUpdate items index value updated := by
  have made : replace items index value = .ok (items.set index value) := by
    unfold replace
    rw [look_of_lt .place inside]
    rfl
  rw [made, Except.ok.injEq]
  constructor
  · rintro rfl
    exact isUpdate_set inside value
  · exact fun update => update.eq_set.symm

/-- Taking out an element inside a list leaves what is before it and what is behind it. -/
theorem takeOut_eq_ok_iff (inside : index < items.length) :
    takeOut items index = .ok updated ↔ ∃ before found behind,
      items = before ++ found :: behind ∧ before.length = index ∧ updated = before ++ behind := by
  have made : takeOut items index = .ok (items.eraseIdx index) := by
    unfold takeOut
    rw [look_of_lt .removal inside]
    rfl
  rw [made, Except.ok.injEq]
  constructor
  · rintro rfl
    refine ⟨items.take index, items[index], items.drop (index + 1), ?_, ?_, ?_⟩
    · rw [List.cons_getElem_drop_succ, List.take_append_drop]
    · exact List.length_take_of_le (Nat.le_of_lt inside)
    · exact List.eraseIdx_eq_take_drop_succ _ _
  · rintro ⟨before, found, behind, rfl, rfl, rfl⟩
    rw [List.eraseIdx_append_of_length_le (Nat.le_refl _), Nat.sub_self]
    rfl

end Item

end Lists

/-! ## Maps

For maps the places are the keys, which have to be distinct, and the order counts as well. -/

namespace ItemMap

variable {key other value found : Item} {entries updated : ItemMap}

/-- A key has a value, all other entries are as before, and a new key comes last. -/
structure IsUpdate (entries : ItemMap) (key value : Item) (updated : ItemMap) : Prop where
  length : updated.length = if key ∈ keys entries then entries.length else entries.length + 1
  there : (key, value) ∈ updated
  elsewhere : ∀ other found, other ≠ key → ((other, found) ∈ updated ↔ (other, found) ∈ entries)
  order : keys updated = if key ∈ keys entries then keys entries else keys entries ++ [key]

theorem mem_keys_of_mem (member : (key, value) ∈ entries) : key ∈ keys entries :=
  List.mem_map.2 ⟨(key, value), member, rfl⟩

theorem distinct_cons {entry : Item × Item} :
    (keys (entry :: entries)).Nodup ↔ entry.1 ∉ keys entries ∧ (keys entries).Nodup :=
  List.nodup_cons

/-- Where keys are distinct, what is found is what is there. -/
theorem get?_eq_some_iff (distinct : (keys entries).Nodup) :
    get? key entries = some value ↔ (key, value) ∈ entries := by
  induction entries with
  | nil => exact iff_of_false nofun List.not_mem_nil
  | cons entry rest ih =>
    obtain ⟨first, held⟩ := entry
    obtain ⟨fresh, distinct⟩ := distinct_cons.1 distinct
    rw [get?, List.mem_cons, Prod.mk.injEq]
    split
    · rename_i same
      obtain rfl := eq_of_beq same
      have gone : (first, value) ∉ rest := fun member => fresh (mem_keys_of_mem member)
      simp [gone, eq_comm]
    · rename_i differs
      have apart : key ≠ first := fun same => differs (beq_iff_eq.2 same.symm)
      rw [ih distinct]
      simp [apart]

theorem mem_insert_iff (distinct : (keys entries).Nodup) :
    (other, found) ∈ insert key value entries ↔
      other = key ∧ found = value ∨ other ≠ key ∧ (other, found) ∈ entries := by
  induction entries with
  | nil => simp [insert]
  | cons entry rest ih =>
    obtain ⟨first, held⟩ := entry
    obtain ⟨fresh, distinct⟩ := distinct_cons.1 distinct
    rw [insert]
    split
    · rename_i same
      obtain rfl := eq_of_beq same
      have gone (member : (other, found) ∈ rest) : other ≠ first := by
        rintro rfl
        exact fresh (mem_keys_of_mem member)
      simp only [List.mem_cons, Prod.mk.injEq]
      grind
    · rename_i differs
      have apart : first ≠ key := fun same => differs (beq_iff_eq.2 same)
      simp only [List.mem_cons, Prod.mk.injEq, ih distinct]
      grind

theorem isUpdate_insert (distinct : (keys entries).Nodup) (key value : Item) :
    IsUpdate entries key value (insert key value entries) := by
  have order := keys_insert key value entries
  have lengths := length_insert key value entries
  simp only [contains_iff_mem_keys] at order lengths
  constructor
  case length => exact lengths
  case there => exact (mem_insert_iff distinct).2 (.inl ⟨rfl, rfl⟩)
  case elsewhere =>
    intro other found apart
    rw [mem_insert_iff distinct]
    simp [apart]
  case order => exact order

/-- A new key is not among the others. -/
theorem IsUpdate.distinct (update : IsUpdate entries key value updated)
    (distinct : (keys entries).Nodup) : (keys updated).Nodup := by
  rw [update.order]
  split
  · exact distinct
  · rename_i fresh
    refine List.nodup_append.2 ⟨distinct, List.nodup_singleton key, ?_⟩
    rintro other member _ only rfl
    exact fresh (List.mem_singleton.1 only ▸ member)

/-- Maps with the same distinct keys in the same order are the same if one has the entries of the
other. -/
theorem eq_of_keys_eq (distinct : (keys entries).Nodup) (same : keys updated = keys entries)
    (inside : ∀ entry ∈ entries, entry ∈ updated) : updated = entries := by
  induction entries generalizing updated with
  | nil => exact List.map_eq_nil_iff.1 same
  | cons entry rest ih =>
    obtain ⟨first, others, rfl, head, tail⟩ := List.map_eq_cons_iff.1 same
    obtain ⟨fresh, distinct⟩ := distinct_cons.1 distinct
    -- The first key is not among those of the others, so only the first entry can have it.
    have apart (one : Item × Item) (member : one ∈ others) : one.1 ≠ entry.1 := by
      intro equal
      have key := mem_keys_of_mem (show (one.1, one.2) ∈ others from member)
      rw [show keys others = keys rest from tail, equal] at key
      exact fresh key
    have first_eq : entry = first :=
      (List.mem_cons.1 (inside entry List.mem_cons_self)).resolve_right
        fun member => apart entry member rfl
    subst first_eq
    rw [ih distinct tail fun one member => ?_]
    refine (List.mem_cons.1 (inside one (List.mem_cons_of_mem _ member))).resolve_left ?_
    rintro rfl
    exact fresh (mem_keys_of_mem member)

theorem insert_eq_iff (distinct : (keys entries).Nodup) :
    insert key value entries = updated ↔ IsUpdate entries key value updated := by
  have made := isUpdate_insert distinct key value
  constructor
  · rintro rfl
    exact made
  · intro update
    refine eq_of_keys_eq (update.distinct distinct) (made.order.trans update.order.symm) ?_
    rintro ⟨other, found⟩ member
    by_cases own : other = key
    · subst own
      have keyed := update.distinct distinct
      have first := (get?_eq_some_iff keyed).2 member
      rw [(get?_eq_some_iff keyed).2 update.there, Option.some.injEq] at first
      exact first ▸ made.there
    · exact (made.elsewhere other found own).2 ((update.elsewhere other found own).1 member)

/-- Where keys are distinct, erasing one leaves the entries with other keys. -/
theorem erase_eq_filter (distinct : (keys entries).Nodup) (key : Item) :
    erase key entries = entries.filter fun entry => entry.1 ≠ key := by
  induction entries with
  | nil => rfl
  | cons entry rest ih =>
    obtain ⟨first, held⟩ := entry
    obtain ⟨fresh, distinct⟩ := distinct_cons.1 distinct
    rw [erase]
    split
    · rename_i same
      obtain rfl := eq_of_beq same
      rw [List.filter_cons_of_neg (by simp)]
      refine (List.filter_eq_self.2 fun entry member => decide_eq_true ?_).symm
      rintro rfl
      exact fresh (mem_keys_of_mem member)
    · rename_i differs
      have apart : first ≠ key := fun same => differs (beq_iff_eq.2 same)
      rw [List.filter_cons_of_pos (by simpa using apart), ih distinct]

end ItemMap

end GasMachine
