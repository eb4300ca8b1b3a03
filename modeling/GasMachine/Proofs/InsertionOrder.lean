import GasMachine.Proofs.Updates

/-!
# Maps and their histories

A map is made from the empty one by a history of changes. Two things are read off such a history
without a map: what every key stands for in the end (`contentAfter`), and when a key was inserted
for the last time while it was not there (`LastEntered`). The map has the first as its entries and
the second as their order, and every change has given back what its key stood for at that time
(`ItemMap.RecordsHistory`).

The history grows at its end, so what holds of a map is carried from one change to the next
(`Records.run`).
-/

set_option autoImplicit false

namespace GasMachine.ItemMap

variable {key other value found : Item} {entries : ItemMap} {history : List Change}
  {change : Change}

/-! ## What a history tells

The specification, without any map: what keys stand for is a fold over functions, and the time at
which a key was entered is a number. A key that is replaced is not entered again, so the last time
counts at which it was not there. -/

/-- What keys stand for, if they stand for anything. -/
abbrev Content := Item → Option Item

/-- What keys stand for after a change. -/
def Change.apply : Change → Content → Content
  | .insert key value, content => Function.update content key (some value)
  | .erase key, content => Function.update content key none
  | .clear, _ => fun _ => none

/-- What a change gives back where keys stand for something. -/
def Change.answer : Change → Content → Option Item
  | .insert key _, content => content key
  | .erase key, content => content key
  | .clear, _ => none

/-- What keys stand for after changes that have been made one after the other, at first for
nothing. -/
def contentAfter (history : List Change) : Content :=
  history.foldl (fun content change => change.apply content) fun _ => none

@[simp] theorem contentAfter_nil (key : Item) : contentAfter [] key = none := rfl

theorem contentAfter_append (history : List Change) (change : Change) :
    contentAfter (history ++ [change]) = change.apply (contentAfter history) := by
  unfold contentAfter
  rw [List.foldl_append]
  rfl

/-- A change puts in a key that is not there. -/
def Change.Enters (change : Change) (content : Content) (key : Item) : Prop :=
  (∃ value, change = .insert key value) ∧ content key = none

/-- At a time in a history a key is put in that is not there. -/
def EnteredAt (history : List Change) (key : Item) (time : Nat) : Prop :=
  ∃ change, history[time]? = some change ∧ change.Enters (contentAfter (history.take time)) key

/-- The last time in a history at which a key is put in that is not there. -/
def LastEntered (history : List Change) (key : Item) (time : Nat) : Prop :=
  IsGreatest {time | EnteredAt history key time} time

/-! ## One change more

How the last time changes when the history grows by one. A change enters at most the key that it is
about, and it does so now; for all other keys the time is as before. -/

theorem EnteredAt.lt {time : Nat} (entered : EnteredAt history key time) :
    time < history.length := by
  obtain ⟨change, there, _⟩ := entered
  exact (List.getElem?_eq_some_iff.1 there).1

/-- With one change more, a key has been put in at the times as before, and at the new one if this
change does so. -/
theorem enteredAt_append {time : Nat} :
    EnteredAt (history ++ [change]) key time ↔
      EnteredAt history key time ∨
        time = history.length ∧ change.Enters (contentAfter history) key := by
  unfold EnteredAt
  rcases Nat.lt_trichotomy time history.length with before | rfl | after
  · rw [List.getElem?_append_left before, List.take_append_of_le_length (Nat.le_of_lt before)]
    exact (or_iff_left fun late => absurd late.1 (Nat.ne_of_lt before)).symm
  · have old : history[history.length]? = none := List.getElem?_eq_none (Nat.le_refl _)
    have new : (history ++ [change])[history.length]? = some change := List.getElem?_concat_length
    have past : (history ++ [change]).take history.length = history := List.take_left
    rw [new, past, old]
    constructor
    · rintro ⟨_, same, enters⟩
      cases same
      exact .inr ⟨rfl, enters⟩
    · rintro (⟨_, same, _⟩ | ⟨_, enters⟩)
      · cases same
      · exact ⟨change, rfl, enters⟩
  · have longer : (history ++ [change]).length ≤ time := by
      rw [List.length_append, List.length_singleton]
      exact after
    rw [List.getElem?_eq_none longer, List.getElem?_eq_none (Nat.le_of_lt after)]
    constructor
    · rintro ⟨_, same, _⟩
      cases same
    · rintro (⟨_, same, _⟩ | ⟨rfl, _⟩)
      · cases same
      · exact absurd after (Nat.lt_irrefl _)

theorem lastEntered_append_of_enters (enters : change.Enters (contentAfter history) key) :
    LastEntered (history ++ [change]) key history.length := by
  constructor
  · exact enteredAt_append.2 (.inr ⟨rfl, enters⟩)
  · intro time entered
    rcases enteredAt_append.1 entered with earlier | ⟨rfl, _⟩
    · exact Nat.le_of_lt earlier.lt
    · exact Nat.le_refl _

/-- A change that does not put in a key does not alter when the key has been put in. -/
theorem lastEntered_append (change : Change) {time : Nat}
    (apart : ¬ change.Enters (contentAfter history) key) :
    LastEntered (history ++ [change]) key time ↔ LastEntered history key time := by
  have same : {time | EnteredAt (history ++ [change]) key time} =
      {time | EnteredAt history key time} := by
    ext time
    exact enteredAt_append.trans (or_iff_left fun late => apart late.2)
  unfold LastEntered
  rw [same]

/-! ## What changes do to a map

With distinct keys, looking up in the changed list is updating a function at one key. -/

theorem runAll_cons (change : Change) (rest : List Change) (entries : ItemMap) :
    runAll (change :: rest) entries =
      ((change.run entries).1 :: (runAll rest (change.run entries).2).1,
        (runAll rest (change.run entries).2).2) := rfl

theorem runAll_append (history : List Change) (change : Change) (entries : ItemMap) :
    runAll (history ++ [change]) entries =
      ((runAll history entries).1 ++ [(change.run (runAll history entries).2).1],
        (change.run (runAll history entries).2).2) := by
  induction history generalizing entries with
  | nil => rfl
  | cons first rest ih => rw [List.cons_append, runAll_cons, runAll_cons, ih, List.cons_append]

theorem get?_eq_none_iff : get? key entries = none ↔ key ∉ keys entries := by
  rw [← contains_iff_mem_keys, contains, Option.not_isSome_iff_eq_none]

theorem get?_insert (distinct : (keys entries).Nodup) (key value : Item) :
    (get? · (insert key value entries)) =
      Function.update (get? · entries) key (some value) := by
  have update := isUpdate_insert distinct key value
  have after := update.distinct distinct
  funext other
  refine Option.ext fun found => ?_
  rw [get?_eq_some_iff after, mem_insert_iff distinct]
  by_cases own : other = key
  · subst own
    simp [eq_comm]
  · rw [Function.update_of_ne own, get?_eq_some_iff distinct]
    simp [own]

theorem get?_erase (distinct : (keys entries).Nodup) (key : Item) :
    (get? · (erase key entries)) = Function.update (get? · entries) key none := by
  have after : (keys (erase key entries)).Nodup :=
    distinct.sublist ((erase_sublist key entries).map Prod.fst)
  funext other
  refine Option.ext fun found => ?_
  rw [get?_eq_some_iff after, erase_eq_filter distinct]
  by_cases own : other = key
  · subst own
    simp
  · rw [Function.update_of_ne own, get?_eq_some_iff distinct]
    simp [own]

/-! ## What holds along a history

`Records` is the invariant: content, distinct keys, and order by the last time of entry. The order
is the part that needs care. A key that is put in anew goes to the end and has the latest time of
all; a key that is replaced keeps both its place and its time; what is erased leaves the others in
their order (`Records.keeps`). -/

/-- One key has been put in for the last time before another one has. -/
def EnteredBefore (history : List Change) (key other : Item) : Prop :=
  ∃ time later, LastEntered history key time ∧ LastEntered history other later ∧ time < later

/-- A map is what a history has made of the empty one. -/
structure Records (history : List Change) (entries : ItemMap) : Prop where
  distinct : (keys entries).Nodup
  content : (get? · entries) = contentAfter history
  entered : ∀ key ∈ keys entries, ∃ time, LastEntered history key time
  ordered : (keys entries).Pairwise (EnteredBefore history)

namespace Records

theorem get?_eq (records : Records history entries) (key : Item) :
    get? key entries = contentAfter history key :=
  congrFun records.content key

theorem mem_keys_iff (records : Records history entries) :
    key ∈ keys entries ↔ contentAfter history key ≠ none := by
  rw [← records.get?_eq, ← not_iff_not, not_not, get?_eq_none_iff]

/-- A change that puts in no key of those that are left keeps their order. -/
theorem keeps (records : Records history entries) (change : Change) {fewer : ItemMap}
    (sublist : (keys fewer).Sublist (keys entries))
    (apart : ∀ key ∈ keys fewer, ¬ change.Enters (contentAfter history) key) :
    (∀ key ∈ keys fewer, ∃ time, LastEntered (history ++ [change]) key time) ∧
      (keys fewer).Pairwise (EnteredBefore (history ++ [change])) := by
  constructor
  · intro key member
    obtain ⟨time, last⟩ := records.entered key (sublist.subset member)
    exact ⟨time, (lastEntered_append change (apart key member)).2 last⟩
  · refine (records.ordered.sublist sublist).imp_of_mem ?_
    rintro key other member otherMember ⟨time, later, last, otherLast, earlier⟩
    exact ⟨time, later, (lastEntered_append change (apart key member)).2 last,
      (lastEntered_append change (apart other otherMember)).2 otherLast, earlier⟩

/-- A key that is there is not put in. -/
theorem not_enters (records : Records history entries) (member : key ∈ keys entries) :
    ¬ change.Enters (contentAfter history) key :=
  fun enters => records.mem_keys_iff.1 member enters.2

theorem insert (records : Records history entries) (key value : Item) :
    Records (history ++ [.insert key value]) (insert key value entries) := by
  have update := isUpdate_insert records.distinct key value
  have content : (get? · (ItemMap.insert key value entries)) =
      contentAfter (history ++ [.insert key value]) := by
    rw [get?_insert records.distinct, contentAfter_append, records.content]
    rfl
  obtain ⟨entered, ordered⟩ := records.keeps (.insert key value)
    (List.Sublist.refl (keys entries)) fun _ member => records.not_enters member
  by_cases there : key ∈ keys entries
  · -- The keys are as before, and none of them is new.
    have same : keys (ItemMap.insert key value entries) = keys entries := by
      rw [update.order, if_pos there]
    exact ⟨update.distinct records.distinct, content, same ▸ entered, same ▸ ordered⟩
  · -- The new key comes last, and it is put in later than all the others.
    have longer : keys (ItemMap.insert key value entries) = keys entries ++ [key] := by
      rw [update.order, if_neg there]
    have enters : (Change.insert key value).Enters (contentAfter history) key :=
      ⟨⟨value, rfl⟩, not_not.1 fun some => there (records.mem_keys_iff.2 some)⟩
    have last := lastEntered_append_of_enters enters
    refine ⟨update.distinct records.distinct, content, ?_, ?_⟩
    · rw [longer]
      exact List.forall_mem_append.2 ⟨entered, List.forall_mem_singleton.2 ⟨_, last⟩⟩
    · rw [longer]
      refine List.pairwise_append.2 ⟨ordered, List.pairwise_singleton _ _, ?_⟩
      intro old member new isKey
      rw [List.mem_singleton.1 isKey]
      obtain ⟨time, before⟩ := records.entered old member
      have kept := (lastEntered_append (.insert key value)
        (records.not_enters member)).2 before
      exact ⟨time, history.length, kept, last, before.1.lt⟩

theorem erase (records : Records history entries) (key : Item) :
    Records (history ++ [.erase key]) (erase key entries) := by
  have sublist : (keys (ItemMap.erase key entries)).Sublist (keys entries) :=
    (erase_sublist key entries).map Prod.fst
  obtain ⟨entered, ordered⟩ := records.keeps (.erase key) sublist
    fun _ member => records.not_enters (sublist.subset member)
  refine ⟨records.distinct.sublist sublist, ?_, entered, ordered⟩
  rw [get?_erase records.distinct, contentAfter_append, records.content]
  rfl

theorem clear (history : List Change) : Records (history ++ [.clear]) [] := by
  refine ⟨List.nodup_nil, ?_, List.forall_mem_nil _, List.Pairwise.nil⟩
  rw [contentAfter_append]
  rfl

/-- A change of the map goes with the history, and gives back what its key stood for. -/
theorem run (records : Records history entries) (change : Change) :
    Records (history ++ [change]) (change.run entries).2 ∧
      (change.run entries).1 = change.answer (contentAfter history) := by
  cases change with
  | insert key value =>
    rw [Change.run, exchange_eq]
    exact ⟨records.insert key value, records.get?_eq key⟩
  | erase key =>
    rw [Change.run, extract_eq]
    exact ⟨records.erase key, records.get?_eq key⟩
  | clear => exact ⟨clear history, rfl⟩

end Records

theorem records_runAll (history : List Change) : Records history (runAll history []).2 := by
  induction history using List.reverseRecOn with
  | nil => exact ⟨List.nodup_nil, rfl, List.forall_mem_nil _, List.Pairwise.nil⟩
  | append_singleton history change ih =>
    rw [runAll_append]
    exact (ih.run change).1

theorem length_answers (history : List Change) (entries : ItemMap) :
    (runAll history entries).1.length = history.length := by
  induction history generalizing entries with
  | nil => rfl
  | cons change rest ih => rw [runAll_cons, List.length_cons, List.length_cons, ih]

/-- Each change has given back what its key stood for at its time. -/
theorem answer_runAll {time : Nat} (there : history[time]? = some change) :
    (runAll history []).1[time]? = some (change.answer (contentAfter (history.take time))) := by
  induction history using List.reverseRecOn with
  | nil => cases there
  | append_singleton history last ih =>
    have lengths := length_answers history []
    have inside := (List.getElem?_eq_some_iff.1 there).1
    rw [List.length_append, List.length_singleton] at inside
    rw [runAll_append]
    rcases Nat.lt_succ_iff_lt_or_eq.1 inside with before | rfl
    · rw [List.getElem?_append_left before] at there
      rw [List.getElem?_append_left (lengths ▸ before), ih there,
        List.take_append_of_le_length (Nat.le_of_lt before)]
    · rw [List.getElem?_concat_length, Option.some.injEq] at there
      subst there
      rw [← lengths, List.getElem?_concat_length, lengths, List.take_left,
        ((records_runAll history).run last).2]

/-! ## Maps as what they are for -/

/-- What is said of a map and of the answers along the way, if a history has made it of the empty
map. -/
structure RecordsHistory (history : List Change) (answers : List (Option Item))
    (entries : ItemMap) : Prop where
  distinct : (keys entries).Nodup
  found : ∀ key, get? key entries = contentAfter history key
  contained : ∀ key, contains key entries = (contentAfter history key).isSome
  /-- There is an answer for every change, the value that its key had before. -/
  answered : answers.length = history.length ∧
    ∀ (time : Nat) (change : Change), history[time]? = some change →
      answers[time]? = some (change.answer (contentAfter (history.take time)))
  live : ∀ key value, (key, value) ∈ entries ↔ contentAfter history key = some value
  entered : ∀ key ∈ keys entries, ∃ time, LastEntered history key time
  /-- The entries, and so their keys and values, are in the order in which the keys have been put
  in. -/
  ordered : entries.Pairwise fun entry later => EnteredBefore history entry.1 later.1
  keysOrdered : (keys entries).Pairwise (EnteredBefore history)
  valuesOrdered : (values entries).map some = (keys entries).map (contentAfter history)
  counted : entries.length = {key | contentAfter history key ≠ none}.encard

theorem recordsHistory_runAll (history : List Change) :
    RecordsHistory history (runAll history []).1 (runAll history []).2 := by
  have records := records_runAll history
  generalize (runAll history []).2 = entries at records ⊢
  have live (key value : Item) :
      (key, value) ∈ entries ↔ contentAfter history key = some value := by
    rw [← get?_eq_some_iff records.distinct, records.get?_eq]
  constructor
  case distinct => exact records.distinct
  case found => exact records.get?_eq
  case contained => exact fun key => congrArg Option.isSome (records.get?_eq key)
  case answered => exact ⟨length_answers history [], fun _ _ => answer_runAll⟩
  case live => exact live
  case entered => exact records.entered
  case ordered => exact List.pairwise_map.1 records.ordered
  case keysOrdered => exact records.ordered
  case valuesOrdered =>
    unfold values keys
    rw [List.map_map, List.map_map]
    refine List.map_congr_left fun entry member => ?_
    exact ((live entry.1 entry.2).1 member).symm
  case counted =>
    have keyed :
        {key | contentAfter history key ≠ none} = ((keys entries).toFinset : Set Item) := by
      ext key
      exact records.mem_keys_iff.symm.trans List.mem_toFinset.symm
    rw [keyed, Set.encard_coe_eq_coe_finsetCard, List.toFinset_card_of_nodup records.distinct]
    exact congrArg Nat.cast (List.length_map ..).symm

/-- A key that is replaced stays where it is, and one that is erased and put in again goes to the
end. -/
example : keys (runAll [.insert (.integer 2) .null, .insert (.integer 1) .null,
    .insert (.integer 2) (.integer 3)] []).2 = [.integer 2, .integer 1] ∧
    keys (runAll [.insert (.integer 2) .null, .insert (.integer 1) .null, .erase (.integer 2),
    .insert (.integer 2) .null] []).2 = [.integer 1, .integer 2] := by
  decide

end GasMachine.ItemMap
