import GasMachine.Proofs.Writes

/-!
# Buffered writes and direct writes

A store with layers holds writes back: a removed key hides what lies below, a later write replaces
an earlier one of its layer, and a commit hands the writes on in the order of their keys. None of
this can be told from outside. Every answer is the one of a store that makes each write at once and
goes back to what it held before when a layer is discarded.
-/

set_option autoImplicit false

namespace GasMachine

/-! ## What can be done with a store

The specification is a store without layers. It writes at once and keeps, for every layer that is
open, a copy of what it held at the opening; discarding brings the copy back, and committing throws
it away. -/

/-- A question to a store. -/
inductive Query where
  | entry (key : StorageKey)
  | contract (hash : ScriptHash)
  | hasContract (hash : ScriptHash)

/-- Something to do with a store. -/
inductive StoreAction where
  | write (change : Write)
  | ask (query : Query)
  | begin
  | commit
  | discard

/-- What a store says to it. -/
inductive Response where
  | done
  | value (value : Option Bytes)
  | flag (value : Bool)
deriving DecidableEq

namespace LayeredStore

def ask (store : LayeredStore) : Query → Except StoreError Response
  | .entry key => .value <$> store.getStorage key
  | .contract hash => .value <$> store.getContract hash
  | .hasContract hash => .flag <$> store.hasContract hash

def act (store : LayeredStore) : StoreAction → LayeredStore × Except StoreError Response
  | .write change =>
    match store.write change with
    | .ok after => (after, .ok .done)
    | .error cause => (store, .error cause)
  | .ask query => (store, store.ask query)
  | .begin => (store.begin, .ok .done)
  | .commit =>
    match store.commit with
    | (after, none) => (after, .ok .done)
    | (after, some cause) => (after, .error cause)
  | .discard => (store.discard, .ok .done)

end LayeredStore

/-- A store that makes each write at once. For each open layer it remembers what it held at the
opening, the last one first. -/
structure DirectStore where
  contents : Contents
  opened : List Contents := []

namespace DirectStore

def ask (store : DirectStore) : Query → Response
  | .entry key => .value store.contents.storage[key]?
  | .contract hash => .value store.contents.contracts[hash]?
  | .hasContract hash => .flag store.contents.contracts[hash]?.isSome

def act (store : DirectStore) : StoreAction → DirectStore × Response
  | .write change => ({ store with contents := store.contents.write change }, .done)
  | .ask query => (store, store.ask query)
  | .begin => ({ store with opened := store.contents :: store.opened }, .done)
  | .commit => ({ store with opened := store.opened.tail }, .done)
  | .discard =>
    ({ contents := store.opened.headD store.contents, opened := store.opened.tail }, .done)

end DirectStore

/-- Do one thing after the other; the responses are noted. -/
def actAll {State Action Answer : Type} (act : State → Action → State × Answer) (state : State) :
    List Action → State × List Answer
  | [] => (state, [])
  | action :: rest =>
    let (after, answer) := act state action
    let (final, answers) := actAll act after rest
    (final, answer :: answers)

/-! ## Layers over contents

`Overlaid` relates the two kinds of store layer by layer, from the top down: the current contents
are those at the opening of the top layer with its writes made in them, and the contents at that
opening belong to the layers below in the same way. So each action touches one link of the chain
only, and the rest is carried along. -/

/-- What layers over some contents stand for: what a direct store holds now, and what it held when
each of the layers was opened. -/
def Overlaid (base : Contents) : List ChangeSet → Contents → List Contents → Prop
  | [], current, opened => current = base ∧ opened = []
  | top :: below, current, opened => ∃ start earlier,
      opened = start :: earlier ∧ current = start.writeAll top.writes ∧
        Overlaid base below start earlier

namespace Overlaid

variable {base current : Contents} {layers : List ChangeSet} {opened : List Contents}

theorem length_eq (overlaid : Overlaid base layers current opened) :
    layers.length = opened.length := by
  induction layers generalizing current opened with
  | nil =>
    obtain ⟨_, rfl⟩ := overlaid
    rfl
  | cons top below ih =>
    obtain ⟨start, earlier, rfl, _, under⟩ := overlaid
    exact congrArg (· + 1) (ih under)

/-- The topmost layer that says something of a place decides. -/
theorem valueAt_eq (overlaid : Overlaid base layers current opened) (place : Place) :
    current.valueAt place =
      (layers.findSome? fun layer => layer.value? place).getD (base.valueAt place) := by
  induction layers generalizing current opened with
  | nil =>
    obtain ⟨rfl, _⟩ := overlaid
    rfl
  | cons top below ih =>
    obtain ⟨start, earlier, _, rfl, under⟩ := overlaid
    rw [ChangeSet.valueAt_writeAll, List.findSome?_cons, ih under]
    cases top.value? place <;> rfl

theorem push (overlaid : Overlaid base layers current opened) :
    Overlaid base ({} :: layers) current (current :: opened) :=
  ⟨current, opened, rfl, rfl, overlaid⟩

end Overlaid

/-- A store with layers that stands for a direct store. What it lies over refuses nothing. -/
structure LayeredStore.StandsFor (store : LayeredStore) (direct : DirectStore) : Prop where
  permits : ∀ made request, store.base.refuse made request = none
  overlaid : Overlaid store.base.contents store.layers direct.contents direct.opened

namespace LayeredStore.StandsFor

variable {store : LayeredStore} {direct : DirectStore}

/-! ## Reading

The topmost layer that says something of a place decides. That is an induction on the layers, and it
is done once for places (`Overlaid.valueAt_eq`); entries and contracts are the two kinds of place.
-/

theorem permit_eq (stands : store.StandsFor direct) (request : Request) :
    store.base.permit request = .ok () := by
  unfold Snapshot.permit
  rw [stands.permits]

theorem getStorage_eq (stands : store.StandsFor direct) (key : StorageKey) :
    store.getStorage key = .ok direct.contents.storage[key]? := by
  have there : direct.contents.storage[key]? = _ := stands.overlaid.valueAt_eq (.entry key)
  rw [there]
  unfold getStorage ChangeSet.value?
  cases store.layers.findSome? fun layer => layer.storage[key]? with
  | some written => rfl
  | none =>
    unfold Snapshot.getStorage
    rw [stands.permit_eq]
    rfl

theorem getContract_eq (stands : store.StandsFor direct) (hash : ScriptHash) :
    store.getContract hash = .ok direct.contents.contracts[hash]? := by
  have there : direct.contents.contracts[hash]? = _ := stands.overlaid.valueAt_eq (.contract hash)
  have said : (store.layers.findSome? fun layer => layer.value? (.contract hash)) =
      (store.layers.findSome? fun layer => layer.contracts[hash]?).map some :=
    List.map_findSome?.symm
  rw [there, said]
  unfold getContract
  cases store.layers.findSome? fun layer => layer.contracts[hash]? with
  | some code => rfl
  | none =>
    unfold Snapshot.getContract
    rw [stands.permit_eq]
    rfl

theorem ask_eq (stands : store.StandsFor direct) (query : Query) :
    store.ask query = .ok (direct.ask query) := by
  cases query with
  | entry key =>
    rw [LayeredStore.ask, stands.getStorage_eq]
    rfl
  | contract hash =>
    rw [LayeredStore.ask, stands.getContract_eq]
    rfl
  | hasContract hash =>
    rw [LayeredStore.ask, hasContract, stands.getContract_eq]
    rfl

/-! ## Writing

A write replaces an earlier one of its layer. It can do so because the later of two writes of one
place is the one that counts. -/

theorem write (stands : store.StandsFor direct) (change : Write) :
    ∃ after, store.write change = .ok after ∧
      after.StandsFor { direct with contents := direct.contents.write change } := by
  have passes := stands.permit_eq (.write change)
  obtain ⟨permits, overlaid⟩ := stands
  obtain ⟨layers, base⟩ := store
  cases layers with
  | nil =>
    obtain ⟨here, openings⟩ := overlaid
    refine ⟨{ base := { base with
      contents := base.contents.write change
      made := base.made ++ [change] } }, ?_, permits, ?_, openings⟩
    · rw [LayeredStore.write, Snapshot.write, passes]
      rfl
    · exact congrArg (Contents.write · change) here
  | cons top below =>
    obtain ⟨start, earlier, openings, here, under⟩ := overlaid
    refine ⟨_, rfl, permits, start, earlier, openings, ?_, under⟩
    rw [ChangeSet.writeAll_record]
    exact congrArg (Contents.write · change) here

/-- A write goes through, and so do several. -/
theorem writeAll (stands : store.StandsFor direct) (writes : List Write) :
    ∃ after, store.writeAll writes = (after, none) ∧
      after.StandsFor { direct with contents := direct.contents.writeAll writes } := by
  induction writes generalizing store direct with
  | nil => exact ⟨store, rfl, stands⟩
  | cons change rest ih =>
    obtain ⟨next, written, first⟩ := stands.write change
    obtain ⟨after, all, later⟩ := ih first
    refine ⟨after, ?_, later⟩
    rw [LayeredStore.writeAll, written]
    exact all

/-! ## Layers

A commit is no action of its own: to the layers below, the writes that are handed on are writes like
any others. What remains to be said is that making them in key order comes to what the top layer
stood for. -/

theorem begin (stands : store.StandsFor direct) :
    store.begin.StandsFor { direct with opened := direct.contents :: direct.opened } :=
  ⟨stands.permits, stands.overlaid.push⟩

/-- To the store below, the writes that a commit hands on are writes like any others. -/
theorem commit (stands : store.StandsFor direct) :
    ∃ after, store.commit = (after, none) ∧
      after.StandsFor { direct with opened := direct.opened.tail } := by
  obtain ⟨permits, overlaid⟩ := stands
  obtain ⟨layers, base⟩ := store
  cases layers with
  | nil =>
    obtain ⟨here, openings⟩ := overlaid
    refine ⟨_, rfl, permits, here, ?_⟩
    rw [openings]
    rfl
  | cons top below =>
    obtain ⟨start, earlier, openings, here, under⟩ := overlaid
    -- What lies below stands for the store at the opening of the layer, and its writes lead to now.
    have lower : LayeredStore.StandsFor ⟨below, base⟩ ⟨start, earlier⟩ := ⟨permits, under⟩
    obtain ⟨after, handed, stands⟩ := lower.writeAll top.writes
    refine ⟨after, handed, ?_⟩
    rw [openings, here]
    exact stands

theorem discard (stands : store.StandsFor direct) :
    store.discard.StandsFor
      { contents := direct.opened.headD direct.contents, opened := direct.opened.tail } := by
  obtain ⟨permits, overlaid⟩ := stands
  refine ⟨permits, ?_⟩
  unfold LayeredStore.discard
  cases layers : store.layers with
  | nil =>
    rw [layers] at overlaid
    obtain ⟨here, openings⟩ := overlaid
    rw [openings]
    exact ⟨here, rfl⟩
  | cons top below =>
    rw [layers] at overlaid
    obtain ⟨start, earlier, openings, _, under⟩ := overlaid
    rw [openings]
    exact under

/-! ## Any number of actions

One action keeps `StandsFor` and gets the response of the direct store; sequences follow by
induction, with both stores as they are after the first action. -/

/-- Each action gets the response of the direct store, and afterwards the one store stands for the
other again. -/
theorem act (stands : store.StandsFor direct) (action : StoreAction) :
    (store.act action).2 = .ok (direct.act action).2 ∧
      (store.act action).1.StandsFor (direct.act action).1 := by
  cases action with
  | write change =>
    obtain ⟨after, written, later⟩ := stands.write change
    rw [LayeredStore.act, written]
    exact ⟨rfl, later⟩
  | ask query => exact ⟨stands.ask_eq query, stands⟩
  | begin => exact ⟨rfl, stands.begin⟩
  | commit =>
    obtain ⟨after, committed, later⟩ := stands.commit
    rw [LayeredStore.act, committed]
    exact ⟨rfl, later⟩
  | discard => exact ⟨rfl, stands.discard⟩

theorem actAll (stands : store.StandsFor direct) (actions : List StoreAction) :
    (actAll LayeredStore.act store actions).2 =
        (actAll DirectStore.act direct actions).2.map .ok ∧
      (actAll LayeredStore.act store actions).1.StandsFor
        (actAll DirectStore.act direct actions).1 := by
  induction actions generalizing store direct with
  | nil => exact ⟨rfl, stands⟩
  | cons action rest ih =>
    obtain ⟨answer, later⟩ := stands.act action
    obtain ⟨answers, final⟩ := ih later
    refine ⟨?_, final⟩
    rw [GasMachine.actAll, GasMachine.actAll, List.map_cons, ← answers, ← answer]

end LayeredStore.StandsFor

namespace LayeredStore

/-- Whatever is done with layers over a snapshot that refuses nothing: nothing fails, every response
is the one of the direct store, there are as many layers as the direct store has openings to go back
to, and once there are none, both hold the same. -/
theorem actAll_eq_direct (contents : Contents) (actions : List StoreAction) :
    let layered := actAll act { base := { contents } } actions
    let direct := actAll DirectStore.act { contents } actions
    layered.2 = direct.2.map .ok ∧
      layered.1.layers.length = direct.1.opened.length ∧
      (layered.1.layers = [] → layered.1.base.contents = direct.1.contents) := by
  have start : LayeredStore.StandsFor { base := { contents } } { contents } :=
    ⟨fun _ _ => rfl, rfl, rfl⟩
  obtain ⟨responses, permits, overlaid⟩ := start.actAll actions
  refine ⟨responses, overlaid.length_eq, ?_⟩
  intro closed
  rw [closed] at overlaid
  exact overlaid.1.symm

/-- The value of a key is removed in a layer that is discarded, and replaced in one that is
committed to another layer. -/
def nestedActions (key : StorageKey) : List StoreAction :=
  [.begin, .begin, .write (.delete key), .ask (.entry key), .discard, .ask (.entry key),
    .begin, .write (.put key [2]), .commit, .ask (.entry key), .commit]

theorem actAll_nestedActions :
    let key : StorageKey := ⟨Hash.zero, [0x6b]⟩
    let contents : Contents := { storage := Std.ExtTreeMap.empty.insert key [1] }
    let layered := actAll act { base := { contents } } (nestedActions key)
    let direct := actAll DirectStore.act { contents } (nestedActions key)
    layered.1.layers = [] ∧
      direct.2.filter (· != .done) = [.value none, .value (some [1]), .value (some [2])] ∧
      layered.2 = direct.2.map .ok ∧ layered.1.base.contents = direct.1.contents := by
  have closed : (actAll act
      { base := { contents := { storage := Std.ExtTreeMap.empty.insert ⟨Hash.zero, [0x6b]⟩ [1] } } }
      (nestedActions ⟨Hash.zero, [0x6b]⟩)).1.layers = [] := by
    decide +kernel
  obtain ⟨responses, _, same⟩ := actAll_eq_direct
    { storage := Std.ExtTreeMap.empty.insert ⟨Hash.zero, [0x6b]⟩ [1] }
    (nestedActions ⟨Hash.zero, [0x6b]⟩)
  exact ⟨closed, by decide +kernel, responses, same closed⟩

end LayeredStore

end GasMachine
