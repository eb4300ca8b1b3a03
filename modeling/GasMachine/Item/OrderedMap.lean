import GasMachine.Item

/-!
# Ordered maps

The entries of a map item, keys first, in the order in which the keys were first inserted. Keys
occur once: inserting a key that is there replaces the value in its place. Keys are compared as
items, so keys of different kinds are different. Instructions only want the changed map; whoever
wants to know what was there before gets that as well.
-/

set_option autoImplicit false

namespace GasMachine

/-- Entries of a map, in insertion order. -/
abbrev ItemMap := List (Item × Item)

namespace ItemMap

def get? (key : Item) : ItemMap → Option Item
  | [] => none
  | (k, value) :: rest => if k == key then some value else get? key rest

def contains (key : Item) (entries : ItemMap) : Bool := (get? key entries).isSome

/-- Insert an entry at the end, or replace the value of a key that is there. -/
def insert (key value : Item) : ItemMap → ItemMap
  | [] => [(key, value)]
  | (k, v) :: rest => if k == key then (k, value) :: rest else (k, v) :: insert key value rest

def erase (key : Item) : ItemMap → ItemMap
  | [] => []
  | (k, v) :: rest => if k == key then rest else (k, v) :: erase key rest

/-- Insert an entry, and give back the value that it takes the place of. -/
def exchange (key value : Item) : ItemMap → Option Item × ItemMap
  | [] => (none, [(key, value)])
  | (k, v) :: rest =>
    if k == key then (some v, (k, value) :: rest)
    else
      let (previous, inserted) := exchange key value rest
      (previous, (k, v) :: inserted)

@[simp] theorem exchange_eq (key value : Item) (entries : ItemMap) :
    exchange key value entries = (get? key entries, insert key value entries) := by
  induction entries with
  | nil => rfl
  | cons entry rest ih =>
    rw [exchange, get?, insert, ih]
    split <;> rfl

def extract (key : Item) : ItemMap → Option Item × ItemMap
  | [] => (none, [])
  | (k, v) :: rest =>
    if k == key then (some v, rest)
    else
      let (previous, left) := extract key rest
      (previous, (k, v) :: left)

@[simp] theorem extract_eq (key : Item) (entries : ItemMap) :
    extract key entries = (get? key entries, erase key entries) := by
  induction entries with
  | nil => rfl
  | cons entry rest ih =>
    rw [extract, get?, erase, ih]
    split <;> rfl

def keys (entries : ItemMap) : List Item := entries.map Prod.fst

def values (entries : ItemMap) : List Item := entries.map Prod.snd

def ofList (entries : List (Item × Item)) : ItemMap :=
  entries.foldl (fun sofar (key, value) => insert key value sofar) []

/-! ## Changes -/

inductive Change where
  | insert (key value : Item)
  | erase (key : Item)
  | clear
deriving DecidableEq

/-- Carry out a change. Inserting and erasing give back what the key stood for before. -/
def Change.run : Change → ItemMap → Option Item × ItemMap
  | .insert key value, entries => exchange key value entries
  | .erase key, entries => extract key entries
  | .clear, _ => (none, [])

def runAll : List Change → ItemMap → List (Option Item) × ItemMap
  | [], entries => ([], entries)
  | change :: rest, entries =>
    let (answer, changed) := change.run entries
    let (answers, final) := runAll rest changed
    (answer :: answers, final)

end ItemMap

end GasMachine
