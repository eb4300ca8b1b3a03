import GasMachine.Json.Double

/-!
# Reading documents as values

A reading says which documents stand for a value of some type. It is given the number of
containers that may still be opened, which bounds nesting wherever a value is wanted; what a record
does not ask for is not looked at.

A record is an object whose known members occur at most once, or an array of its fields in order.
Unknown members are ignored; fields left out at the end of the array count as left out.
-/

set_option autoImplicit false

namespace GasMachine.Json

/-- Containers that may be opened inside each other. -/
def maxNesting : Nat := 127

mutual

/-- The value of a document. Of two members with one key the later one counts. -/
def Document.toJson? : Nat → Document → Option Json
  | _, .null => some .null
  | _, .bool value => some (.bool value)
  | _, .number numeral => numeral.toJson?
  | _, .text raw => raw.decode?.map .string
  | budget + 1, .array items => (Document.itemsToJson? budget items).map .array
  | budget + 1, .object members => (Document.membersToJson? budget [] members).map .object
  | 0, .array _ => none
  | 0, .object _ => none

def Document.itemsToJson? : Nat → List Document → Option (List Json)
  | _, [] => some []
  | budget, item :: rest => do
    let value ← Document.toJson? budget item
    return value :: (← Document.itemsToJson? budget rest)

def Document.membersToJson? : Nat → List (String × Json) → List (RawText × Document) →
    Option (List (String × Json))
  | _, sofar, [] => some sofar
  | budget, sofar, (key, value) :: rest => do
    let key ← key.decode?
    let value ← Document.toJson? budget value
    Document.membersToJson? budget (insertMember key value sofar) rest

end

/-- Which documents stand for a value of the type. -/
abbrev Reading (α : Type) := Nat → Document → Option α

namespace Reading

variable {α : Type}

def json : Reading Json := Document.toJson?

def int (low high : Int) : Reading Int
  | _, .number numeral => do
    let n ← numeral.toInt?
    if low ≤ n ∧ n ≤ high then some n else none
  | _, _ => none

def word : Reading Nat := fun budget doc =>
  (int 0 (2 ^ 64 - 1) budget doc).map Int.toNat

def signedWord : Reading Int := int (-(2 ^ 63)) (2 ^ 63 - 1)

def text : Reading String
  | _, .text raw => raw.decode?
  | _, _ => none

def nullable (value : Reading α) : Reading (Option α)
  | _, .null => some none
  | budget, doc => (value budget doc).map some

def list (item : Reading α) : Reading (List α)
  | budget + 1, .array items => items.mapM (item budget)
  | _, _ => none

/-- Put an entry in its place by key; an entry of the same key is replaced. -/
def insertEntry (key : String) (value : α) : List (String × α) → List (String × α)
  | [] => [(key, value)]
  | (k, v) :: rest =>
    if key = k then (key, value) :: rest
    else if key < k then (key, value) :: (k, v) :: rest
    else (k, v) :: insertEntry key value rest

/-- An object as a table, in key order. Of two members with one key the later one counts. -/
def table (value : Reading α) : Reading (List (String × α))
  | budget + 1, .object members =>
    members.foldlM
      (fun entries (key, doc) => do
        let key ← key.decode?
        let value ← value budget doc
        return insertEntry key value entries)
      []
  | _, _ => none

abbrev Fields := List (String × Document)

/-- A record with the given field names. -/
def record (names : List String) (build : Nat → Fields → Option α) : Reading α
  | budget + 1, .array items =>
    if items.length ≤ names.length then build budget (names.zip items) else none
  | budget + 1, .object members => do
    let named ← members.mapM fun (key, doc) => do
      return ((← key.decode?), doc)
    let known := named.filter fun field => names.contains field.1
    if (known.map Prod.fst).Nodup then build budget known else none
  | _, _ => none

def Fields.required (fields : Fields) (budget : Nat) (name : String) (value : Reading α) :
    Option α := do
  value budget (← fields.lookup name)

def Fields.withDefault (fields : Fields) (budget : Nat) (name : String) (value : Reading α)
    (default : α) : Option α :=
  match fields.lookup name with
  | some doc => value budget doc
  | none => some default

def ofText? (value : Reading α) (text : String) : Option α := do
  value maxNesting (← Document.parse? text)

end Reading

end GasMachine.Json
