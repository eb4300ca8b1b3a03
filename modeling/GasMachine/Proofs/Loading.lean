import GasMachine.Config
import GasMachine.Proofs.JsonText

/-!
# Configurations loaded

The text of a configuration is loaded as that configuration if its ceilings are positive and its
free gas is not negative, and is refused for what is wrong with it otherwise. What is left out of
the text, a ceiling, all ceilings or the free gas, is standard in what is loaded, which is checked
in the same way; a text without what it would be refused for is loaded. And whatever a text says,
what is loaded from it has been checked.

The text of a value is read as its document (`Json.parse?_of_mem_texts`), so that only documents of
records are left to look at: fields that have been written are the fields that are read, and those
that have been left out are not found.
-/

set_option autoImplicit false

namespace GasMachine

namespace Json

/-! ## Members left out

Leaving members out is a function on values, and nothing left out is a special case of it. So what
is shown for any omission holds of the whole text too. -/

mutual

/-- A value without the members of certain names, in all of its objects. -/
def without (omitted : String → Bool) : Json → Json
  | .array items => .array (itemsWithout omitted items)
  | .object members => .object (membersWithout omitted members)
  | value => value

def itemsWithout (omitted : String → Bool) : List Json → List Json
  | [] => []
  | item :: rest => without omitted item :: itemsWithout omitted rest

def membersWithout (omitted : String → Bool) : List (String × Json) → List (String × Json)
  | [] => []
  | (key, value) :: rest =>
    if omitted key then membersWithout omitted rest
    else (key, without omitted value) :: membersWithout omitted rest

end

mutual

theorem without_nothing : ∀ json : Json, json.without (fun _ => false) = json
  | .null | .bool _ | .int _ | .double _ | .string _ => rfl
  | .array items => congrArg Json.array (itemsWithout_nothing items)
  | .object members => congrArg Json.object (membersWithout_nothing members)

theorem itemsWithout_nothing : ∀ items : List Json, itemsWithout (fun _ => false) items = items
  | [] => rfl
  | item :: rest => congrArg₂ List.cons (without_nothing item) (itemsWithout_nothing rest)

theorem membersWithout_nothing : ∀ members : List (String × Json),
    membersWithout (fun _ => false) members = members
  | [] => rfl
  | (key, value) :: rest =>
    congrArg₂ (fun value rest => (key, value) :: rest) (without_nothing value)
      (membersWithout_nothing rest)

end

/-! ## Records read

The reader of records looks fields up by name and in no particular order, so a document matters only
as the fields in it. What is said here is said of any record, with its fields as a parameter. -/

namespace Reading

variable {α : Type}

/-- The fields that are not left out. -/
def Fields.without (fields : Fields) (omitted : String → Bool) : Fields :=
  fields.filter fun field => !omitted field.1

theorem Fields.lookup_without (fields : Fields) (omitted : String → Bool) (name : String) :
    (fields.without omitted).lookup name = if omitted name then none else fields.lookup name := by
  unfold Fields.without
  induction fields with
  | nil => simp
  | cons field rest ih => grind

/-- The fields as members of an object. -/
def Fields.written (fields : Fields) : List (RawText × Document) :=
  fields.map fun field => (RawText.ofString field.1, field.2)

/-- What a field with a default is read as, if it has been left out and if it has not. -/
theorem Fields.withDefault_without {fields : Fields} {name : String} {doc : Document}
    {budget : Nat} {value : Reading α} {given : α} (default : α) (omitted : String → Bool)
    (found : fields.lookup name = some doc) (read : value budget doc = some given) :
    (fields.without omitted).withDefault budget name value default =
      some (if omitted name then default else given) := by
  rw [withDefault, lookup_without, found]
  cases omitted name
  · exact read
  · rfl

theorem mapM_written (fields : Fields) :
    (fields.written.mapM fun (key, doc) => do return ((← key.decode?), doc)) = some fields := by
  have each (field : String × Document) :
      (do return ((← (RawText.ofString field.1).decode?), field.2)) = some field := by
    rw [RawText.decode?_ofString]
    rfl
  rw [Fields.written, List.mapM_map]
  simp only [Function.comp_def, each]
  exact List.mapM_pure.trans (congrArg some (List.map_id fields))

/-- A record whose fields have been written, some of them left out. -/
theorem record_written {names : List String} {build : Nat → Fields → Option α} {budget : Nat}
    {fields : Fields} (named : fields.map Prod.fst = names) (distinct : names.Nodup)
    (omitted : String → Bool) :
    record names build (budget + 1) (.object (fields.without omitted).written) =
      build budget (fields.without omitted) := by
  have known : ((fields.without omitted).filter fun field => names.contains field.1) =
      fields.without omitted := by
    rw [List.filter_eq_self]
    intro field member
    rw [List.contains_iff_mem, ← named]
    exact List.mem_map_of_mem (List.mem_of_mem_filter member)
  have unique : ((fields.without omitted).map Prod.fst).Nodup :=
    (named ▸ distinct).sublist (List.filter_sublist.map _)
  rw [record, mapM_written]
  show (if (List.map Prod.fst (List.filter _ _)).Nodup then _ else _) = _
  rw [known, if_pos unique]

theorem int_ofInt {budget : Nat} {low high n : Int} (above : low ≤ n) (below : n ≤ high)
    (fits : -(2 ^ 63) ≤ n ∧ n < 2 ^ 64) :
    int low high budget (.number (Numeral.ofInt n)) = some n := by
  rw [int, Numeral.toInt?_ofInt fits.1 fits.2]
  exact if_pos ⟨above, below⟩

theorem word_ofInt {budget n : Nat} (fits : n < 2 ^ 64) :
    word budget (.number (Numeral.ofInt n)) = some n := by
  rw [word, int_ofInt (by omega) (by omega) (by omega)]
  rfl

theorem signedWord_ofInt {budget : Nat} {n : Int} (low : -(2 ^ 63) ≤ n) (high : n < 2 ^ 63) :
    signedWord budget (.number (Numeral.ofInt n)) = some n :=
  int_ofInt low (by omega) (by omega)

theorem int_bounds {low high value : Int} {budget : Nat} {doc : Document}
    (read : int low high budget doc = some value) : low ≤ value ∧ value ≤ high := by
  cases doc with
  | number numeral =>
    obtain ⟨n, -, bounded⟩ := Option.bind_eq_some_iff.1 read
    obtain ⟨bounds, same⟩ := Option.ite_none_right_eq_some.1 bounded
    exact Option.some.inj same ▸ bounds
  | _ => cases read

theorem word_lt {budget n : Nat} {doc : Document} (read : word budget doc = some n) :
    n < 2 ^ 64 := by
  obtain ⟨value, found, rfl⟩ := Option.map_eq_some_iff.1 read
  have bounds := int_bounds found
  omega

/-- What a record is read as has been built from fields, in whichever way these were written. -/
theorem exists_build_of_record {names : List String} {build : Nat → Fields → Option α}
    {budget : Nat} {doc : Document} {value : α}
    (read : record names build budget doc = some value) :
    ∃ budget fields, build budget fields = some value := by
  cases budget with
  | zero => cases doc <;> cases read
  | succ budget =>
    cases doc with
    | array items =>
      obtain ⟨-, built⟩ := Option.ite_none_right_eq_some.1 read
      exact ⟨budget, _, built⟩
    | object members =>
      obtain ⟨named, -, unique⟩ := Option.bind_eq_some_iff.1 read
      obtain ⟨-, built⟩ := Option.ite_none_right_eq_some.1 unique
      exact ⟨budget, _, built⟩
    | _ => cases read

theorem withDefault_sound (post : α → Prop) {fields : Fields} {budget : Nat} {name : String}
    {reading : Reading α} {default given : α} (holds : post default)
    (sound : ∀ budget doc value, reading budget doc = some value → post value)
    (read : fields.withDefault budget name reading default = some given) : post given := by
  rw [Fields.withDefault] at read
  split at read
  · exact sound _ _ _ read
  · exact Option.some.inj read ▸ holds

end Reading

/-- The documents of the members, some names left out in them, are the fields. -/
def AreFields (omitted : String → Bool) : List (String × Json) → Reading.Fields → Prop :=
  List.Forall₂ fun member field =>
    member.1 = field.1 ∧ (member.2.without omitted).document? = some field.2

theorem document?_without {omitted : String → Bool} {members : List (String × Json)}
    {fields : Reading.Fields} (each : AreFields omitted members fields) :
    ((Json.object members).without omitted).document? =
      some (.object (fields.without omitted).written) := by
  suffices memberDocuments? (membersWithout omitted members) =
      some (fields.without omitted).written from congrArg (Option.map Document.object) this
  -- A member that is left out is one field less on the other side, too.
  induction each with
  | nil => rfl
  | @cons member field members fields same each ih =>
    obtain ⟨key, value⟩ := member
    obtain ⟨name, doc⟩ := field
    obtain ⟨rfl, written⟩ := same
    simp only [membersWithout, Reading.Fields.without, Reading.Fields.written] at *
    cases drop : omitted key
    · simp [memberDocuments?, written, ih, drop]
    · simp [ih, drop]

end Json

/-! ## Configurations

The two records of a configuration, the inner one as a field of the outer one. All that they have in
common was shown above; what is left are the names, which are distinct, and the ranges of the
numbers. -/

namespace Limits

/-- Something holds of every ceiling. -/
structure Each (property : Nat → Prop) (limits : Limits) : Prop where
  stackSize : property limits.stackSize
  invocationDepth : property limits.invocationDepth
  arraySize : property limits.arraySize
  itemSize : property limits.itemSize
  integerSize : property limits.integerSize
  mapKeySize : property limits.mapKeySize

theorem each_iff {property : Nat → Prop} {limits : Limits} :
    limits.Each property ↔ ∀ field ∈ limits.fields, property field.2 := by
  simp only [fields, List.forall_mem_cons]
  exact ⟨fun ⟨a, b, c, d, e, f⟩ => ⟨a, b, c, d, e, f, List.forall_mem_nil _⟩,
    fun ⟨a, b, c, d, e, f, _⟩ => ⟨a, b, c, d, e, f⟩⟩

/-- The ceilings with the standard ones in the place of those left out. -/
def withDefaults (omitted : String → Bool) (limits : Limits) : Limits :=
  let standard : Limits := {}
  { stackSize := if omitted "max_stack_size" then standard.stackSize else limits.stackSize
    invocationDepth :=
      if omitted "max_invocation_depth" then standard.invocationDepth else limits.invocationDepth
    arraySize := if omitted "max_array_size" then standard.arraySize else limits.arraySize
    itemSize := if omitted "max_item_size" then standard.itemSize else limits.itemSize
    integerSize := if omitted "max_integer_size" then standard.integerSize else limits.integerSize
    mapKeySize := if omitted "max_map_key_size" then standard.mapKeySize else limits.mapKeySize }

open Json Json.Reading

/-- The fields that the ceilings are written as. -/
def written (limits : Limits) : Fields :=
  limits.fields.map fun field => (field.1, .number (Numeral.ofInt field.2))

theorem document?_toJson_without (limits : Limits) (omitted : String → Bool) :
    (limits.toJson.without omitted).document? =
      some (.object (limits.written.without omitted).written) := by
  apply document?_without
  rw [AreFields, written, List.forall₂_map_left_iff, List.forall₂_map_right_iff, List.forall₂_same]
  exact fun field _ => ⟨rfl, rfl⟩

theorem reading_written {limits : Limits} (fits : limits.Each (· < 2 ^ 64)) (budget : Nat)
    (omitted : String → Bool) :
    reading (budget + 1) (.object (limits.written.without omitted).written) =
      some (limits.withDefaults omitted) := by
  have field {value : Nat} (name : String) (default : Nat)
      (found : limits.written.lookup name = some (.number (Numeral.ofInt value)))
      (fits : value < 2 ^ 64) :
      (limits.written.without omitted).withDefault budget name word default =
        some (if omitted name then default else value) :=
    Fields.withDefault_without default omitted found (word_ofInt fits)
  have names : limits.written.map Prod.fst = (fields {}).map Prod.fst := rfl
  rw [reading, record_written names (by decide)]
  simp only [field "max_stack_size" _ rfl fits.stackSize,
    field "max_invocation_depth" _ rfl fits.invocationDepth,
    field "max_array_size" _ rfl fits.arraySize, field "max_item_size" _ rfl fits.itemSize,
    field "max_integer_size" _ rfl fits.integerSize,
    field "max_map_key_size" _ rfl fits.mapKeySize]
  rfl

theorem each_of_reading {budget : Nat} {doc : Document} {limits : Limits}
    (read : reading budget doc = some limits) : limits.Each (· < 2 ^ 64) := by
  obtain ⟨budget, fields, built⟩ := exists_build_of_record read
  simp only [Option.bind_eq_bind, Option.bind_eq_some_iff, Option.pure_def,
    Option.some.injEq] at built
  obtain ⟨stackSize, a, invocationDepth, b, arraySize, c, itemSize, d, integerSize, e,
    mapKeySize, f, rfl⟩ := built
  have fits {name : String} {default value : Nat} (standard : default < 2 ^ 64)
      (read : fields.withDefault budget name word default = some value) : value < 2 ^ 64 :=
    withDefault_sound (· < 2 ^ 64) standard (fun _ _ _ => word_lt) read
  exact ⟨fits (by decide) a, fits (by decide) b, fits (by decide) c, fits (by decide) d,
    fits (by decide) e, fits (by decide) f⟩

end Limits

namespace Config

open Json Json.Reading

/-! ### Checked

A configuration is refused for the first ceiling that is zero and for its free gas only if there is
none, but whatever it is refused for is true of it. That is enough to tell what is accepted. -/

/-- Every ceiling is positive and the free gas is not negative. -/
structure Sound (config : Config) : Prop where
  limits : config.limits.Each (0 < ·)
  freeGas : 0 ≤ config.freeGas

/-- The configuration has what it is refused for. -/
def Invalid.Holds (config : Config) : Invalid → Prop
  | .zeroLimit name => (name, 0) ∈ config.limits.fields
  | .negativeFreeGas freeGas => config.freeGas = freeGas ∧ freeGas < 0

theorem Invalid.Holds.not_sound {config : Config} {cause : Invalid} (holds : cause.Holds config) :
    ¬config.Sound := by
  intro sound
  cases cause with
  | zeroLimit name => exact Nat.lt_irrefl 0 (Limits.each_iff.1 sound.limits _ holds)
  | negativeFreeGas freeGas => exact absurd sound.freeGas (Int.not_le.2 (holds.1 ▸ holds.2))

theorem sound_of_validate {config : Config} (accepted : config.validate = .ok ()) :
    config.Sound := by
  unfold validate at accepted
  split at accepted
  case h_1 => cases accepted
  case h_2 noZero =>
    split at accepted
    case isTrue => cases accepted
    case isFalse notNegative =>
      refine ⟨Limits.each_iff.2 fun field member => ?_, Int.not_lt.1 notNegative⟩
      exact Nat.pos_of_ne_zero (by simpa using List.find?_eq_none.1 noZero field member)

theorem holds_of_validate {config : Config} {cause : Invalid}
    (refused : config.validate = .error cause) : cause.Holds config := by
  unfold validate at refused
  split at refused
  case h_1 name value found =>
    obtain rfl : value = 0 := by simpa using List.find?_some found
    cases refused
    exact List.mem_of_find?_eq_some found
  case h_2 =>
    split at refused
    case isTrue negative =>
      cases refused
      exact ⟨rfl, negative⟩
    case isFalse => cases refused

/-! ### Written and read

An omitted field is read as its default and all others as they were written, in any combination. -/

/-- Every ceiling is a number of 64 bits without sign, the free gas one with sign. -/
structure Fits (config : Config) : Prop where
  limits : config.limits.Each (· < 2 ^ 64)
  low : -(2 ^ 63) ≤ config.freeGas
  high : config.freeGas < 2 ^ 63

/-- The configuration with the standard values in the place of those left out. -/
def withDefaults (omitted : String → Bool) (config : Config) : Config :=
  { limits := if omitted "limits" then {} else config.limits.withDefaults omitted
    freeGas := if omitted "free_gas" then 0 else config.freeGas }

/-- The fields that a configuration is written as. -/
def written (config : Config) (omitted : String → Bool) : Fields :=
  [("limits", .object (config.limits.written.without omitted).written),
   ("free_gas", .number (Numeral.ofInt config.freeGas))]

theorem document?_toJson_without (config : Config) (omitted : String → Bool) :
    (config.toJson.without omitted).document? =
      some (.object ((config.written omitted).without omitted).written) := by
  have limits := config.limits.document?_toJson_without omitted
  exact document?_without (.cons ⟨rfl, limits⟩ (.cons ⟨rfl, rfl⟩ .nil))

theorem reading_written {config : Config} (fits : config.Fits) (budget : Nat)
    (omitted : String → Bool) :
    reading (budget + 2) (.object ((config.written omitted).without omitted).written) =
      some (config.withDefaults omitted) := by
  have limits : ((config.written omitted).without omitted).withDefault (budget + 1) "limits"
      Limits.reading {} = some (config.withDefaults omitted).limits :=
    Fields.withDefault_without _ omitted rfl (Limits.reading_written fits.limits budget omitted)
  have freeGas : ((config.written omitted).without omitted).withDefault (budget + 1) "free_gas"
      signedWord 0 = some (config.withDefaults omitted).freeGas :=
    Fields.withDefault_without _ omitted rfl (signedWord_ofInt fits.low fits.high)
  have names : (config.written omitted).map Prod.fst = ["limits", "free_gas"] := rfl
  rw [reading, record_written names (by decide)]
  simp only [limits, freeGas]
  rfl

theorem fits_of_reading {budget : Nat} {doc : Document} {config : Config}
    (read : reading budget doc = some config) : config.Fits := by
  obtain ⟨budget, fields, built⟩ := exists_build_of_record read
  simp only [Option.bind_eq_bind, Option.bind_eq_some_iff, Option.pure_def,
    Option.some.injEq] at built
  obtain ⟨limits, first, freeGas, second, rfl⟩ := built
  have standard : Limits.Each (· < 2 ^ 64) {} := Limits.each_iff.2 (by decide)
  have signed := withDefault_sound (fun n => -(2 ^ 63) ≤ n ∧ n ≤ 2 ^ 63 - 1) (by decide)
    (fun _ _ _ => int_bounds) second
  exact ⟨withDefault_sound (Limits.Each (· < 2 ^ 64)) standard
    (fun _ _ _ => Limits.each_of_reading) first, signed.1, Int.lt_of_le_sub_one signed.2⟩

/-! ### Loaded

Loading is reading and then checking, so both results of loading are told by the configuration that
was read. -/

/-- The text is loaded as the configuration, or refused if that is not sound. -/
structure LoadedFrom (text : String) (config : Config) : Prop where
  loaded : config.Sound → load text = .ok config
  refused : ¬config.Sound → ∃ cause : Invalid, cause.Holds config ∧
    load text = .error (.invalid cause)

theorem loadedFrom_of_reading {text : String} {config : Config}
    (read : reading.ofText? text = some config) : LoadedFrom text config := by
  cases checked : config.validate with
  | ok =>
    have accepted : load text = .ok config := by simp only [load, read, checked]
    exact ⟨fun _ => accepted, fun unsound => absurd (sound_of_validate checked) unsound⟩
  | error cause =>
    have refused : load text = .error (.invalid cause) := by simp only [load, read, checked]
    have holds := holds_of_validate checked
    exact ⟨fun sound => absurd sound holds.not_sound, fun _ => ⟨cause, holds, refused⟩⟩

theorem sound_of_load {text : String} {config : Config} (loaded : load text = .ok config) :
    config.Sound ∧ config.Fits := by
  cases read : reading.ofText? text with
  | none =>
    rw [load, read] at loaded
    cases loaded
  | some other =>
    obtain ⟨doc, -, given⟩ := Option.bind_eq_some_iff.1 read
    have told := loadedFrom_of_reading read
    by_cases sound : other.Sound
    case pos =>
      obtain rfl : other = config := Except.ok.inj ((told.loaded sound).symm.trans loaded)
      exact ⟨sound, fits_of_reading given⟩
    case neg =>
      obtain ⟨cause, -, refused⟩ := told.refused sound
      cases refused.symm.trans loaded

/-- A configuration comes back from its text. -/
structure ComesBack (config : Config) : Prop where
  whole : ∀ text ∈ config.toJson.texts, config.LoadedFrom text
  /-- Whatever is left out of the text is standard. -/
  partly : ∀ omitted, ∀ text ∈ (config.toJson.without omitted).texts,
    (config.withDefaults omitted).LoadedFrom text

theorem loadedFrom_without {config : Config} (fits : config.Fits) (omitted : String → Bool) :
    ∀ text ∈ (config.toJson.without omitted).texts,
      (config.withDefaults omitted).LoadedFrom text := by
  intro text member
  apply loadedFrom_of_reading
  have parsed := parse?_of_mem_texts (config.document?_toJson_without omitted) text member
  rw [ofText?, parsed]
  -- Two containers are opened: that of the configuration and in it that of the ceilings.
  exact reading_written fits (maxNesting - 2) omitted

/-- Loading is sound and loses nothing. -/
theorem load_sound_and_lossless :
    (∀ config : Config, config.Fits → config.ComesBack) ∧
      ∀ text loaded, load text = .ok loaded → loaded.Sound ∧ loaded.Fits := by
  refine ⟨fun config fits => ?_, fun _ _ => sound_of_load⟩
  have whole := loadedFrom_without fits fun _ => false
  rw [Json.without_nothing] at whole
  exact ⟨whole, loadedFrom_without fits⟩

/-- A configuration with the largest and the smallest numbers. -/
def outermost : Config :=
  { limits := { stackSize := 2 ^ 64 - 1, arraySize := 0 }, freeGas := -(2 ^ 63) }

/-- Its text without all that is too small. -/
def outermostText : String :=
  "\x7b\"limits\":\x7b\"max_stack_size\":18446744073709551615\x7d\x7d"

theorem load_outermost :
    (∃ cause : Invalid, cause.Holds outermost ∧
      load outermost.toJson.compact = .error (.invalid cause)) ∧
    load outermostText = .ok { limits := { stackSize := 2 ^ 64 - 1 } } ∧
    Sound { limits := { stackSize := 2 ^ 64 - 1 } } := by
  have fits : outermost.Fits := ⟨Limits.each_iff.2 (by decide), by decide, by decide⟩
  obtain ⟨lossless, checked⟩ := load_sound_and_lossless
  have back := lossless outermost fits
  have unsound : ¬outermost.Sound := fun sound => absurd sound.freeGas (by decide)
  have refused := (back.whole _ List.mem_cons_self).refused unsound
  have written : outermostText ∈
      (outermost.toJson.without fun name => name ∉ ["limits", "max_stack_size"]).texts := by
    decide +kernel
  have loaded := (back.partly _ _ written).loaded ⟨Limits.each_iff.2 (by decide), by decide⟩
  exact ⟨refused, loaded, (checked _ _ loaded).1⟩

end Config

end GasMachine
