import Mathlib
import GasMachine.Metrics

/-!
# Counters and the histogram

What counters and histograms show after any number of additions, told from the additions alone: a
counter shows the sum of what was added under its name, all counters together show the sum of
everything, and a bucket shows how many amounts lie between its bounds. Words wrap around, so these
are sums and numbers modulo the size of a word.
-/

set_option autoImplicit false

namespace GasMachine

/-! ## Counters

A counter that was never added to is not there and reads as zero, so nothing has to be said of which
counters there are. The sum of all of them is taken over the names. -/

namespace Counters

/-- What a counter shows: nothing was added to one that is not there. -/
def read (counters : Counters) (name : String) : Nat := counters.getD name 0

/-- The sum of all counters. -/
def total (counters : Counters) : Nat := (counters.toList.map Prod.snd).sum

/-- Add amounts to counters, one after the other. -/
def addAll (counters : Counters) (entries : List (String × Nat)) : Counters :=
  entries.foldl (fun counters (name, delta) => counters.add name delta) counters

/-- The sum of what is added to a counter. -/
def amount (name : String) (entries : List (String × Nat)) : Nat :=
  ((entries.filter (·.1 = name)).map Prod.snd).sum

theorem read_add (counters : Counters) (name : String) (delta : Nat) (other : String) :
    (counters.add name delta).read other =
      if name = other then (counters.read name + delta) % modulus else counters.read other := by
  unfold read add
  rw [Std.ExtTreeMap.getD_alter]
  simp only [compare_eq_iff_eq]
  split
  · rw [Option.getD_some, Std.ExtTreeMap.getD_eq_getD_getElem?]
  · rfl

theorem amount_cons (name other : String) (delta : Nat) (rest : List (String × Nat)) :
    amount name ((other, delta) :: rest) =
      (if other = name then delta else 0) + amount name rest := by
  unfold amount
  by_cases same : other = name <;> simp [same]

theorem amount_append (name : String) (entries others : List (String × Nat)) :
    amount name (entries ++ others) = amount name entries + amount name others := by
  simp only [amount, List.filter_append, List.map_append, List.sum_append]

theorem amount_flatMap {α : Type} (name : String) (f : α → List (String × Nat)) (items : List α) :
    amount name (items.flatMap f) = (items.map fun item => amount name (f item)).sum := by
  induction items with
  | nil => rfl
  | cons item rest ih => rw [List.flatMap_cons, amount_append, ih, List.map_cons, List.sum_cons]

theorem amount_ones (name : String) (names : List String) :
    amount name (names.map (·, 1)) = names.count name := by
  induction names with
  | nil => rfl
  | cons other rest ih =>
    rw [List.map_cons, amount_cons, ih, List.count_cons, Nat.add_comm]
    simp only [beq_iff_eq]

/-- A counter shows what was added to it, as far as words go. -/
theorem read_addAll {counters : Counters} {name : String} {before : Nat}
    (start : counters.read name = before % modulus) (entries : List (String × Nat)) :
    (counters.addAll entries).read name = (before + amount name entries) % modulus := by
  induction entries generalizing counters before with
  | nil => exact start
  | cons entry rest ih =>
    obtain ⟨other, delta⟩ := entry
    have next : (counters.add other delta).read name =
        (before + if other = name then delta else 0) % modulus := by
      rw [read_add]
      split
      · rename_i same
        rw [same, start, Nat.mod_add_mod]
      · exact start
    rw [amount_cons, ← Nat.add_assoc]
    exact ih next

theorem total_eq (counters : Counters) :
    counters.total = ∑ name ∈ counters.keys.toFinset, counters.read name := by
  have shown : counters.toList.map Prod.snd = counters.keys.map counters.read := by
    rw [← Std.ExtTreeMap.map_fst_toList_eq_keys, List.map_map]
    refine List.map_congr_left fun (name, value) member => ?_
    have there := Std.ExtTreeMap.mem_toList_iff_getElem?_eq_some.1 member
    simp [read, Std.ExtTreeMap.getD_eq_getD_getElem?, there]
  rw [total, shown, List.sum_toFinset _ Std.ExtTreeMap.nodup_keys]

theorem keys_add (counters : Counters) (name : String) (delta : Nat) :
    (counters.add name delta).keys.toFinset = insert name counters.keys.toFinset := by
  ext other
  rw [List.mem_toFinset, Finset.mem_insert, List.mem_toFinset, Std.ExtTreeMap.mem_keys,
    Std.ExtTreeMap.mem_keys, add, Std.ExtTreeMap.mem_alter]
  simp only [compare_eq_iff_eq, Option.isSome_some]
  split
  · rename_i same
    simp [same]
  · rename_i apart
    simp [Ne.symm apart]

/-- Whatever is added to one counter is added to the sum of all. -/
theorem total_add (counters : Counters) (name : String) (delta : Nat) :
    (counters.add name delta).total ≡ counters.total + delta [MOD modulus] := by
  have absent : name ∉ counters.keys.toFinset → counters.read name = 0 := by
    intro absent
    rw [List.mem_toFinset, Std.ExtTreeMap.mem_keys] at absent
    exact Std.ExtTreeMap.getD_eq_fallback absent
  have each : ∀ other, (counters.add name delta).read other ≡
      counters.read other + (if name = other then delta else 0) [MOD modulus] := by
    intro other
    rw [read_add]
    split
    · rename_i same
      rw [same]
      exact Nat.mod_modEq _ _
    · exact Nat.ModEq.refl _
  calc (counters.add name delta).total
      = ∑ other ∈ insert name counters.keys.toFinset, (counters.add name delta).read other := by
        rw [total_eq, keys_add]
    _ ≡ ∑ other ∈ insert name counters.keys.toFinset,
          (counters.read other + if name = other then delta else 0) [MOD modulus] :=
        Nat.ModEq.sum fun other _ => each other
    _ = counters.total + delta := by
        rw [Finset.sum_add_distrib, Finset.sum_insert_of_eq_zero_if_notMem absent, ← total_eq,
          Finset.sum_ite_eq, if_pos (Finset.mem_insert_self _ _)]

theorem total_addAll (counters : Counters) (entries : List (String × Nat)) :
    (counters.addAll entries).total ≡
      counters.total + (entries.map Prod.snd).sum [MOD modulus] := by
  induction entries generalizing counters with
  | nil => exact Nat.ModEq.refl _
  | cons entry rest ih =>
    obtain ⟨name, delta⟩ := entry
    calc (counters.addAll ((name, delta) :: rest)).total
        ≡ (counters.add name delta).total + (rest.map Prod.snd).sum [MOD modulus] := ih _
      _ ≡ counters.total + delta + (rest.map Prod.snd).sum [MOD modulus] :=
          (counters.total_add name delta).add_right _
      _ = counters.total + (((name, delta) :: rest).map Prod.snd).sum := by
          rw [List.map_cons, List.sum_cons, Nat.add_assoc]

end Counters

/-! ## Buckets

A bucket is found by its upper bound, and is told here by both of its bounds. -/

namespace Histogram

/-- The greatest amount that is too small for a bucket; nothing is too small for the first. -/
def lowerBound? : Nat → Option Nat
  | 0 => none
  | bucket + 1 => bounds[bucket]?

/-- Whether an amount lies between the bounds of a bucket; the last one has no upper bound. -/
def inBucket (bucket : Nat) (gas : Int) : Bool :=
  (lowerBound? bucket).all (fun bound : Nat => bound < gas) &&
    bounds[bucket]?.all fun bound : Nat => gas ≤ bound

theorem bucketOf_le (value : Nat) : bucketOf value ≤ bounds.length := List.findIdx_le_length

theorem bucketOf_le_iff {value bucket : Nat} (there : bucket ≤ bounds.length) :
    bucketOf value ≤ bucket ↔ bounds[bucket]?.all (fun bound => value ≤ bound) = true := by
  rcases Nat.lt_or_eq_of_le there with bounded | rfl
  · rw [List.getElem?_eq_getElem bounded, Option.all_some, decide_eq_true_iff]
    constructor
    · intro low
      have found : bucketOf value < bounds.length := Nat.lt_of_le_of_lt low bounded
      have fits : value ≤ bounds[bucketOf value] :=
        of_decide_eq_true (List.findIdx_getElem (p := fun bound => decide (value ≤ bound)))
      have rising : bounds.Pairwise (· ≤ ·) := by decide
      rcases Nat.lt_or_eq_of_le low with lower | same
      · exact fits.trans (List.pairwise_iff_getElem.1 rising _ _ found bounded lower)
      · simpa only [same] using fits
    · intro fits
      by_contra high
      have tooLarge := List.not_of_lt_findIdx (Nat.lt_of_not_le high)
      exact of_decide_eq_false tooLarge fits
  · rw [List.getElem?_eq_none (Nat.le_refl _)]
    exact ⟨fun _ => rfl, fun _ => bucketOf_le value⟩

theorem le_bucketOf_iff {value bucket : Nat} (there : bucket ≤ bounds.length) :
    bucket ≤ bucketOf value ↔ (lowerBound? bucket).all (fun bound => bound < value) = true := by
  cases bucket with
  | zero => exact ⟨fun _ => rfl, fun _ => Nat.zero_le _⟩
  | succ lower =>
    rw [Nat.succ_le_iff, ← Nat.not_le, bucketOf_le_iff (Nat.le_of_succ_le there), lowerBound?,
      List.getElem?_eq_getElem there]
    simp

/-- An amount lies between the bounds of its bucket, and of no other. -/
theorem inBucket_iff {value bucket : Nat} (there : bucket ≤ bounds.length) :
    inBucket bucket value = true ↔ bucketOf value = bucket := by
  rw [Nat.le_antisymm_iff, bucketOf_le_iff there, le_bucketOf_iff there, and_comm, inBucket,
    Bool.and_eq_true]
  simp only [Int.ofNat_lt, Int.ofNat_le]

example : inBucket 0 1000 = true ∧ inBucket 1 1000 = false ∧ inBucket 1 1001 = true := by decide

/-! ## Observations

`Shows` ties a histogram to the amounts it was told, and one more amount keeps it (`Shows.observe`);
any number of them follow by induction. -/

/-- Note amounts of gas, one after the other. -/
def observeAll (histogram : Histogram) (amounts : List Int) : Histogram :=
  amounts.foldl observe histogram

/-- A histogram shows the amounts that it was told: how many there are in each bucket, how much
they are in all, and how many there are. -/
structure Shows (histogram : Histogram) (amounts : List Int) : Prop where
  counts : histogram.counts = (List.range 9).map fun bucket =>
    amounts.countP (fun gas => bucketOf gas.toNat = bucket) % Counters.modulus
  sum : histogram.sum = (amounts.map Int.toNat).sum % Counters.modulus
  count : histogram.count = amounts.length % Counters.modulus

theorem Shows.observe {histogram : Histogram} {amounts : List Int}
    (showing : histogram.Shows amounts) (gas : Int) :
    (histogram.observe gas).Shows (amounts ++ [gas]) := by
  constructor
  case counts =>
    refine List.ext_getElem? fun bucket => ?_
    unfold Histogram.observe
    rw [List.getElem?_modify, showing.counts, List.getElem?_map, List.getElem?_map]
    rcases Nat.lt_or_ge bucket 9 with there | beyond
    · rw [List.getElem?_range there]
      by_cases same : bucketOf gas.toNat = bucket <;>
        simp [same, List.countP_append, Nat.mod_add_mod]
    · rw [List.getElem?_eq_none (by simpa using beyond)]
      rfl
  case sum =>
    unfold Histogram.observe
    dsimp only
    rw [showing.sum, List.map_append, List.sum_append, Nat.mod_add_mod]
    rfl
  case count =>
    unfold Histogram.observe
    dsimp only
    rw [showing.count, List.length_append, Nat.mod_add_mod]
    rfl

theorem Shows.observeAll {histogram : Histogram} {amounts : List Int}
    (showing : histogram.Shows amounts) (others : List Int) :
    (histogram.observeAll others).Shows (amounts ++ others) := by
  induction others generalizing histogram amounts with
  | nil =>
    rw [List.append_nil]
    exact showing
  | cons gas rest ih =>
    have later := ih (showing.observe gas)
    rw [List.append_assoc] at later
    exact later

theorem shows_empty : Shows {} [] := ⟨rfl, rfl, rfl⟩

/-- The buckets share the observations out among themselves. -/
theorem Shows.sum_counts {histogram : Histogram} {amounts : List Int}
    (showing : histogram.Shows amounts) :
    histogram.counts.sum % Counters.modulus = histogram.count := by
  have dealt : ∀ amounts : List Int,
      ∑ bucket ∈ Finset.range 9, amounts.countP (fun gas => bucketOf gas.toNat = bucket) =
        amounts.length := by
    intro amounts
    induction amounts with
    | nil => rfl
    | cons gas rest ih =>
      have there : bucketOf gas.toNat ∈ Finset.range 9 :=
        Finset.mem_range.2 (Nat.lt_succ_of_le (bucketOf_le _))
      simp only [List.countP_cons, Finset.sum_add_distrib, ih, decide_eq_true_iff,
        Finset.sum_ite_eq, if_pos there, List.length_cons]
  have asSum : histogram.counts.sum = ∑ bucket ∈ Finset.range 9,
      amounts.countP (fun gas => bucketOf gas.toNat = bucket) % Counters.modulus := by
    rw [showing.counts]
    rfl
  rw [asSum, ← Finset.sum_nat_mod, dealt, showing.count]

end Histogram

end GasMachine
