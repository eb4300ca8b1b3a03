import GasMachine.Proofs.Past
import GasMachine.Proofs.StepBound
import GasMachine.Proofs.Tallies

/-!
# What the metrics add up to

An engine counts its chains, how they end, the frames they start, the steps they take and the gas
they are charged. Told from the calls alone, what a call adds is a list of entries, an amount for
the histogram and a kind of fault, and the metrics after any calls are what these add up to
(`Engine.executeAll_eq`). The frames that a chain starts are counted on its stages, without the
counter of the machine: one for each script, and one wherever a caller begins to wait.
-/

set_option autoImplicit false

namespace GasMachine

/-! ## Frames started

A contract starts where one caller more waits after a tick. So frames can be counted on the stages,
by induction on the run, without the counter that the machine keeps. -/

namespace Execution

variable {machine : Machine} {invocation : Invocation} {execution final : Execution}

/-- Whether the next tick starts a contract: after it one caller more waits. -/
def startsContract (machine : Machine) (invocation : Invocation) (execution : Execution) : Bool :=
  execution.callers.length < (execution.tick machine invocation).callers.length

theorem startsContract_of_finished (finished : execution.isFinished = true) :
    execution.startsContract machine invocation = false := by
  obtain ⟨frame, callers, world, steps, scripts⟩ := execution
  simp only [isFinished, Bool.and_eq_true, Bool.not_eq_true', List.isEmpty_iff] at finished
  obtain ⟨ended, rfl⟩ := finished
  simp [startsContract, tick, returnToCaller, ended]

theorem scripts_tick (unfinished : execution.isFinished = false) :
    (execution.tick machine invocation).scripts =
      execution.scripts + if execution.startsContract machine invocation then 1 else 0 := by
  have move := tickTo_tick machine invocation unfinished
  unfold startsContract
  generalize execution.tick machine invocation = next at move ⊢
  cases move with
  | stays running after world step calm => simp
  | calls running after world launch step pending goesOn => simp
  | returns ended caller rest callers => simp [callers]

/-- The counter of a run counts the contracts that start. -/
theorem Ends.scripts_eq (ends : execution.Ends machine invocation final) :
    final.scripts = execution.scripts +
      (execution.stages machine invocation).countP (startsContract machine invocation) := by
  induction ends with
  | done finished =>
    rw [stages_of_finished finished, List.countP_singleton, startsContract_of_finished finished]
    rfl
  | tick unfinished _ ih =>
    rw [ih, scripts_tick unfinished, stages_tick unfinished, List.countP_cons]
    omega

end Execution

namespace Progress

/-- The counter of scripts in a row counts the scripts that start, and the contracts. -/
theorem scripts_runAll (machine : Machine) (invocation : Invocation) (entry : ScriptHash)
    (scripts : List Script) (progress : Progress) :
    (runAll machine invocation entry scripts progress).scripts =
      progress.scripts + (openings machine invocation entry scripts progress).length +
        (stages machine invocation entry scripts progress).countP
          (Execution.startsContract machine invocation) := by
  induction scripts generalizing progress with
  | nil => rfl
  | cons script rest ih =>
    have run := ((progress.opening entry script rest.length).ends_run machine invocation).scripts_eq
    have first : (afterScript machine invocation entry script rest progress).scripts =
        progress.scripts + 1 +
          ((progress.opening entry script rest.length).stages machine invocation).countP
            (Execution.startsContract machine invocation) := by
      rw [Nat.add_assoc]
      exact congrArg (progress.scripts + ·) run
    rw [runAll_cons, openings, stages, List.countP_append, List.length_cons]
    dsimp only
    split
    · rw [first, List.length_nil, List.countP_nil]
      omega
    · rw [ih, first]
      omega

end Progress

namespace Machine

/-- The frames that a chain starts: one for each script up to the first that faults, and one for
each contract. -/
def framesStarted (machine : Machine) (invocation : Invocation) (snapshot : Snapshot) (gas : Int)
    (scripts : List Script) : Nat :=
  (machine.openings invocation snapshot gas scripts).length +
    (machine.stages invocation snapshot gas scripts).countP
      (Execution.startsContract machine invocation)

theorem scripts_executeChain (machine : Machine) (invocation : Invocation) (snapshot : Snapshot)
    (gas : Int) (scripts : List Script) :
    (machine.executeChain invocation snapshot gas scripts).scripts =
      machine.framesStarted invocation snapshot gas scripts := by
  cases scripts with
  | nil => rfl
  | cons first rest =>
    have counted := Progress.scripts_runAll machine invocation first.hash (first :: rest)
      (machine.opening snapshot gas)
    have fresh : (machine.opening snapshot gas).scripts = 0 := rfl
    rw [fresh, Nat.zero_add] at counted
    exact counted

end Machine

/-! ## Calls

A call adds entries to the counters, an amount to the histogram and a kind of fault, and these lists
are read off the call and its outcome. -/

namespace Engine

/-- A chain as an engine gets it. -/
structure Call where
  invocation : Invocation
  snapshot : Snapshot
  gas : Int
  scripts : List Script

namespace Call

/-- What comes of a call. -/
def outcome (machine : Machine) (call : Call) : Outcome :=
  machine.executeChain call.invocation call.snapshot call.gas call.scripts

/-- The gas that the receipt of a call reports. -/
def gasConsumed (machine : Machine) (call : Call) : Int :=
  (call.outcome machine).receipt.gasConsumed

def isHalt (machine : Machine) (call : Call) : Bool := (call.outcome machine).receipt.isHalt

/-- The kind of the fault that ends a call, if one does. -/
def faultKind? (machine : Machine) (call : Call) : Option String :=
  (call.outcome machine).receipt.fault.map fun record => record.fault.kind

/-- The amount that a call has the histogram note; nothing is noted of a chain without scripts. -/
def observed? (machine : Machine) (call : Call) : Option Int :=
  if call.scripts.isEmpty then none else some (call.gasConsumed machine)

/-- What a call adds to the counters. -/
def entries (machine : Machine) (call : Call) : List (String × Nat) :=
  let run :=
    if call.scripts.isEmpty then []
    else
      [("scripts", (call.outcome machine).scripts), ("steps", (call.outcome machine).steps),
        ("gas_consumed", (call.gasConsumed machine).toNat)]
  ("chains", 1) :: run ++ [(if call.isHalt machine then "halts" else "faults", 1)]

end Call

/-- Execute chains one after the other. -/
def executeAll (engine : Engine) : List Call → Engine × List Outcome
  | [] => (engine, [])
  | call :: rest =>
    let (next, outcome) := engine.execute call.invocation call.snapshot call.gas call.scripts
    let (last, outcomes) := next.executeAll rest
    (last, outcome :: outcomes)

end Engine

/-! ## What calls add

Adding one call is adding its entries, in whatever way the engine goes about it. After that, any
number of calls is one induction over the list of them. -/

/-- The metrics after calls: all the entries added, all the amounts noted. -/
def Metrics.afterAll (metrics : Metrics) (machine : Machine) (calls : List Engine.Call) : Metrics :=
  { counters := metrics.counters.addAll (calls.flatMap (Engine.Call.entries machine))
    faults := metrics.faults.addAll ((calls.filterMap (Engine.Call.faultKind? machine)).map (·, 1))
    gas := metrics.gas.observeAll (calls.filterMap (Engine.Call.observed? machine)) }

namespace Metrics

theorem afterAll_append (metrics : Metrics) (machine : Machine) (calls others : List Engine.Call) :
    metrics.afterAll machine (calls ++ others) =
      (metrics.afterAll machine calls).afterAll machine others := by
  simp only [afterAll, Counters.addAll, Histogram.observeAll, List.flatMap_append,
    List.filterMap_append, List.map_append, List.foldl_append]

end Metrics

namespace Engine

/-- One chain adds its entries, whether it has scripts or none, and whether it halts or faults. -/
theorem execute_eq (engine : Engine) (call : Call) :
    engine.execute call.invocation call.snapshot call.gas call.scripts =
      ({ engine with metrics := engine.metrics.afterAll engine.machine [call] },
        call.outcome engine.machine) := by
  have came : engine.machine.executeChain call.invocation call.snapshot call.gas call.scripts =
      call.outcome engine.machine := rfl
  rw [execute, came, Metrics.afterAll, List.flatMap_singleton, List.filterMap_cons,
    List.filterMap_cons, Call.entries, Call.faultKind?, Call.observed?, Call.isHalt, Receipt.isHalt,
    Call.gasConsumed]
  cases (call.outcome engine.machine).receipt.fault with
  | none => cases call.scripts.isEmpty <;> rfl
  | some record => cases call.scripts.isEmpty <;> rfl

theorem executeAll_eq (engine : Engine) (calls : List Call) :
    engine.executeAll calls =
      ({ engine with metrics := engine.metrics.afterAll engine.machine calls },
        calls.map (Call.outcome engine.machine)) := by
  induction calls generalizing engine with
  | nil => rfl
  | cons call rest ih =>
    have together := engine.metrics.afterAll_append engine.machine [call] rest
    rw [List.singleton_append] at together
    rw [executeAll, execute_eq, together]
    dsimp only
    rw [ih, List.map_cons]

/-! ## What calls amount to

A counter that a call does not mention is one to which it adds nothing, so the shares of a call can
be said for all counters alike. -/

namespace Call

variable (machine : Machine) (call : Call)

theorem outcome_of_empty (empty : call.scripts.isEmpty = true) :
    call.outcome machine = { receipt := {}, snapshot := call.snapshot } := by
  rw [outcome, List.isEmpty_iff.1 empty, Machine.executeChain]

theorem gasConsumed_nonneg : 0 ≤ call.gasConsumed machine := by
  unfold gasConsumed outcome
  cases call.scripts with
  | nil => exact Int.le_refl 0
  | cons first rest => exact Int.le_max_right _ _

/-- What a call amounts to, by the names of the counters. -/
def shares : List (String × Nat) :=
  [("chains", 1), ("halts", if call.isHalt machine then 1 else 0),
    ("faults", if !call.isHalt machine then 1 else 0), ("scripts", (call.outcome machine).scripts),
    ("steps", (call.outcome machine).steps), ("gas_consumed", (call.gasConsumed machine).toNat)]

/-- The entries of a call come to its shares; one that is not entered is nothing. -/
theorem amount_entries : ∀ share ∈ call.shares machine,
    Counters.amount share.1 (call.entries machine) = share.2 := by
  have nothing : call.scripts.isEmpty = true → (call.outcome machine).scripts = 0 ∧
      (call.outcome machine).steps = 0 ∧ call.gasConsumed machine = 0 := by
    intro empty
    rw [gasConsumed, outcome_of_empty machine call empty]
    exact ⟨rfl, rfl, rfl⟩
  unfold shares entries
  cases empty : call.scripts.isEmpty with
  | true =>
    obtain ⟨scripts, steps, gas⟩ := nothing empty
    rw [scripts, steps, gas]
    cases call.isHalt machine <;> simp [Counters.amount]
  | false => cases call.isHalt machine <;> simp [Counters.amount]

end Call

end Engine

/-! ## The account

A sum over the calls for each counter, a count for each kind of fault and for each bucket. -/

open Engine (Call)

/-- Metrics account for calls. Everything is counted in words, so counts and sums are those that are
left when words wrap around. -/
structure Metrics.Accounts (metrics : Metrics) (machine : Machine) (calls : List Call) : Prop where
  /-- Every call is counted. -/
  chains : metrics.counters.read "chains" = calls.length % Counters.modulus
  /-- It halts or faults. -/
  ends : metrics.counters.read "chains" =
    (metrics.counters.read "halts" + metrics.counters.read "faults") % Counters.modulus
  halts : metrics.counters.read "halts" = calls.countP (Call.isHalt machine) % Counters.modulus
  faults : metrics.counters.read "faults" =
    calls.countP (fun call => !call.isHalt machine) % Counters.modulus
  /-- Every fault is counted under its kind. -/
  kinds : ∀ kind, metrics.faults.read kind =
    calls.countP (fun call => call.faultKind? machine == some kind) % Counters.modulus
  /-- All kinds together are all faults. -/
  allKinds : metrics.faults.total % Counters.modulus = metrics.counters.read "faults"
  /-- Every frame is counted that a script or a contract starts with. -/
  scripts : metrics.counters.read "scripts" =
    (calls.map fun call =>
      machine.framesStarted call.invocation call.snapshot call.gas call.scripts).sum %
        Counters.modulus
  steps : metrics.counters.read "steps" =
    (calls.map fun call =>
      (machine.steps call.invocation call.snapshot call.gas call.scripts).length).sum %
        Counters.modulus
  /-- The gas is what the receipts report. -/
  gasConsumed : (metrics.counters.read "gas_consumed" : Int) =
    (calls.map (Call.gasConsumed machine)).sum % Counters.modulus
  /-- Every chain with scripts is observed. -/
  observations : metrics.gas.count =
    calls.countP (fun call => !call.scripts.isEmpty) % Counters.modulus
  /-- There is a bucket below each bound, and one above all of them. -/
  bucketCount : metrics.gas.counts.length = Histogram.bounds.length + 1
  /-- It is observed in the bucket between whose bounds its gas lies. -/
  buckets : ∀ bucket ≤ Histogram.bounds.length, metrics.gas.counts[bucket]? =
    some (calls.countP (fun call =>
      !call.scripts.isEmpty && Histogram.inBucket bucket (call.gasConsumed machine)) %
        Counters.modulus)
  /-- And in that one only. -/
  dealt : metrics.gas.counts.sum % Counters.modulus = metrics.gas.count

namespace Engine

theorem sum_map_ite (p : Call → Bool) (calls : List Call) :
    (calls.map fun call => if p call then 1 else 0).sum = calls.countP p := by
  induction calls with
  | nil => rfl
  | cons call rest ih => rw [List.map_cons, List.sum_cons, List.countP_cons, ih, Nat.add_comm]

namespace Call

variable (machine : Machine) (call : Call)

theorem isSome_faultKind? : (call.faultKind? machine).isSome = !call.isHalt machine := by
  rw [faultKind?, isHalt, Receipt.isHalt, Option.isSome_map, Option.not_isNone]

theorem isSome_observed? : (call.observed? machine).isSome = !call.scripts.isEmpty := by
  unfold observed?
  cases call.scripts.isEmpty <;> rfl

/-- A call is observed in a bucket if its gas lies between the bounds. -/
theorem observed?_inBucket {bucket : Nat} (there : bucket ≤ Histogram.bounds.length) :
    ((call.observed? machine).map fun gas =>
      decide (Histogram.bucketOf gas.toNat = bucket)).getD false =
        (!call.scripts.isEmpty && Histogram.inBucket bucket (call.gasConsumed machine)) := by
  obtain ⟨value, gas⟩ := Int.eq_ofNat_of_zero_le (call.gasConsumed_nonneg machine)
  rw [observed?, gas]
  cases call.scripts.isEmpty with
  | true => rfl
  | false =>
    rw [Bool.not_false, Bool.true_and, Bool.eq_iff_iff, Histogram.inBucket_iff there]
    simp

end Call

variable (machine : Machine) (calls : List Call)

/-- A counter shows what the calls amount to under its name. -/
theorem read_afterAll (name : String) (share : Call → Nat)
    (listed : ∀ call, (name, share call) ∈ call.shares machine) :
    (Metrics.afterAll {} machine calls).counters.read name =
      (calls.map share).sum % Counters.modulus := by
  have empty : Counters.read ∅ name = 0 % Counters.modulus := rfl
  have each : ∀ call : Call, Counters.amount name (call.entries machine) = share call :=
    fun call => call.amount_entries machine _ (listed call)
  have all := Counters.read_addAll empty (calls.flatMap (Call.entries machine))
  rw [Counters.amount_flatMap, Nat.zero_add] at all
  simp only [each] at all
  exact all

/-- The gas that is counted is the gas that the receipts report. -/
theorem gasConsumed_afterAll :
    ((Metrics.afterAll {} machine calls).counters.read "gas_consumed" : Int) =
      (calls.map (Call.gasConsumed machine)).sum % Counters.modulus := by
  have sum := read_afterAll machine calls "gas_consumed"
    (fun call => (call.gasConsumed machine).toNat) fun call => by simp [Call.shares]
  rw [sum, Int.natCast_mod, Nat.cast_list_sum, List.map_map]
  congr 3
  funext call
  exact Int.toNat_of_nonneg (call.gasConsumed_nonneg machine)

theorem read_faults_afterAll (kind : String) :
    (Metrics.afterAll {} machine calls).faults.read kind =
      calls.countP (fun call => call.faultKind? machine == some kind) % Counters.modulus := by
  have empty : Counters.read ∅ kind = 0 % Counters.modulus := rfl
  have all := Counters.read_addAll empty ((calls.filterMap (Call.faultKind? machine)).map (·, 1))
  rw [Nat.zero_add, Counters.amount_ones, List.count_filterMap] at all
  exact all

/-- Every fault has a kind, so the kinds together are the calls that do not halt. -/
theorem total_faults_afterAll :
    (Metrics.afterAll {} machine calls).faults.total % Counters.modulus =
      calls.countP (fun call => !call.isHalt machine) % Counters.modulus := by
  have empty : Counters.total ∅ = 0 := rfl
  have all := Counters.total_addAll ∅ ((calls.filterMap (Call.faultKind? machine)).map (·, 1))
  rw [List.map_map, Function.comp_def, List.map_const', List.sum_replicate, smul_eq_mul,
    Nat.mul_one, List.length_filterMap_eq_countP, empty, Nat.zero_add] at all
  simp only [Call.isSome_faultKind?] at all
  exact all

theorem shows_afterAll :
    (Metrics.afterAll {} machine calls).gas.Shows (calls.filterMap (Call.observed? machine)) :=
  Histogram.shows_empty.observeAll _

/-- A bucket shows the calls that have scripts and whose gas lies between its bounds. -/
theorem bucket_afterAll {bucket : Nat} (there : bucket ≤ Histogram.bounds.length) :
    (Metrics.afterAll {} machine calls).gas.counts[bucket]? =
      some (calls.countP (fun call =>
        !call.scripts.isEmpty && Histogram.inBucket bucket (call.gasConsumed machine)) %
          Counters.modulus) := by
  have within : bucket < 9 := Nat.lt_succ_of_le there
  rw [(shows_afterAll machine calls).counts, List.getElem?_map, List.getElem?_range within,
    Option.map_some, List.countP_filterMap]
  simp only [Call.observed?_inBucket machine _ there]

/-- Whatever chains an engine executes, its metrics account for them. -/
theorem accounts_executeAll :
    (executeAll { machine } calls).2 = calls.map (Call.outcome machine) ∧
      (executeAll { machine } calls).1.metrics.Accounts machine calls := by
  rw [executeAll_eq]
  refine ⟨rfl, ?_⟩
  dsimp only
  have chains := read_afterAll machine calls "chains" (fun _ => 1) fun call => by
    simp [Call.shares]
  have halts := read_afterAll machine calls "halts"
    (fun call => if call.isHalt machine then 1 else 0) fun call => by simp [Call.shares]
  have faults := read_afterAll machine calls "faults"
    (fun call => if !call.isHalt machine then 1 else 0) fun call => by simp [Call.shares]
  have scripts := read_afterAll machine calls "scripts"
    (fun call => (call.outcome machine).scripts) fun call => by simp [Call.shares]
  have steps := read_afterAll machine calls "steps"
    (fun call => (call.outcome machine).steps) fun call => by simp [Call.shares]
  rw [List.map_const', List.sum_replicate, smul_eq_mul, Nat.mul_one] at chains
  rw [sum_map_ite] at halts faults
  simp only [Call.outcome, Machine.scripts_executeChain] at scripts
  simp only [Call.outcome, Machine.steps_executeChain, Machine.steps_progress] at steps
  have showing := shows_afterAll machine calls
  constructor
  case chains => exact chains
  case ends =>
    have either := List.length_eq_countP_add_countP (Call.isHalt machine) (l := calls)
    simp only [Bool.not_eq_true, Bool.decide_eq_false] at either
    rw [chains, halts, faults, ← Nat.add_mod, either]
  case halts => exact halts
  case faults => exact faults
  case kinds => exact read_faults_afterAll machine calls
  case allKinds => rw [total_faults_afterAll, faults]
  case scripts => exact scripts
  case steps => exact steps
  case gasConsumed => exact gasConsumed_afterAll machine calls
  case observations =>
    rw [showing.count, List.length_filterMap_eq_countP]
    simp only [Call.isSome_observed?]
  case bucketCount =>
    rw [showing.counts, List.length_map, List.length_range]
    rfl
  case buckets => exact fun bucket there => bucket_afterAll machine calls there
  case dealt => exact showing.sum_counts

end Engine

end GasMachine
