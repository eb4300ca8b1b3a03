import GasMachine.Proofs.Effects
import GasMachine.Proofs.Step

/-!
# Where demands come from

An instruction that is found at a position was read with the entry of its opcode, and its demand is
that of the entry as far as the refinement leaves it alone. With the standard table this says what
an instruction costs: the price of its opcode, and for a system call the price of the service that
the operand names (`Machine.fee_of_standard`).
-/

set_option autoImplicit false

namespace GasMachine

/-! ## The standard entries -/

namespace Opcode

theorem surcharge_standardEntry (opcode : Opcode) :
    opcode.standardEntry.demand.surcharge = 0 := by
  cases opcode <;> rfl

theorem eq_SYSCALL_of_systemCall {opcode : Opcode}
    (h : opcode.standardEntry.behaviour = .systemCall) : opcode = .SYSCALL := by
  cases opcode <;> first | rfl | cases h

theorem refinement_standardEntry (opcode : Opcode) :
    opcode.standardEntry.refinement = some .service ↔ opcode = .SYSCALL := by
  cases opcode <;> decide

end Opcode

/-! ## Reading and resolving

An instruction comes about in two passes: it is read with an entry of the table, and its demand is
then resolved against the stacks. What later modules need of it is what survives both. -/

namespace Instruction

/-- What reading takes from an entry. -/
structure ReadWith (instruction : Instruction) (entry : Entry) : Prop where
  behaviour : instruction.behaviour = entry.behaviour
  refinement : instruction.refinement = entry.refinement
  demand : instruction.demand =
    { entry.demand with itemSize := operandItemSize instruction.opcode instruction.operand }

/-- Resolving changes nothing but the demand, and this only with a refinement. -/
inductive Resolves (base : Instruction) (host : Host) (frame : Frame) : Instruction → Prop where
  | fixed (unrefined : base.refinement = none) : Resolves base host frame base
  | refined (refinement : Refinement) (demand : Demand)
    (refined : base.refinement = some refinement)
    (resolved : refinement.resolve host frame base = .ok demand) :
    Resolves base host frame { base with demand }

theorem ofEntry_ensures (opcode : Opcode) (entry : Entry) (following : Bytes) :
    Ensures (fun base => base.opcode = opcode ∧ base.ReadWith entry)
      (ofEntry opcode entry following) := by
  unfold ofEntry
  split
  · exact Ensures.error _
  · exact Ensures.ok ⟨rfl, rfl, rfl, rfl⟩

/-- What is read if the opcode has an operand of fixed length. -/
theorem ofEntry_fixed {opcode : Opcode} {width : Nat} (layout : opcode.layout = .fixed width)
    (entry : Entry) (following : Bytes) :
    Ensures (fun base => base.size = 1 + width ∧ base.operand.length = width)
      (ofEntry opcode entry following) := by
  unfold ofEntry Opcode.Layout.read
  rw [layout]
  dsimp only
  split
  · exact Ensures.error _
  · rename_i operand read
    split at read
    · cases read
    · rename_i enough
      cases read
      exact Ensures.ok ⟨rfl, List.length_take_of_le (Nat.not_lt.1 enough)⟩

theorem read_fixed (table : InstructionTable) (width : Nat) (byte : UInt8) (following : Bytes) :
    Ensures (fun base => base.opcode.layout = .fixed width →
        base.size = 1 + width ∧ base.operand.length = width)
      (read table byte following) := by
  unfold read
  split
  · exact Ensures.error _
  · rename_i opcode _
    split
    · exact Ensures.error _
    · rename_i entry found
      intro base succeeded layout
      have same := (ofEntry_ensures opcode entry following base succeeded).1
      exact ofEntry_fixed (same ▸ layout) entry following base succeeded

theorem read_ensures (table : InstructionTable) (byte : UInt8) (following : Bytes) :
    Ensures (fun base => ∃ entry, table.find? base.opcode = some entry ∧ base.ReadWith entry)
      (read table byte following) := by
  unfold read
  split
  · exact Ensures.error _
  · rename_i opcode _
    split
    · exact Ensures.error _
    · rename_i entry found
      refine (ofEntry_ensures opcode entry following).mono ?_
      rintro base ⟨rfl, readWith⟩
      exact ⟨entry, found, readWith⟩

theorem resolve_ensures (base : Instruction) (host : Host) (frame : Frame) :
    Ensures (base.Resolves host frame) (base.resolve host frame) := by
  unfold resolve
  split
  · rename_i unrefined
    exact Ensures.ok (.fixed unrefined)
  · rename_i refinement refined
    refine (Ensures.self _).bind fun demand resolved => ?_
    exact Ensures.pure (.refined refinement demand refined resolved)

end Instruction

/-! ## Services

The refinement of a system call takes over all that a service declares. Since the stacks are all a
refinement looks at, a frame that has the same stacks has the same demand. -/

/-- What the call of a service asks of the machine. -/
def Service.demand (service : Service) : Demand :=
  { stackIn := service.arity
    stackOut := service.results
    growth := service.growth
    invocation := service.invocation
    surcharge := service.price }

theorem Host.find?_of_service {host : Host} {instruction : Instruction} {service : Service}
    (named : host.service instruction = .ok service) :
    host.services.find? (Bytes.toNat instruction.operand) = some service := by
  have asked : Ensures (fun service =>
      host.services.find? (Bytes.toNat instruction.operand) = some service)
      (host.service instruction) := by
    unfold Host.service Instruction.wordOperand
    split
    · refine (Ensures.ok rfl).bind fun id same => ?_
      subst same
      split
      · rename_i found
        exact Ensures.pure found
      · exact Ensures.throw _
    · exact Ensures.error_bind _ _
  exact asked service named

/-- Only a system call has a surcharge or a depth that is not fixed. -/
theorem Refinement.resolve_fixed {refinement : Refinement} (h : refinement ≠ .service)
    (host : Host) (frame : Frame) (instruction : Instruction) :
    Ensures (fun demand => demand.surcharge = instruction.demand.surcharge ∧
        demand.invocation = instruction.demand.invocation)
      (refinement.resolve host frame instruction) := by
  cases refinement
  case service => exact absurd rfl h
  all_goals
    dsimp only [resolve]
    repeat' with_reducible first
      | exact Ensures.error _
      | refine Ensures.ok ⟨?_, ?_⟩
      | split
  all_goals rfl

/-- A demand is worked out from the stacks, and from nothing else of a frame. -/
theorem Refinement.resolve_congr (refinement : Refinement) (host : Host) {frame other : Frame}
    (stack : other.stack = frame.stack) (alt : other.alt = frame.alt)
    (instruction : Instruction) :
    refinement.resolve host other instruction = refinement.resolve host frame instruction := by
  have peek (place : Nat) : other.peek? place = frame.peek? place := by
    unfold Frame.peek?
    rw [stack]
  have peekAlt (place : Nat) : other.peekAlt? place = frame.peekAlt? place := by
    unfold Frame.peekAlt?
    rw [alt]
  unfold resolve Frame.peekCount? Frame.peekLength
  simp only [peek, peekAlt, stack]

theorem Machine.prepare_congr (machine : Machine) (invocation : Invocation) (frame other : Frame)
    (stack : other.stack = frame.stack) (alt : other.alt = frame.alt) (byte : UInt8)
    (following : Bytes) :
    machine.prepare invocation other byte following =
      machine.prepare invocation frame byte following := by
  unfold prepare Instruction.resolve
  simp only [Refinement.resolve_congr _ _ stack alt]

/-! ## Instructions of the standard table

From here on nobody has to look at the reader: that an instruction is found at a position says which
entry it has, and the entry says the rest. -/

namespace Machine

variable {machine : Machine} {invocation : Invocation} {frame : Frame} {instruction : Instruction}

/-- What is found at a position was read from the code and then resolved. -/
theorem prepared_of_found (found : machine.instructionAt? invocation frame = some instruction) :
    ∃ (byte : UInt8) (following : Bytes) (base : Instruction),
      frame.code.drop frame.pc = byte :: following ∧
        Instruction.read machine.table byte following = .ok base ∧
          base.Resolves (machine.host invocation) frame instruction := by
  have prepares (byte : UInt8) (following : Bytes) :
      Ensures (fun ready => ∃ base, Instruction.read machine.table byte following = .ok base ∧
        base.Resolves (machine.host invocation) frame ready)
        (machine.prepare invocation frame byte following) := by
    refine (Ensures.self _).bind fun base read => ?_
    exact (base.resolve_ensures _ _).mono fun ready resolves => ⟨base, read, resolves⟩
  obtain ⟨byte, following, here, prepared⟩ := prepare_of_instructionAt? found
  obtain ⟨base, read, resolves⟩ := prepares byte following _ prepared
  exact ⟨byte, following, base, here, read, resolves⟩

/-- What is found at a position was read with an entry of the table and then resolved. -/
theorem read_of_found (found : machine.instructionAt? invocation frame = some instruction) :
    ∃ entry, ∃ base : Instruction, machine.table.find? base.opcode = some entry ∧
      base.ReadWith entry ∧ base.Resolves (machine.host invocation) frame instruction := by
  obtain ⟨byte, following, base, _, read, resolves⟩ := prepared_of_found found
  obtain ⟨entry, inTable, readWith⟩ := Instruction.read_ensures _ byte following base read
  exact ⟨entry, base, inTable, readWith, resolves⟩

/-- The instruction that is found if its opcode has an operand of fixed length. -/
theorem fixed_of_found (found : machine.instructionAt? invocation frame = some instruction)
    {width : Nat} (layout : instruction.opcode.layout = .fixed width) :
    instruction.size = 1 + width ∧ instruction.operand.length = width := by
  obtain ⟨byte, following, base, _, read, resolves⟩ := prepared_of_found found
  have fixed := Instruction.read_fixed machine.table width byte following base read
  cases resolves with
  | fixed _ => exact fixed layout
  | refined _ _ _ _ => exact fixed layout

theorem readWith_standardEntry (standard : machine.table = {})
    (found : machine.instructionAt? invocation frame = some instruction) :
    ∃ base : Instruction, base.ReadWith base.opcode.standardEntry ∧
      base.Resolves (machine.host invocation) frame instruction := by
  obtain ⟨entry, base, inTable, readWith, resolves⟩ := read_of_found found
  rw [standard] at inTable
  cases inTable
  exact ⟨base, readWith, resolves⟩

/-- A system call of the standard table demands what the service demands that it names. -/
theorem demand_of_SYSCALL (standard : machine.table = {})
    (found : machine.instructionAt? invocation frame = some instruction)
    (system : instruction.opcode = .SYSCALL) :
    ∃ service, (machine.host invocation).service instruction = .ok service ∧
      instruction.demand = service.demand := by
  obtain ⟨base, readWith, resolves⟩ := readWith_standardEntry standard found
  have opcode : base.opcode = .SYSCALL := by cases resolves <;> exact system
  have refinement : base.refinement = some .service := by
    rw [readWith.refinement, Opcode.refinement_standardEntry, opcode]
  have plain : base.demand = {} := by
    rw [readWith.demand, opcode]
    rfl
  cases resolves with
  | fixed unrefined => rw [refinement] at unrefined; cases unrefined
  | refined other demand refined resolved =>
    cases Option.some.inj (refinement.symm.trans refined)
    have resolves : Ensures (fun demand => ∃ service,
        (machine.host invocation).service base = .ok service ∧ demand = service.demand)
        (Refinement.resolve .service (machine.host invocation) frame base) := by
      refine (Ensures.self _).bind fun service named => Ensures.pure ⟨service, named, ?_⟩
      simp [plain, Service.demand]
    exact resolves demand resolved

/-- An instruction of the standard table does what the entry of its opcode says. -/
theorem behaviour_of_standard (standard : machine.table = {})
    (found : machine.instructionAt? invocation frame = some instruction) :
    instruction.behaviour = instruction.opcode.standardEntry.behaviour := by
  obtain ⟨base, readWith, resolves⟩ := readWith_standardEntry standard found
  cases resolves <;> exact readWith.behaviour

theorem behaviour_of_SYSCALL (standard : machine.table = {})
    (found : machine.instructionAt? invocation frame = some instruction)
    (system : instruction.opcode = .SYSCALL) : instruction.behaviour = .systemCall := by
  rw [behaviour_of_standard standard found, system]
  rfl

/-- Any other instruction of the standard table asks for no gas on top of its price. -/
theorem surcharge_of_ne_SYSCALL (standard : machine.table = {})
    (found : machine.instructionAt? invocation frame = some instruction)
    (ordinary : instruction.opcode ≠ .SYSCALL) : instruction.demand.surcharge = 0 := by
  obtain ⟨base, readWith, resolves⟩ := readWith_standardEntry standard found
  have opcode : base.opcode ≠ .SYSCALL := by cases resolves <;> exact ordinary
  have none : base.demand.surcharge = 0 := by
    rw [readWith.demand]
    exact base.opcode.surcharge_standardEntry
  cases resolves with
  | fixed _ => exact none
  | refined refinement demand refined resolved =>
    have other : refinement ≠ .service := by
      rintro rfl
      exact opcode ((Opcode.refinement_standardEntry _).1 (readWith.refinement ▸ refined))
    have same := Refinement.resolve_fixed other _ _ _ demand resolved
    exact same.1.trans none

theorem opcode_of_systemCall (standard : machine.table = {})
    (found : machine.instructionAt? invocation frame = some instruction)
    (system : instruction.behaviour = .systemCall) : instruction.opcode = .SYSCALL := by
  rw [behaviour_of_standard standard found] at system
  exact Opcode.eq_SYSCALL_of_systemCall system

/-! ## System calls -/

/-- The service that a frame calls with the instruction at its position, if that is a system
call. -/
def serviceAt? (machine : Machine) (invocation : Invocation) (frame : Frame) : Option Service :=
  match machine.instructionAt? invocation frame with
  | some instruction =>
    if instruction.opcode = .SYSCALL then
      ((machine.host invocation).service instruction).toOption
    else none
  | none => none

theorem serviceAt?_eq_some_iff {service : Service} :
    machine.serviceAt? invocation frame = some service ↔
      ∃ instruction, machine.instructionAt? invocation frame = some instruction ∧
        instruction.opcode = .SYSCALL ∧
          (machine.host invocation).service instruction = .ok service := by
  unfold serviceAt?
  constructor
  · intro called
    split at called
    · rename_i instruction found
      split at called
      · rename_i system
        refine ⟨instruction, found, system, ?_⟩
        cases named : (machine.host invocation).service instruction with
        | error fault => rw [named] at called; cases called
        | ok other =>
          rw [named] at called
          exact congrArg Except.ok (Option.some.inj called)
      · cases called
    · cases called
  · rintro ⟨instruction, found, system, named⟩
    rw [found]
    dsimp only
    rw [if_pos system, named]
    rfl

/-- A system call that acts has run the service that it names. -/
theorem Acts.serves (standard : machine.table = {}) {world : World} {results : Results}
    {service : Service} (acts : machine.Acts invocation frame world instruction results)
    (called : machine.serviceAt? invocation frame = some service) :
    instruction.opcode = .SYSCALL ∧ instruction.demand = service.demand ∧
      service.run (machine.host invocation) (frame.charged instruction) world
        (frame.stack.take service.arity) = .ok results := by
  obtain ⟨other, found, system, named⟩ := serviceAt?_eq_some_iff.1 called
  cases Option.some.inj (acts.found.symm.trans found)
  obtain ⟨same, alsoNamed, demand⟩ := demand_of_SYSCALL standard found system
  cases named.symm.trans alsoNamed
  have ran := acts.ran
  rw [behaviour_of_SYSCALL standard found system] at ran
  have served := Behaviour.run_systemCall _ _ _ _ _ named results ran
  rw [Frame.argumentsOf, demand] at served
  exact ⟨system, demand, served⟩

/-- An effect that takes a service comes from a call of that service. -/
theorem Acts.serviceAt?_of_effect (standard : machine.table = {}) {world : World}
    {results : Results} {service : Service}
    (acts : machine.Acts invocation frame world instruction results)
    (takes : results.effect.service? = some service) :
    machine.serviceAt? invocation frame = some service := by
  obtain ⟨system, named⟩ :=
    Behaviour.run_service? _ _ _ _ _ _ results acts.ran service takes
  have opcode := opcode_of_systemCall standard acts.found system
  exact serviceAt?_eq_some_iff.2 ⟨instruction, acts.found, opcode, named⟩

/-! ## The price list

The list knows nothing of demands or surcharges. It goes by the opcode and, for a system call, by
the number in the operand. -/

/-- What an instruction costs by the price list: the price of its opcode and, for a system call,
the price of the service whose number is the operand. -/
def listPrice (machine : Machine) (instruction : Instruction) : Nat :=
  instruction.opcode.price +
    if instruction.opcode = .SYSCALL then
      ((machine.services.find? (Bytes.toNat instruction.operand)).map Service.price).getD 0
    else 0

/-- With the standard table an instruction costs what the price list says. -/
theorem fee_of_standard (standard : machine.table = {})
    (found : machine.instructionAt? invocation frame = some instruction) :
    instruction.fee = machine.listPrice instruction := by
  unfold Instruction.fee listPrice
  by_cases system : instruction.opcode = .SYSCALL
  · obtain ⟨service, named, demand⟩ := demand_of_SYSCALL standard found system
    have listed : machine.services.find? (Bytes.toNat instruction.operand) = some service :=
      Host.find?_of_service named
    rw [if_pos system, listed, demand]
    rfl
  · rw [if_neg system, surcharge_of_ne_SYSCALL standard found system]

end Machine

end GasMachine
