import GasMachine.Proofs.Holdings
import GasMachine.Proofs.Routines

/-!
# Where pointers lead

A pointer is made for a position of the code that is running, and it keeps no more of that code than
its hash. It can then be copied, put into other items, passed to contracts, handed back and left for
later scripts; whoever follows it only compares the hash. So if no two codes that are executed have
one hash, a pointer leads to an instruction of its code wherever it has got to
(`Machine.KeepsPointers`), and following it never fails for the position.
-/

set_option autoImplicit false

namespace GasMachine

open TwosComplement (signedMax)

/-! ## Code under its hash

A frame is started with a code and the hash of that code, and neither changes while it runs. This is
the invariant that turns the comparison of hashes into one of codes, once no two codes that are
executed share a hash. -/

/-- A script or contract with a hash and a code is running at one of the stages. -/
def Executes (stages : List Execution) (script : ScriptHash) (code : Bytes) : Prop :=
  ∃ stage ∈ stages, stage.frame.script = script ∧ stage.frame.code = code

/-- A frame goes by the hash of its code. -/
def Frame.Named (frame : Frame) : Prop := frame.script = scriptHash frame.code

namespace Frame

variable {frame : Frame}

theorem named_completed (named : frame.Named) (instruction : Instruction) (results : Results) :
    (frame.completed instruction results).Named := by
  unfold completed
  cases results.effect <;> exact named

theorem named_resume (named : frame.Named) (callee : Frame) (callPc : Nat) :
    (frame.resume callee callPc).Named := by
  unfold resume
  dsimp only
  split <;> exact named

end Frame

namespace Machine

variable {frame : Frame}

theorem named_step (machine : Machine) (invocation : Invocation) (named : frame.Named)
    (world : World) :
    (machine.step invocation frame world).1.Named := by
  have went := machine.stepTo_step invocation world frame
  generalize machine.step invocation frame world = next at went ⊢
  cases went with
  | overflowed instruction results _ _ => exact frame.named_completed named instruction results
  | acted instruction results _ _ => exact frame.named_completed named instruction results
  | _ => exact named

/-- Every frame of a chain goes by the hash of its code. -/
theorem named_invariant (machine : Machine) (invocation : Invocation) :
    Invariant machine invocation
      (fun stage => stage.frame.Named ∧ ∀ caller ∈ stage.callers, caller.frame.Named)
      (fun _ => True) := by
  constructor
  case opening => exact fun _ _ _ _ _ _ => ⟨rfl, List.forall_mem_nil _⟩
  case tick =>
    rintro execution unfinished ⟨named, callers⟩
    have move := Execution.tickTo_tick machine invocation unfinished
    generalize execution.tick machine invocation = next at move ⊢
    cases move with
    | stays running after world step _ =>
      have stepped := machine.named_step invocation named execution.world
      rw [step] at stepped
      exact ⟨stepped, callers⟩
    | calls running after world launch step _ _ =>
      have stepped := machine.named_step invocation named execution.world
      rw [step] at stepped
      exact ⟨rfl, List.forall_mem_cons.2 ⟨stepped, callers⟩⟩
    | returns ended caller rest waiting =>
      rw [waiting] at callers
      obtain ⟨first, others⟩ := List.forall_mem_cons.1 callers
      exact ⟨caller.frame.named_resume first execution.frame caller.callPc, others⟩
  case closing => exact fun _ _ _ _ => trivial

end Machine

/-! ## Pointers

`LeadsInside` is a property of items alone, with the stages of the whole chain as a parameter: a
pointer may have been made by a frame that ended long ago. Being about items, it is carried through
the run by what holds for any such property (`holds_invariant`); the one thing to show is that a
pointer which is made leads inside. -/

/-- An item that leads to a position inside the code of its hash, if it is a pointer: there is such
a code, and in none is the position beyond the last byte. -/
def Item.LeadsInside (stages : List Execution) (item : Item) : Prop :=
  ∀ script position, item = .pointer script position →
    (∃ code, Executes stages script code) ∧
      ∀ code, Executes stages script code → position < code.length

theorem Item.leadsInside_of_not_isReference {stages : List Execution} {item : Item}
    (noReference : item.isReference = false) : item.LeadsInside stages := by
  rintro script position rfl
  cases noReference

/-- A position inside the running code, if that code alone has its hash. -/
theorem Execution.leadsInside_pointer {stages : List Execution} {stage : Execution}
    (member : stage ∈ stages)
    (alone : ∀ code, Executes stages stage.frame.script code → code = stage.frame.code)
    {position : Nat} (inside : position < stage.frame.code.length) :
    (Item.pointer stage.frame.script position).LeadsInside stages := by
  rintro script other same
  cases same
  refine ⟨⟨_, stage, member, rfl, rfl⟩, fun code executed => ?_⟩
  rw [alone code executed]
  exact inside

/-! ## Following a pointer

A position is turned into a signed word before it is compared with the length of the code, so the
code has to be no longer than a signed word can say. -/

/-- A word below the middle is its own signed reading. -/
theorem TwosComplement.signed_of_le {word : Nat} (low : word ≤ signedMax) : signed word = word := by
  unfold signedMax at low
  exact Int.bmod_eq_of_le (by omega) (by omega)

/-- A pointer into the running code is followed. -/
theorem Behaviour.pointerTarget_of_lt {frame : Frame} {position : Nat}
    (inside : position < frame.code.length) (words : frame.code.length ≤ signedMax) :
    pointerTarget frame (.pointer frame.script position) = .ok position := by
  unfold pointerTarget
  dsimp only
  rw [if_pos rfl, TwosComplement.signed_of_le (by omega)]
  exact Frame.target_of_le (Nat.le_of_lt inside)

/-- What stands on the stack fails to be followed because it is no pointer or leads elsewhere. -/
theorem Behaviour.callPointer_ne_invalidJump {host : Host} {instruction : Instruction}
    {frame : Frame} {world : World} {arguments : Arguments} {fault : Fault}
    (failed : run .callPointer host instruction frame world arguments = .error fault)
    (inside : ∀ position, .pointer frame.script position ∈ arguments.stack →
      position < frame.code.length)
    (words : frame.code.length ≤ signedMax) (target : Int) : fault ≠ .invalidJump target := by
  have followed {item : Item} (member : item ∈ arguments.stack) {fault : Fault}
      (failed : pointerTarget frame item = .error fault) : fault ≠ .invalidJump target := by
    cases item with
    | pointer script position =>
      by_cases own : script = frame.script
      · subst own
        rw [pointerTarget_of_lt (inside position member) words] at failed
        cases failed
      · unfold pointerTarget at failed
        dsimp only at failed
        rw [if_neg own] at failed
        cases failed
        exact Fault.noConfusion
    | _ =>
      cases failed
      exact Fault.noConfusion
  unfold run at failed
  dsimp only at failed
  cases taken : Arguments.one arguments.stack with
  | error other =>
    rw [taken] at failed
    cases failed
    unfold Arguments.one at taken
    split at taken
    · cases taken
    · cases taken
      exact Fault.noConfusion
  | ok item =>
    have member : item ∈ arguments.stack :=
      Arguments.one_all (p := (· ∈ arguments.stack)) (fun _ member => member) item taken
    rw [taken] at failed
    have ran : ((pointerTarget frame item).map Effect.enter).map
        (fun effect => ({ effect, world } : Results)) = .error fault := failed
    cases leads : pointerTarget frame item with
    | ok position =>
      rw [leads] at ran
      cases ran
    | error other =>
      rw [leads] at ran
      cases ran
      exact followed member leads

/-! ## Chains

At a stage the frame itself is one of the stages that execute its code, which is where the
hypothesis about hashes comes in: the pointer on the stack belongs to some code that was executed
under this hash, and that code is the one that runs. -/

/-- What is said of the pointers of a chain with the given stages. -/
structure Machine.KeepsPointers (machine : Machine) (invocation : Invocation)
    (stages : List Execution) : Prop where
  named : ∀ script code, Executes stages script code → script = scriptHash code
  /-- Every pointer on any stack of any frame, at any depth inside other items, leads to a position
  inside the code that it belongs to. -/
  inside : ∀ stage ∈ stages, stage.Holds (Item.LeadsInside stages)
  /-- An instruction that follows a pointer does not fail for its position. Positions are signed
  words there, so this is about code that has no more than `signedMax` bytes. -/
  followed : ∀ stage ∈ stages, ∀ instruction record,
    machine.instructionAt? invocation stage.frame = some instruction → instruction.opcode = .CALLA →
    stage.frame.code.length ≤ signedMax → stage.frame.isRunning = true →
    (machine.step invocation stage.frame stage.world).1.fault? = some record →
    ∀ target, record.fault ≠ .invalidJump target

namespace Machine

variable {machine : Machine} {invocation : Invocation} {stages : List Execution}

/-- An instruction at a stage gives pointers only of the code that is running. -/
theorem Acts.leadsInside (standard : machine.table = {})
    (alone : ∀ script code other, Executes stages script code → Executes stages script other →
      code = other) {stage : Execution} (member : stage ∈ stages)
    (held : stage.frame.Holds (Item.LeadsInside stages)) {instruction : Instruction}
    {results : Results}
    (acts : machine.Acts invocation stage.frame stage.world instruction results) :
    results.Everywhere (Item.LeadsInside stages) := by
  have here : Executes stages stage.frame.script stage.frame.code := ⟨stage, member, rfl, rfl⟩
  have ordinary (item : Item) (noReference : item.isReference = false) :
      item.LeadsInside stages := Item.leadsInside_of_not_isReference noReference
  refine (acts.composed standard held ?_ ?_ ?_).everywhere ordinary
  · intro kind
    cases kind <;> exact ordinary _ rfl
  · intro position inside
    exact Execution.leadsInside_pointer member (fun code executed => alone _ _ _ executed here)
      inside
  · intro service readOnly _ _ script position same
    cases same

/-- A pointer of the running script that stands on a stack leads to a position of its code. -/
theorem lt_of_leadsInside {stage : Execution} (member : stage ∈ stages)
    (held : stage.frame.Holds (Item.LeadsInside stages)) {position : Nat}
    (there : .pointer stage.frame.script position ∈ stage.frame.stack) :
    position < stage.frame.code.length :=
  ((held.stack _ there).own _ _ rfl).2 _ ⟨stage, member, rfl, rfl⟩

/-- If no two codes that are executed in a chain have one hash, every pointer leads to a position
inside its code, and following it never fails for the position. -/
theorem keepsPointers_of_alone (config : Config) (invocation : Invocation) (snapshot : Snapshot)
    (gas : Int) (scripts : List Script)
    (alone : ∀ script code other,
      Executes ((standard config).stages invocation snapshot gas scripts) script code →
      Executes ((standard config).stages invocation snapshot gas scripts) script other →
      code = other) :
    (standard config).KeepsPointers invocation
      ((standard config).stages invocation snapshot gas scripts) := by
  have table : (standard config).table = {} := rfl
  have named := (named_invariant (standard config) invocation).chain snapshot gas trivial scripts
  have null : Item.null.LeadsInside ((standard config).stages invocation snapshot gas scripts) :=
    Item.leadsInside_of_not_isReference rfl
  have holding : GuardedInvariant (standard config) invocation
      (· ∈ (standard config).stages invocation snapshot gas scripts)
      (Execution.Holds
        (Item.LeadsInside ((standard config).stages invocation snapshot gas scripts)))
      (fun progress => progress.residue.Holds _) :=
    Execution.holds_invariant table null fun stage member held _ instruction results acts =>
      acts.leadsInside table alone member held.frame
  have inside := (holding.chain snapshot gas
    ⟨List.forall_mem_nil _, List.forall_mem_nil _⟩ scripts fun _ member => member).1
  constructor
  case named =>
    rintro script code ⟨stage, member, rfl, rfl⟩
    exact (named stage member).1
  case inside => exact inside
  case followed =>
    intro stage member instruction record found follows words running faulted target
    refine ne_invalidJump_of_run found (fun fault failed => ?_) running faulted
    rw [behaviour_of_standard table found, follows] at failed
    have ran : Behaviour.run .callPointer ((standard config).host invocation) instruction
      (stage.frame.charged instruction) stage.world (stage.frame.argumentsOf instruction) =
        .error fault := failed
    refine Behaviour.callPointer_ne_invalidJump ran (fun position there => ?_) words target
    have taken : .pointer stage.frame.script position ∈ stage.frame.stack :=
      List.mem_of_mem_take there
    exact lt_of_leadsInside member (inside stage member).frame taken

/-- A script that puts what is on top into an array and takes it out again. If there is nothing on
the stack, it first makes two pointers to its last instruction and hands one of them, inside an
array, to the contract with the hash of zeros. -/
def pointerSender : Script :=
  { code := [Opcode.DEPTH.code, Opcode.JMPIF.code, 37]
      ++ (Opcode.PUSHA.code :: Bytes.ofNat 4 38)
      ++ [Opcode.DUP.code, Opcode.PUSH1.code, Opcode.PACK.code]
      ++ (Opcode.PUSHDATA1.code :: 20 :: List.replicate 20 0)
      ++ (Opcode.SYSCALL.code :: Bytes.ofNat 4 Service.contractCall.id)
      ++ [Opcode.PUSH1.code, Opcode.PACK.code, Opcode.PUSH0.code, Opcode.PICKITEM.code] }

/-- A snapshot in which the script is a contract as well. -/
def senderSnapshot : Snapshot :=
  { contents := { contracts := Std.ExtTreeMap.empty.insert Hash.zero pointerSender.code } }

/-- The stages of the script twice in a row. -/
def senderStages : List Execution :=
  (standard {}).stages {} senderSnapshot 100_000_000 [pointerSender, pointerSender]

/-- Only one code is executed: by the first script, by the contract that finds a pointer inside an
array, and by the second script, which finds a pointer that came back and one that was left. -/
theorem keepsPointers_pointerSender :
    (∀ script code other, Executes senderStages script code → Executes senderStages script other →
      code = other) ∧
    (senderStages.any fun stage => stage.callers.length = 1 ∧
      stage.frame.stack.map (fun item => item.parts.map Item.kind) = [[.pointer]]) = true ∧
    (senderStages.any fun stage => stage.callers.isEmpty ∧ stage.frame.calling.isSome ∧
      stage.frame.stack.map Item.kind = [.pointer, .pointer]) = true ∧
    (standard {}).KeepsPointers {} senderStages := by
  have only : (senderStages.all fun stage => stage.frame.code = pointerSender.code) = true := by
    decide +kernel
  have alone : ∀ script code other, Executes senderStages script code →
      Executes senderStages script other → code = other := by
    rintro script _ _ ⟨stage, member, _, rfl⟩ ⟨other, alsoMember, _, rfl⟩
    have first := of_decide_eq_true (List.all_eq_true.1 only stage member)
    have second := of_decide_eq_true (List.all_eq_true.1 only other alsoMember)
    exact first.trans second.symm
  refine ⟨alone, by decide +kernel, by decide +kernel, ?_⟩
  exact keepsPointers_of_alone {} {} senderSnapshot 100_000_000 [pointerSender, pointerSender] alone

end Machine

end GasMachine
