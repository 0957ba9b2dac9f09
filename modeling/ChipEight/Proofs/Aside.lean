import ChipEight.Proofs.Inputs

/-! One instruction on two states. What a machine is given, its keys, the random bytes and the
policy about machine code, is looked at by few instructions. Two tries at any other
instruction come to the same, whatever it is that was put aside. -/
namespace ChipEight

/-- What two machines need not have in common. -/
inductive Aside where
  | nothing
  | keys
  | bytes
  | policy

namespace State

def keyless (state : State) : State := state.setKeys Keys.released

private theorem setKeys_of_keyless_eq {state other : State} (same : state.keyless = other.keyless) :
    other = state.setKeys other.keys := by
  have restored := congrArg (fun state => state.setKeys other.keys) same
  exact restored.symm

end State

namespace Event

def map (change : State → State) : Event → Event
  | start state => start (change state)
  | update state => update (change state)
  | frame state => frame (change state)
  | sound state => sound (change state)
  | fault cause => fault cause
  | stop state => stop (change state)

theorem map_id (event : Event) : event.map id = event := by cases event <;> rfl

end Event

namespace Aside

/-- What the two have in common of their states. -/
def view : Aside → State → State
  | keys => State.keyless
  | nothing | bytes | policy => id

/-- The opcodes whose instructions look at what is put aside. -/
def Concerns : Aside → UInt16 → Prop
  | nothing, _ => False
  | keys, opcode =>
    opcode.toNat / 4096 = 14 ∧ (opcode.toNat % 256 = 0x9E ∨ opcode.toNat % 256 = 0xA1) ∨
      opcode.toNat / 4096 = 15 ∧ opcode.toNat % 256 = 0x0A
  | bytes, opcode => opcode.toNat / 4096 = 12
  | policy, opcode => opcode.toNat / 4096 = 0 ∧ opcode ≠ 0x00E0 ∧ opcode ≠ 0x00EE

def touches : Aside → Kind → Bool
  | nothing, _ => false
  | keys, kind => kind == .skipIfHeld || kind == .skipUnlessHeld || kind == .awaitKey
  | bytes, kind => kind == .randomByte
  | policy, kind => kind == .machineCode

theorem concerns_of_touches {aside : Aside} {opcode : UInt16} {kind : Kind}
    (known : Kind.ofOpcode? opcode = some kind) (touched : aside.touches kind = true) :
    aside.Concerns opcode := by
  cases aside with
  | nothing => contradiction
  | keys =>
    simp only [touches, Bool.or_eq_true, beq_iff_eq] at touched
    obtain (rfl | rfl) | rfl := touched
    · obtain ⟨leading, low⟩ :=
        (Kind.ofOpcode?_eq_some_of_low opcode .skipIfHeld rfl rfl rfl nofun).mp known
      exact .inl ⟨leading, .inl low⟩
    · obtain ⟨leading, low⟩ :=
        (Kind.ofOpcode?_eq_some_of_low opcode .skipUnlessHeld rfl rfl rfl nofun).mp known
      exact .inl ⟨leading, .inr low⟩
    · exact .inr ((Kind.ofOpcode?_eq_some_of_low opcode .awaitKey rfl rfl rfl nofun).mp known)
  | bytes =>
    obtain rfl := eq_of_beq touched
    exact (Kind.ofOpcode?_eq_randomByte opcode).mp known
  | policy =>
    obtain rfl := eq_of_beq touched
    have covered := Kind.covers_of_ofOpcode? known
    obtain ⟨fit, kept⟩ := Bool.and_eq_true_iff.mp covered
    refine ⟨Pattern.leading_of_fits fit, ?_, ?_⟩ <;> rintro rfl <;> simp at kept

theorem view_happenings (aside : Aside) (state : State) :
    (aside.view state).happenings = state.happenings.map (Event.map aside.view) := by
  have plain : state.happenings = state.happenings.map (Event.map id) := by
    rw [funext Event.map_id]
    exact (List.map_id _).symm
  cases aside with
  | nothing | bytes | policy => exact plain
  | keys =>
    unfold State.happenings
    rw [List.map_cons, List.map_append]
    congr 2
    · cases flag : state.drawFlag <;> simp [view, State.keyless, State.setKeys, flag, Event.map]
    · simp only [apply_ite (List.map _)]
      rfl

theorem view_settled (aside : Aside) (state : State) :
    (aside.view state).settled = aside.view state.settled := by
  cases aside <;> rfl

theorem view_pc (aside : Aside) (state : State) (pc : UInt16) :
    aside.view { state with pc } = { aside.view state with pc } := by
  cases aside <;> rfl

theorem view_passed (aside : Aside) (state : State) :
    (aside.view state).passed = aside.view state.passed := by
  cases aside <;> rfl

theorem instruction_view (aside : Aside) (state : State) :
    (aside.view state).instruction = state.instruction := by
  cases aside <;> rfl

/-- Both fail in the same way, or they make states that look the same. -/
def Matches (aside : Aside) : Except Fault State → Except Fault State → Prop
  | .error fault, .error other => fault = other
  | .ok made, .ok other => aside.view made = aside.view other
  | .error _, .ok _ | .ok _, .error _ => False

theorem matches_refl (aside : Aside) (result : Except Fault State) :
    aside.Matches result result := by
  cases result <;> exact rfl

end Aside

namespace Instruction
variable {instruction : Instruction}

theorem perform_setKeys (blind : Aside.keys.touches instruction.kind = false) (byte : UInt8)
    (state : State) (keys : Keys) :
    instruction.perform byte (state.setKeys keys) =
      (instruction.perform byte state).map fun made => made.setKeys keys := by
  unfold perform
  cases kind : instruction.kind <;> simp only [kind, Aside.touches] at blind ⊢
  case skipIfHeld | skipUnlessHeld | awaitKey => contradiction
  case call =>
    unfold State.call State.setKeys
    cases state.stack.push? state.pc <;> rfl
  case returnCall =>
    unfold State.returnTo State.setKeys
    dsimp only
    split
    · rfl
    · cases state.stack.top? <;> rfl
  case jumpFromV0 =>
    unfold State.jumpFrom State.setKeys
    dsimp only
    split <;> rfl
  case skipIfByte | skipUnlessByte | skipIfSame | skipUnlessSame =>
    unfold State.skipIf State.advance State.setKeys
    dsimp only
    split
    · split <;> rfl
    · rfl
  case drawSprite =>
    unfold State.drawSprite State.setKeys
    dsimp only
    cases state.memory.slice state.i.toNat instruction.n.toNat <;> rfl
  case storeDecimal =>
    unfold State.storeDecimal State.load State.setKeys
    dsimp only
    cases state.memory.load state.i.toNat
      (Effect.decimalDigits (state.v.get instruction.x)) <;> rfl
  case storeRegisters =>
    unfold State.storeRegisters State.load State.setKeys
    dsimp only
    cases state.memory.load state.i.toNat (state.v.upTo instruction.x) <;> rfl
  case loadRegisters =>
    unfold State.loadRegisters State.setKeys
    dsimp only
    cases state.memory.slice state.i.toNat (instruction.x.val + 1) <;> rfl
  all_goals rfl

theorem perform_byte (blind : Aside.bytes.touches instruction.kind = false) (byte other : UInt8)
    (state : State) : instruction.perform byte state = instruction.perform other state := by
  unfold perform
  cases kind : instruction.kind <;> simp only [kind, Aside.touches] at blind ⊢
  case randomByte => contradiction

end Instruction

namespace Aside
variable {aside : Aside} {first second : State} {policy other : MachineCodePolicy}
  {byte otherByte : UInt8}

theorem matches_execute {instruction : Instruction}
    (spared : aside.touches instruction.kind = false)
    (same : aside.view first = aside.view second)
    (samePolicy : aside ≠ .policy → policy = other)
    (sameByte : aside ≠ .bytes → byte = otherByte) :
    aside.Matches (instruction.execute policy byte first)
      (instruction.execute other otherByte second) := by
  cases aside with
  | nothing =>
    obtain rfl : first = second := same
    rw [samePolicy (by simp), sameByte (by simp)]
    exact matches_refl ..
  | bytes =>
    obtain rfl : first = second := same
    rw [samePolicy (by simp), Instruction.execute, Instruction.execute,
      Instruction.perform_byte spared byte otherByte]
    exact matches_refl ..
  | policy =>
    obtain rfl : first = second := same
    have program : instruction.kind ≠ .machineCode := beq_eq_false_iff_ne.mp spared
    rw [sameByte (by simp), Instruction.execute, Instruction.execute,
      if_neg fun refused => program refused.1, if_neg fun refused => program refused.1]
    exact matches_refl ..
  | keys =>
    rw [State.setKeys_of_keyless_eq same, samePolicy (by simp), sameByte (by simp),
      Instruction.execute, Instruction.execute]
    split
    · exact rfl
    · rw [Instruction.perform_setKeys spared]
      cases instruction.perform otherByte first <;> exact rfl

theorem matches_attempt (same : aside.view first = aside.view second)
    (spared : ∀ instruction, first.instruction = .ok instruction →
      aside.touches instruction.kind = false)
    (samePolicy : aside ≠ .policy → policy = other)
    (sameByte : aside ≠ .bytes → byte = otherByte) :
    aside.Matches (first.attempt policy byte).result (second.attempt other otherByte).result ∧
      (first.attempt policy byte).tookByte = (second.attempt other otherByte).tookByte := by
  have instruction : second.instruction = first.instruction := by
    rw [← aside.instruction_view second, ← same, aside.instruction_view]
  have passed : aside.view first.passed = aside.view second.passed := by
    rw [← aside.view_passed, same, aside.view_passed]
  rw [State.attempt_eq, State.attempt_eq, instruction]
  cases found : first.instruction with
  | error fault => exact ⟨rfl, rfl⟩
  | ok instruction => exact ⟨matches_execute (spared _ found) passed samePolicy sameByte, rfl⟩

def blur (aside : Aside) (events : List (Nat × Event)) : List (Nat × Event) :=
  events.map fun told => (told.1, told.2.map aside.view)

theorem blur_append (aside : Aside) (front back : List (Nat × Event)) :
    aside.blur (front ++ back) = aside.blur front ++ aside.blur back :=
  List.map_append ..

theorem blur_of_whole {aside : Aside} (whole : aside.view = id) (events : List (Nat × Event)) :
    aside.blur events = events := by
  rw [blur, whole, funext fun told : Nat × Event => congrArg _ told.2.map_id]
  exact List.map_id _

theorem blur_rounds (aside : Aside) (machine : Machine) (log : List Event) :
    aside.blur (log.flatMap machine.round) =
      (log.map (Event.map aside.view)).flatMap machine.round := by
  have round : ∀ event, aside.blur (machine.round event) =
      machine.round (event.map aside.view) := by
    intro event
    rw [blur, Machine.round, Machine.round, List.map_map]
    rfl
  rw [blur, List.map_flatMap, List.flatMap_map]
  congr 1
  funext event
  exact round event

end Aside

end ChipEight
