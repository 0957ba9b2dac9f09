import ChipEight.Execution

/-! A try at an instruction. What it comes to hangs on the instruction under the counter and
on the state with the counter past it, and an instruction that succeeds has one of a few
effects. Whatever a cycle is to keep is therefore checked once for each effect and not
once for each kind. -/
namespace ChipEight

theorem bind_eq_ok {α β : Type} {first : Except Fault α} {next : α → Except Fault β} {result : β}
    (succeeded : (first >>= next) = .ok result) :
    ∃ value, first = .ok value ∧ next value = .ok result := by
  cases first with
  | error fault => contradiction
  | ok value => exact ⟨value, rfl, succeeded⟩

theorem bind_eq_error {α β : Type} {first : Except Fault α} {next : α → Except Fault β}
    {fault : Fault} (failed : (first >>= next) = .error fault) :
    first = .error fault ∨ ∃ value, first = .ok value ∧ next value = .error fault := by
  cases first with
  | error cause =>
    cases failed
    exact .inl rfl
  | ok value => exact .inr ⟨value, rfl, failed⟩

theorem eq_ok_of_toOption {α : Type} {result : Except Fault α} {value : α}
    (read : result.toOption = some value) : result = .ok value := by
  cases result with
  | error fault => contradiction
  | ok other => exact congrArg _ (Option.some.inj read)

theorem Memory.word_of_not_inRange (memory : Memory) (address : Nat)
    (outside : ¬ InRange address 2) :
    memory.word address = .error (.outOfBounds address 2) := by
  rw [word, dif_neg outside]

namespace Instruction

theorem decode_eq_ok {opcode address : UInt16} {instruction : Instruction}
    (decoded : decode opcode address = .ok instruction) :
    Kind.ofOpcode? opcode = some instruction.kind ∧
      instruction.toOperands = Operands.ofOpcode opcode ∧ instruction.opcode = opcode ∧
      instruction.address = address := by
  unfold decode at decoded
  split at decoded
  · next kind found =>
    cases decoded
    exact ⟨found, rfl, rfl, rfl⟩
  · contradiction

end Instruction

namespace State

def passed (state : State) : State := { state with pc := state.pc + 2 }

theorem toNat_pc_passed {state : State} (fits : state.pc.toNat + 2 ≤ 4096) :
    state.passed.pc.toNat = state.pc.toNat + 2 := by
  rw [passed, UInt16.toNat_add]
  exact Nat.mod_eq_of_lt (by simp; omega)

def instruction (state : State) : Except Fault Instruction := do
  let opcode ← state.memory.word state.pc.toNat
  Instruction.decode opcode state.pc

theorem advance_of_le {state : State} (fits : state.pc.toNat + 2 ≤ 4096) :
    state.advance = .ok state.passed := by
  rw [advance, if_pos fits, passed]

theorem advance_eq_ok {state after : State} (advanced : state.advance = .ok after) :
    state.pc.toNat + 2 ≤ 4096 ∧ after = state.passed := by
  unfold advance at advanced
  split at advanced
  · next fits =>
    cases advanced
    exact ⟨fits, rfl⟩
  · contradiction

/-- Reading the opcode has already made sure that the counter can move past it. -/
theorem fetch_eq (state : State) :
    state.fetch =
      (state.memory.word state.pc.toNat).map fun opcode => (opcode, state.passed) := by
  unfold fetch
  by_cases fits : Memory.InRange state.pc.toNat 2
  · rw [Memory.word, dif_pos fits, advance_of_le fits]
    rfl
  · rw [Memory.word_of_not_inRange _ _ fits]
    rfl

theorem attempt_eq (state : State) (policy : MachineCodePolicy) (byte : UInt8) :
    state.attempt policy byte =
      match state.instruction with
      | .error fault => .refused fault
      | .ok instruction => instruction.attempt policy byte state.passed := by
  unfold attempt instruction
  rw [fetch_eq]
  cases state.memory.word state.pc.toNat with
  | error fault => rfl
  | ok opcode => rfl

theorem instruction_eq_ok {state : State} {instruction : Instruction}
    (found : state.instruction = .ok instruction) :
    state.pc.toNat + 2 ≤ 4096 ∧ instruction.nnn.toNat < 4096 ∧ instruction.address = state.pc := by
  unfold State.instruction at found
  by_cases fits : Memory.InRange state.pc.toNat 2
  · rw [Memory.word, dif_pos fits] at found
    obtain ⟨-, operands, -, address⟩ := Instruction.decode_eq_ok found
    refine ⟨fits, ?_, address⟩
    rw [operands, Operands.toNat_nnn_ofOpcode]
    exact Nat.mod_lt _ (by decide)
  · rw [Memory.word_of_not_inRange _ _ fits] at found
    contradiction

theorem attempt_eq_ok {state after : State} {policy : MachineCodePolicy} {byte : UInt8}
    (succeeded : (state.attempt policy byte).result = .ok after) :
    ∃ instruction, state.instruction = .ok instruction ∧
      instruction.perform byte state.passed = .ok after := by
  rw [attempt_eq] at succeeded
  cases found : state.instruction with
  | error fault =>
    rw [found] at succeeded
    contradiction
  | ok instruction =>
    simp only [found, Instruction.attempt, Instruction.execute] at succeeded
    split at succeeded
    · contradiction
    · exact ⟨instruction, rfl, succeeded⟩

private theorem rewind_eq_ok {state after : State} (rewound : state.rewind = .ok after) :
    2 < state.pc.toNat ∧ after = { state with pc := state.pc - 2 } := by
  unfold rewind at rewound
  split at rewound
  · next room =>
    cases rewound
    exact ⟨room, rfl⟩
  · contradiction

theorem skipIf_eq_ok {state after : State} {condition : Bool}
    (skipped : state.skipIf condition = .ok after) : ∃ pc, after = { state with pc } := by
  cases condition with
  | false =>
    cases skipped
    exact ⟨state.pc, rfl⟩
  | true => exact ⟨_, (advance_eq_ok skipped).2⟩

theorem jumpFrom_eq_ok {state after : State} {offset : UInt8} {target : UInt16}
    (jumped : state.jumpFrom offset target = .ok after) :
    offset.toNat + target.toNat < 65536 ∧
      after = { state with pc := offset.toUInt16 + target } := by
  unfold jumpFrom at jumped
  split at jumped
  · next fits =>
    cases jumped
    exact ⟨fits, rfl⟩
  · contradiction

theorem awaitKey_eq_ok {state after : State} {target : Fin 16}
    (waited : state.awaitKey target = .ok after) :
    (∃ key, state.keys.firstHeld? = some key ∧
        after = state.setRegister target (UInt8.ofNat key.val)) ∨
      state.keys.firstHeld? = none ∧ 2 < state.pc.toNat ∧
        after = { state with pc := state.pc - 2 } := by
  unfold awaitKey at waited
  split at waited
  · next key held =>
    cases waited
    exact .inl ⟨key, held, rfl⟩
  · next none =>
    obtain ⟨room, same⟩ := rewind_eq_ok waited
    exact .inr ⟨none, room, same⟩

theorem call_eq_ok {state after : State} {caller target : UInt16}
    (called : state.call caller target = .ok after) :
    ∃ stack, state.stack.push? state.pc = some stack ∧
      after = { state with pc := target, stack } := by
  unfold call at called
  split at called
  · next stack pushed =>
    cases called
    exact ⟨stack, pushed, rfl⟩
  · contradiction

theorem returnTo_eq_ok {state after : State} {caller : UInt16}
    (returned : state.returnTo caller = .ok after) :
    state.stack.pointer ≠ 0 ∧ ∃ pc, state.stack.top? = some pc ∧
      after = { state with pc, stack := state.stack.drop } := by
  unfold returnTo at returned
  split at returned
  · contradiction
  · next occupied =>
    split at returned
    · next pc found =>
      cases returned
      exact ⟨occupied, pc, found, rfl⟩
    · contradiction

theorem drawSprite_eq_ok {state after : State} {x y height : UInt8}
    (drawn : state.drawSprite x y height = .ok after) :
    ∃ rows, state.memory.slice state.i.toNat height.toNat = .ok rows ∧
      let drawing := Sprite.draw state.frame (Sprite.cells x.toNat y.toNat rows)
      after = { state with
        v := state.v.setFlag drawing.erased, frame := drawing.frame, drawFlag := true } := by
  obtain ⟨rows, sliced, made⟩ := bind_eq_ok drawn
  cases made
  exact ⟨rows, sliced, rfl⟩

theorem loadRegisters_eq_ok {state after : State} {last : Fin 16}
    (loaded : state.loadRegisters last = .ok after) :
    ∃ values, state.memory.slice state.i.toNat (last.val + 1) = .ok values ∧
      after = { state with v := state.v.replaceFirst values } := by
  obtain ⟨values, sliced, made⟩ := bind_eq_ok loaded
  cases made
  exact ⟨values, sliced, rfl⟩

theorem load_eq_ok {state after : State} {address : Nat} {bytes : List UInt8}
    (loaded : state.load address bytes = .ok after) :
    Memory.InRange address bytes.length ∧
      after = { state with memory := state.memory.overlay address bytes } := by
  obtain ⟨memory, overlaid, made⟩ := bind_eq_ok loaded
  cases made
  unfold Memory.load at overlaid
  split at overlaid
  · next fits =>
    cases overlaid
    exact ⟨fits, rfl⟩
  · contradiction

end State

def Kind.usesStack : Kind → Bool
  | call | returnCall => true
  | _ => false

namespace Instruction

/-- Where an instruction other than a call or a return may send the counter. -/
inductive Target (instruction : Instruction) (state : State) : UInt16 → Prop where
  | direct : Target instruction state instruction.nnn
  | offset (fits : state.v.head.toNat + instruction.nnn.toNat < 65536) :
      Target instruction state (state.v.head.toUInt16 + instruction.nnn)
  | skipped (fits : state.pc.toNat + 2 ≤ 4096) : Target instruction state (state.pc + 2)
  | again (room : 2 < state.pc.toNat) : Target instruction state (state.pc - 2)

/-- What an instruction can make of a state: a call and a return move the stack, a few others
move the counter, two touch the picture, and all the rest is data. -/
inductive Effect (instruction : Instruction) (state : State) : State → Prop where
  | called (kind : instruction.kind = .call) (stack : CallStack)
      (pushed : state.stack.push? state.pc = some stack) :
      Effect instruction state { state with pc := instruction.nnn, stack }
  | returned (kind : instruction.kind = .returnCall) (occupied : state.stack.pointer ≠ 0)
      (pc : UInt16) (found : state.stack.top? = some pc) :
      Effect instruction state { state with pc, stack := state.stack.drop }
  | moved (level : instruction.kind.usesStack = false) (pc : UInt16)
      (target : Target instruction state pc) :
      Effect instruction state { state with pc }
  | cleared (kind : instruction.kind = .clearScreen) : Effect instruction state state.clearScreen
  | drawn (kind : instruction.kind = .drawSprite) (v : Registers) (cells : List Cell) :
      Effect instruction state
        { state with v, frame := (Sprite.draw state.frame cells).frame, drawFlag := true }
  | computed (level : instruction.kind.usesStack = false) (memory : Memory) (v : Registers)
      (i : UInt16) (delayTimer soundTimer : UInt8) :
      Effect instruction state { state with memory, v, i, delayTimer, soundTimer }

private theorem effect_skipIf {instruction : Instruction} {state after : State} {condition : Bool}
    (level : instruction.kind.usesStack = false) (skipped : state.skipIf condition = .ok after) :
    Effect instruction state after := by
  cases condition with
  | false =>
    cases skipped
    exact .computed level _ _ _ _ _
  | true =>
    obtain ⟨fits, rfl⟩ := State.advance_eq_ok skipped
    exact .moved level _ (.skipped fits)

theorem effect_perform {instruction : Instruction} {byte : UInt8} {state after : State}
    (performed : instruction.perform byte state = .ok after) :
    Effect instruction state after := by
  unfold perform at performed
  cases kind : instruction.kind <;> simp only [kind] at performed
  case call =>
    obtain ⟨stack, pushed, rfl⟩ := State.call_eq_ok performed
    exact .called kind stack pushed
  case returnCall =>
    obtain ⟨occupied, pc, found, rfl⟩ := State.returnTo_eq_ok performed
    exact .returned kind occupied pc found
  case jump =>
    cases performed
    exact .moved (by rw [kind]; rfl) _ .direct
  case jumpFromV0 =>
    obtain ⟨fits, rfl⟩ := State.jumpFrom_eq_ok performed
    exact .moved (by rw [kind]; rfl) _ (.offset fits)
  case skipIfByte | skipUnlessByte | skipIfSame | skipUnlessSame | skipIfHeld | skipUnlessHeld =>
    exact effect_skipIf (by rw [kind]; rfl) performed
  case awaitKey =>
    obtain ⟨key, -, rfl⟩ | ⟨-, room, rfl⟩ := State.awaitKey_eq_ok performed
    · exact .computed (by rw [kind]; rfl) _ _ _ _ _
    · exact .moved (by rw [kind]; rfl) _ (.again room)
  case clearScreen =>
    cases performed
    exact .cleared kind
  case drawSprite =>
    obtain ⟨rows, -, rfl⟩ := State.drawSprite_eq_ok performed
    exact .drawn kind _ _
  case storeDecimal | storeRegisters =>
    obtain ⟨-, rfl⟩ := State.load_eq_ok performed
    exact .computed (by rw [kind]; rfl) _ _ _ _ _
  case loadRegisters =>
    obtain ⟨values, -, rfl⟩ := State.loadRegisters_eq_ok performed
    exact .computed (by rw [kind]; rfl) _ _ _ _ _
  -- What is left only computes: it neither fails nor touches counter, stack and picture.
  all_goals
    cases performed
    exact .computed (by rw [kind]; rfl) _ _ _ _ _

end Instruction
end ChipEight
