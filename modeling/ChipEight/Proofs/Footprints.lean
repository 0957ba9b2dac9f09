import ChipEight.Proofs.Programs
import ChipEight.Proofs.Sprites
import ChipEight.Proofs.Transfers

/-! What an instruction can reach, place by place. A state is all of its places: each byte of the
memory, each register, slot, pixel and key, and what there is only once. A table gives the places
that an instruction may change, and one that succeeds leaves every other place as it was. Over a
run the memory therefore stays as it was loaded wherever no cycle has stored. -/
namespace ChipEight

inductive Place where
  | byte (address : Nat)
  | register (number : Fin 16)
  | index
  | counter
  | pointer
  | slot (number : Fin 16)
  | delayTimer
  | soundTimer
  | pixel (cell : Cell)
  | drawFlag
  | key (number : Fin 16)

namespace Place
variable {first second : State}

def field : Place → Field
  | byte _ => .memory
  | register _ => .registers
  | index => .index
  | counter => .counter
  | pointer | slot _ => .stack
  | delayTimer => .delayTimer
  | soundTimer => .soundTimer
  | pixel _ => .frame
  | drawFlag => .drawFlag
  | key _ => .keys

def Same : Place → State → State → Prop
  | byte address, first, second => first.memory[address]? = second.memory[address]?
  | register number, first, second => first.v.get number = second.v.get number
  | index, first, second => first.i = second.i
  | counter, first, second => first.pc = second.pc
  | pointer, first, second => first.stack.pointer = second.stack.pointer
  | slot number, first, second => first.stack.slots.get number = second.stack.slots.get number
  | delayTimer, first, second => first.delayTimer = second.delayTimer
  | soundTimer, first, second => first.soundTimer = second.soundTimer
  | pixel cell, first, second => first.frame.pixel cell = second.frame.pixel cell
  | drawFlag, first, second => first.drawFlag = second.drawFlag
  | key number, first, second => first.keys.get number = second.keys.get number

private theorem same_of_field {place : Place} (same : place.field.Same first second) :
    place.Same first second := by
  cases place <;> simp only [field, Field.Same] at same <;> simp only [Same, same]

theorem eq_of_same (same : ∀ place : Place, place.Same first second) : first = second := by
  have memory : first.memory = second.memory := by
    apply Vector.ext
    intro address h
    have read : first.memory[address]? = second.memory[address]? := same (.byte address)
    rw [Vector.getElem?_eq_getElem h, Vector.getElem?_eq_getElem h] at read
    exact Option.some.inj read
  have v : first.v = second.v :=
    Vector.ext fun register h => same (.register ⟨register, h⟩)
  have slots : first.stack.slots = second.stack.slots :=
    Vector.ext fun slot h => same (.slot ⟨slot, h⟩)
  have frame : first.frame = second.frame := Frame.ext_pixel fun cell => same (.pixel cell)
  have keys : first.keys = second.keys := Vector.ext fun key h => same (.key ⟨key, h⟩)
  obtain ⟨_, _, _, _, ⟨_, _⟩, _, _, _, _, _⟩ := first
  obtain ⟨_, _, _, _, ⟨_, _⟩, _, _, _, _, _⟩ := second
  cases memory
  cases v
  cases slots
  cases frame
  cases keys
  cases same .index
  cases same .counter
  cases same .pointer
  cases same .delayTimer
  cases same .soundTimer
  cases same .drawFlag
  rfl

end Place

/-- The registers that an instruction of the kind may write, if `x` is the first one it names. -/
def Kind.Writes (kind : Kind) (x register : Fin 16) : Prop :=
  match kind with
  | setByte | addByte | copy | bitOr | bitAnd | bitXor | randomByte | readDelay | awaitKey =>
    register = x
  | add | subtract | shiftRight | subtractFrom | shiftLeft => register = x ∨ register = 15
  | drawSprite => register = 15
  | loadRegisters => register ≤ x
  | _ => False

namespace Instruction
variable {instruction : Instruction} {byte : UInt8} {state after : State}

/-- The places that an instruction may change when it is carried out on `state`. -/
def Reaches (instruction : Instruction) (state : State) : Place → Prop
  | .byte address => instruction.StoresAt state address
  | .register register => instruction.kind.Writes instruction.x register
  | .index => instruction.kind = .setIndex ∨ instruction.kind = .addIndex ∨
      instruction.kind = .pointAtGlyph
  | .counter => instruction.kind.steers = true
  | .pointer => instruction.kind = .call ∨ instruction.kind = .returnCall
  | .slot slot => instruction.kind = .call ∧ slot.val = state.stack.pointer.toNat + 1
  | .delayTimer => instruction.kind = .setDelay
  | .soundTimer => instruction.kind = .setSound
  | .pixel _ | .drawFlag => instruction.kind = .clearScreen ∨ instruction.kind = .drawSprite
  | .key _ => False

private theorem perform_of_execute {policy : MachineCodePolicy}
    (executed : instruction.execute policy byte state = .ok after) :
    instruction.perform byte state = .ok after := by
  unfold execute at executed
  split at executed
  · contradiction
  · exact executed

private theorem byte_perform (performed : instruction.perform byte state = .ok after)
    {address : Nat} (apart : ¬ instruction.StoresAt state address) :
    after.memory[address]? = state.memory[address]? :=
  Memory.getElem?_congr fun h => getElem_memory_perform performed h apart

private theorem register_perform (performed : instruction.perform byte state = .ok after)
    {register : Fin 16} (apart : ¬ instruction.kind.Writes instruction.x register) :
    after.v.get register = state.v.get register := by
  by_cases changed : Field.registers ∈ instruction.kind.changes
  · unfold perform at performed
    cases kind : instruction.kind <;> simp only [kind, Kind.Writes] at performed apart
    case drawSprite =>
      obtain ⟨rows, -, rfl⟩ := State.drawSprite_eq_ok performed
      exact (Registers.get_setFlag ..).trans (if_neg apart)
    case loadRegisters => exact (State.get_loadRegisters performed).2 _ (Nat.not_le.mp apart)
    case awaitKey =>
      obtain ⟨key, -, rfl⟩ | ⟨-, -, rfl⟩ := State.awaitKey_eq_ok performed
      · exact (Registers.get_set ..).trans (if_neg apart)
      · rfl
    case add | subtract | shiftRight | subtractFrom | shiftLeft =>
      obtain ⟨other, plain⟩ := not_or.mp apart
      cases performed
      rw [State.get_setResult, if_neg other, if_neg plain]
    case setByte | addByte | copy | bitOr | bitAnd | bitXor | randomByte | readDelay =>
      cases performed
      exact (Registers.get_set ..).trans (if_neg apart)
    -- What is left has no registers in its table.
    all_goals
      rw [kind] at changed
      simp [Kind.changes] at changed
  · exact congrArg (Vector.get · register) (same_perform performed changed)

private theorem slot_perform (performed : instruction.perform byte state = .ok after)
    {slot : Fin 16} (apart : ¬ instruction.Reaches state (.slot slot)) :
    after.stack.slots.get slot = state.stack.slots.get slot := by
  cases effect_perform performed with
  | called kind stack pushed =>
    obtain ⟨room, same⟩ := CallStack.push?_eq_some pushed
    rw [same]
    exact Vector.getElem_set_ne (Nat.succ_lt_succ room) slot.isLt fun own => apart ⟨kind, own.symm⟩
  | returned | moved | cleared | drawn | computed => rfl

private theorem drawFlag_perform (performed : instruction.perform byte state = .ok after)
    (raised : state.drawFlag = true) : after.drawFlag = true := by
  cases effect_perform performed with
  | cleared | drawn => rfl
  | called | returned | moved | computed => exact raised

theorem same_of_not_reaches (performed : instruction.perform byte state = .ok after)
    {place : Place} (apart : ¬ instruction.Reaches state place) : place.Same after state := by
  by_cases changed : place.field ∈ instruction.kind.changes
  · cases place with
    | byte address => exact byte_perform performed apart
    | register register => exact register_perform performed apart
    | slot slot => exact slot_perform performed apart
    | index | counter | pointer | delayTimer | soundTimer | pixel | drawFlag | key =>
      exfalso
      simp only [Reaches, Place.field] at apart changed
      revert apart changed
      cases instruction.kind <;> decide
  · exact Place.same_of_field (same_perform performed changed)

end Instruction

namespace Emulator

private theorem byte_of_uncovered {loader machine : Machine} {rom : List UInt8}
    {requests : List Request} {front : List Deed} (loaded : (loader.load rom).outcome = .done)
    (stands : (atHand (loader.load rom).machine).StandsAt requests front machine)
    (unloaded : Unloaded front) {address : Nat}
    (uncovered : ∀ tried, .tried tried ∈ front → ¬ tried.Covers address) :
    machine.state.memory[address]? = (Memory.layout rom)[address]? := by
  have fits := Machine.length_le_of_loaded loaded
  have keeps := keeps_of_standsAt stands unloaded
  rw [loader.load_of_length_le fits] at keeps
  have same : machine.state.memory[address]? = (Memory.programmed rom)[address]? :=
    Memory.getElem?_congr fun h => keeps address h uncovered
  rw [same, ← Memory.toList_programmed fits, Vector.getElem?_toList]

/-- A state is all of its places. An instruction that succeeds leaves every place alone that it does
not reach, and it never lowers the flag for a redraw. From loading a program until the next one is
loaded, a byte that no cycle has stored at is still that of the font, of the program, or the zero
there was. -/
theorem instructions_stay_confined :
    (∀ first second : State, (∀ place : Place, place.Same first second) → first = second) ∧
    (∀ opcode address instruction, Instruction.decode opcode address = .ok instruction →
      instruction.kind.covers opcode = true ∧ instruction.x.val = digitAt opcode 2 ∧
      ∀ policy byte state after, instruction.execute policy byte state = .ok after →
        (∀ place : Place, ¬ instruction.Reaches state place → place.Same after state) ∧
        (state.drawFlag = true → after.drawFlag = true)) ∧
    ∀ (loader : Machine) rom requests front machine, (loader.load rom).outcome = .done →
      (atHand (loader.load rom).machine).StandsAt requests front machine → Unloaded front →
      ∀ address, (∀ tried, .tried tried ∈ front → ¬ tried.Covers address) →
        machine.state.memory[address]? = (Memory.layout rom)[address]? := by
  refine ⟨fun _ _ => Place.eq_of_same, ?_, ?_⟩
  · intro opcode address instruction decoded
    obtain ⟨known, operands, -⟩ := Instruction.decode_eq_ok decoded
    refine ⟨Kind.covers_of_ofOpcode? known, ?_, ?_⟩
    · rw [operands]
      rfl
    · intro policy byte state after executed
      have performed := Instruction.perform_of_execute executed
      exact ⟨fun _ => Instruction.same_of_not_reaches performed,
        Instruction.drawFlag_perform performed⟩
  · intro loader rom requests front machine loaded stands unloaded address
    exact byte_of_uncovered loaded stands unloaded

theorem font_past_two_registers :
    let loader := Machine.create Config.default (.constant Keys.released) (.ofArray #[])
    let fresh := (loader.load [0xF1, 0x55]).machine
    (∃ instruction after, Instruction.decode 0xF155 0x200 = .ok instruction ∧
      instruction.execute .reject 0 fresh.state = .ok after ∧
      after.memory[2]? = some 0x90 ∧ after.frame = fresh.state.frame) ∧
    ∀ machine, ((atHand fresh).after [.step]).machine? = some machine →
      machine.state.memory[2]? = some 0x90 := by
  intro loader fresh
  obtain ⟨-, confined, keeps⟩ := instructions_stay_confined
  have glyph : fresh.state.memory[2]? = some 0x90 := by decide +kernel
  refine ⟨?_, ?_⟩
  · refine ⟨_, _, rfl, rfl, ?_⟩
    obtain ⟨-, -, succeeds⟩ := confined 0xF155 0x200 _ rfl
    obtain ⟨same, -⟩ := succeeds .reject 0 fresh.state _ rfl
    refine ⟨(same (.byte 2) ?_).trans glyph, ?_⟩
    · rintro ⟨-, ⟨kind, -⟩ | ⟨-, high⟩⟩
      · contradiction
      · exact absurd high (by decide +kernel)
    · apply Frame.ext_pixel
      intro cell
      apply same (.pixel cell)
      rintro (kind | kind) <;> contradiction
  · intro machine present
    have stands : (atHand fresh).StandsAt [.step] [.begun, .tried fresh.begin] machine :=
      .inr ⟨rfl, present⟩
    apply keeps loader [0xF1, 0x55] [.step] _ machine rfl stands (by simp [Unloaded])
    intro tried member
    obtain rfl : tried = fresh.begin := by simpa using member
    have word : (fresh.begin.state.memory.word fresh.begin.state.pc.toNat).toOption =
        some 0xF155 := by decide +kernel
    rintro ⟨-, -, x, ⟨⟨opcode, found, -, low, -⟩, -⟩ | ⟨⟨opcode, found, -, -, rfl⟩, high⟩⟩
    · cases (eq_ok_of_toOption word).symm.trans found
      contradiction
    · cases (eq_ok_of_toOption word).symm.trans found
      exact absurd high (by decide +kernel)

end Emulator
end ChipEight
