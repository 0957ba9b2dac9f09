import ChipEight.Proofs.Attempt

/-! The parts of a state that an instruction may change. A table gives them for each kind, and one
that succeeds leaves all other parts as they were. Of the memory it writes at most the bytes
that it stores from the index on. -/
namespace ChipEight

inductive Field where
  | memory
  | registers
  | index
  | counter
  | stack
  | delayTimer
  | soundTimer
  | frame
  | drawFlag
  | keys
deriving DecidableEq

def Field.Same : Field → State → State → Prop
  | memory, first, second => first.memory = second.memory
  | registers, first, second => first.v = second.v
  | index, first, second => first.i = second.i
  | counter, first, second => first.pc = second.pc
  | stack, first, second => first.stack = second.stack
  | delayTimer, first, second => first.delayTimer = second.delayTimer
  | soundTimer, first, second => first.soundTimer = second.soundTimer
  | frame, first, second => first.frame = second.frame
  | drawFlag, first, second => first.drawFlag = second.drawFlag
  | keys, first, second => first.keys = second.keys

namespace Kind

/-- What an instruction of the kind may change. -/
def changes : Kind → List Field
  | machineCode => []
  | clearScreen => [.frame, .drawFlag]
  | drawSprite => [.registers, .frame, .drawFlag]
  | call | returnCall => [.counter, .stack]
  | jump | jumpFromV0 | skipIfByte | skipUnlessByte | skipIfSame | skipUnlessSame | skipIfHeld |
    skipUnlessHeld => [.counter]
  | awaitKey => [.registers, .counter]
  | setByte | addByte | copy | bitOr | bitAnd | bitXor | add | subtract | shiftRight |
    subtractFrom | shiftLeft | randomByte | readDelay | loadRegisters => [.registers]
  | setIndex | addIndex | pointAtGlyph => [.index]
  | setDelay => [.delayTimer]
  | setSound => [.soundTimer]
  | storeDecimal | storeRegisters => [.memory]

def steers : Kind → Bool
  | jump | jumpFromV0 | call | returnCall | skipIfByte | skipUnlessByte | skipIfSame |
    skipUnlessSame | skipIfHeld | skipUnlessHeld | awaitKey => true
  | _ => false

theorem counter_mem_changes (kind : Kind) : .counter ∈ kind.changes ↔ kind.steers = true := by
  cases kind <;> decide

end Kind

namespace Instruction
variable {instruction : Instruction} {byte : UInt8} {state after : State}

/-- Whatever is not in the table of its kind, an instruction leaves as it was. -/
theorem same_perform (performed : instruction.perform byte state = .ok after) {field : Field}
    (kept : field ∉ instruction.kind.changes) : field.Same after state := by
  unfold perform at performed
  cases kind : instruction.kind <;> simp only [kind, Kind.changes] at performed kept
  case call =>
    obtain ⟨stack, -, rfl⟩ := State.call_eq_ok performed
    cases field <;> simp [Field.Same] at kept ⊢
  case returnCall =>
    obtain ⟨-, pc, -, rfl⟩ := State.returnTo_eq_ok performed
    cases field <;> simp [Field.Same] at kept ⊢
  case jumpFromV0 =>
    obtain ⟨-, rfl⟩ := State.jumpFrom_eq_ok performed
    cases field <;> simp [Field.Same] at kept ⊢
  case skipIfByte | skipUnlessByte | skipIfSame | skipUnlessSame | skipIfHeld | skipUnlessHeld =>
    obtain ⟨pc, rfl⟩ := State.skipIf_eq_ok performed
    cases field <;> simp [Field.Same] at kept ⊢
  case awaitKey =>
    obtain ⟨key, -, rfl⟩ | ⟨-, -, rfl⟩ := State.awaitKey_eq_ok performed <;>
      cases field <;> simp [Field.Same, State.setRegister] at kept ⊢
  case drawSprite =>
    obtain ⟨rows, -, rfl⟩ := State.drawSprite_eq_ok performed
    cases field <;> simp [Field.Same] at kept ⊢
  case storeDecimal | storeRegisters =>
    obtain ⟨-, rfl⟩ := State.load_eq_ok performed
    cases field <;> simp [Field.Same] at kept ⊢
  case loadRegisters =>
    obtain ⟨values, -, rfl⟩ := State.loadRegisters_eq_ok performed
    cases field <;> simp [Field.Same] at kept ⊢
  -- What is left cannot fail, and says outright what it changes.
  all_goals
    cases performed
    cases field <;>
      simp [Field.Same, State.setRegister, State.setResult, State.jump, State.clearScreen] at kept ⊢

def stores (instruction : Instruction) (state : State) : List UInt8 :=
  match instruction.kind with
  | .storeDecimal => Effect.decimalDigits (state.v.get instruction.x)
  | .storeRegisters => state.v.upTo instruction.x
  | _ => []

private theorem memory_perform (performed : instruction.perform byte state = .ok after) :
    after.memory = state.memory.overlay state.i.toNat (instruction.stores state) := by
  unfold stores
  split
  case h_1 kind | h_2 kind =>
    simp only [perform, kind] at performed
    obtain ⟨-, rfl⟩ := State.load_eq_ok performed
    rfl
  case h_3 notDecimal notRegisters =>
    have kept : Field.memory ∉ instruction.kind.changes := by
      revert notDecimal notRegisters
      cases instruction.kind <;> simp [Kind.changes]
    exact same_perform performed kept

def StoresAt (instruction : Instruction) (state : State) (address : Nat) : Prop :=
  state.i.toNat ≤ address ∧
    (instruction.kind = .storeDecimal ∧ address ≤ state.i.toNat + 2 ∨
      instruction.kind = .storeRegisters ∧ address ≤ state.i.toNat + instruction.x.val)

theorem getElem_memory_perform (performed : instruction.perform byte state = .ok after)
    {address : Nat} (h : address < 4096) (apart : ¬ instruction.StoresAt state address) :
    after.memory[address] = state.memory[address] := by
  rw [memory_perform performed]
  apply Memory.getElem_overlay_outside
  apply Decidable.byContradiction
  intro inside
  obtain ⟨low, high⟩ := not_or.mp inside
  rw [Nat.not_lt] at low
  rw [Nat.not_le] at high
  refine apart ⟨low, ?_⟩
  unfold stores at high
  split at high
  case h_1 kind => exact .inl ⟨kind, Nat.le_of_lt_succ high⟩
  case h_2 kind =>
    rw [Registers.length_upTo] at high
    exact .inr ⟨kind, Nat.le_of_lt_succ high⟩
  case h_3 => exact absurd high (Nat.not_lt.mpr low)

end Instruction
end ChipEight
