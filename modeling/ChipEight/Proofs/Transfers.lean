import ChipEight.Proofs.Calls
import ChipEight.Proofs.Encoding

/-! Blocks of bytes that go between the registers and the memory. What a store has laid down is held
by the memory from the index on, and a load takes up whatever is held there, so what one of them
moves the other moves back. A range that passes the end of the memory is refused before anything
is moved. -/
namespace ChipEight

namespace Memory
variable {memory : Memory} {address length : Nat} {bytes : List UInt8}

theorem getElem?_congr {first second : Memory} {address : Nat}
    (same : ∀ h : address < 4096, first[address] = second[address]) :
    first[address]? = second[address]? := by
  by_cases inside : address < 4096
  · rw [Vector.getElem?_eq_getElem inside, Vector.getElem?_eq_getElem inside, same inside]
  · have outside : 4096 ≤ address := Nat.not_lt.mp inside
    rw [Vector.getElem?_eq_none outside, Vector.getElem?_eq_none outside]

theorem getElem?_overlay_outside (memory : Memory) {query : Nat}
    (outside : query < address ∨ address + bytes.length ≤ query) :
    (memory.overlay address bytes)[query]? = memory[query]? :=
  getElem?_congr fun h => getElem_overlay_outside memory address bytes query h outside

def Holds (memory : Memory) (address : Nat) (bytes : List UInt8) : Prop :=
  ∀ offset (h : offset < bytes.length), memory[address + offset]? = some bytes[offset]

theorem holds_overlay (memory : Memory) (fits : InRange address bytes.length) :
    (memory.overlay address bytes).Holds address bytes := by
  intro offset h
  have inside : address + offset < 4096 := by omega
  rw [Vector.getElem?_eq_getElem inside, getElem_overlay_inside memory address bytes offset h]

theorem holds_bytesAt (memory : Memory) (fits : InRange address length) :
    memory.Holds address (memory.bytesAt address length fits) := by
  intro offset h
  rw [length_bytesAt] at h
  have inside : address + offset < 4096 := by omega
  rw [Vector.getElem?_eq_getElem inside]
  simp [bytesAt]

private theorem slice_eq_ok (sliced : memory.slice address length = .ok bytes) :
    bytes.length = length ∧ memory.Holds address bytes := by
  unfold slice at sliced
  split at sliced
  · next fits =>
    cases sliced
    exact ⟨memory.length_bytesAt address length fits, memory.holds_bytesAt fits⟩
  · contradiction

theorem Holds.overlay_eq (holds : memory.Holds address bytes) :
    memory.overlay address bytes = memory := by
  apply Vector.ext
  intro query h
  by_cases inside : address ≤ query ∧ query < address + bytes.length
  · obtain ⟨offset, rfl⟩ := Nat.exists_eq_add_of_le inside.1
    have within : offset < bytes.length := by omega
    have found := holds offset within
    rw [Vector.getElem?_eq_getElem h] at found
    rw [getElem_overlay_inside memory address bytes offset within h]
    exact (Option.some.inj found).symm
  · exact getElem_overlay_outside memory address bytes query h (by omega)

end Memory

namespace Registers

theorem getElem_upTo (registers : Registers) {last : Fin 16} {index : Nat}
    (h : index < (registers.upTo last).length) (small : index < 16) :
    (registers.upTo last)[index] = registers.get ⟨index, small⟩ := by
  simp only [upTo, List.getElem_ofFn]
  rfl

private theorem get_replaceFirst (registers : Registers) (values : List UInt8) (register : Fin 16) :
    (registers.replaceFirst values).get register =
      values.getD register.val (registers.get register) :=
  getElem_replaceFirst registers values register.val (digit_lt register)

end Registers

theorem Memory.holds_upTo_iff {memory : Memory} {address : Nat} {registers : Registers}
    {last : Fin 16} : memory.Holds address (registers.upTo last) ↔
      ∀ register ≤ last, memory[address + register.val]? = some (registers.get register) := by
  have length := registers.length_upTo last
  constructor
  · intro holds register below
    have within : register.val < (registers.upTo last).length := by omega
    rw [holds register.val within, registers.getElem_upTo within register.isLt]
  · intro held offset h
    have small : offset < 16 := by omega
    have below : (⟨offset, small⟩ : Fin 16) ≤ last := by
      rw [Fin.le_def]
      exact Nat.le_of_lt_succ (Nat.lt_of_lt_of_eq h length)
    rw [registers.getElem_upTo h small]
    exact held _ below

theorem Effect.exists_digits (value : UInt8) :
    ∃ hundreds tens units : UInt8, decimalDigits value = [hundreds, tens, units] ∧
      hundreds ≤ 9 ∧ tens ≤ 9 ∧ units ≤ 9 ∧
      100 * hundreds.toNat + 10 * tens.toNat + units.toNat = value.toNat := by
  have bound := value.toNat_lt
  refine ⟨_, _, _, rfl, ?_⟩
  simp only [UInt8.le_iff_toNat_le, UInt8.toNat_div, UInt8.toNat_mod, UInt8.reduceToNat]
  omega

namespace State
variable {state after : State} {x : Fin 16}

theorem load_of_inRange {address : Nat} {bytes : List UInt8}
    (fits : Memory.InRange address bytes.length) :
    state.load address bytes = .ok { state with memory := state.memory.overlay address bytes } := by
  rw [load, Memory.load, if_pos fits]
  rfl

theorem load_of_past {address : Nat} {bytes : List UInt8} (past : 4096 < address + bytes.length) :
    state.load address bytes = .error (.outOfBounds address bytes.length) := by
  rw [load, Memory.load, if_neg (Nat.not_le.mpr past)]
  rfl

theorem get_loadRegisters (loaded : state.loadRegisters x = .ok after) :
    (∀ register ≤ x, state.memory[state.i.toNat + register.val]? = some (after.v.get register)) ∧
      ∀ register, x < register → after.v.get register = state.v.get register := by
  obtain ⟨values, sliced, rfl⟩ := loadRegisters_eq_ok loaded
  obtain ⟨length, holds⟩ := Memory.slice_eq_ok sliced
  simp only [Registers.get_replaceFirst]
  refine ⟨?_, ?_⟩
  · intro register below
    have within : register.val < values.length := by omega
    rw [holds register.val within, List.getElem_eq_getD]
  · intro register above
    have past : values.length ≤ register.val := by omega
    rw [List.getD_eq_getElem?_getD, List.getElem?_eq_none past, Option.getD_none]

end State

inductive Transfer where
  | decimal
  | store
  | load
deriving DecidableEq, Repr

namespace Transfer
variable {transfer : Transfer} {state : State} {x : Fin 16}

def kind : Transfer → Kind
  | decimal => .storeDecimal
  | store => .storeRegisters
  | load => .loadRegisters

def length (transfer : Transfer) (x : Fin 16) : Nat :=
  match transfer with
  | decimal => 3
  | store | load => x.val + 1

def move (transfer : Transfer) (x : Fin 16) (state : State) : Except Fault State :=
  match transfer with
  | decimal => state.storeDecimal (state.v.get x)
  | store => state.storeRegisters x
  | load => state.loadRegisters x

private theorem move_of_past (past : 4096 < state.i.toNat + transfer.length x) :
    transfer.move x state = .error (.outOfBounds state.i.toNat (transfer.length x)) := by
  cases transfer with
  | decimal => exact State.load_of_past past
  | store =>
    have length : (state.v.upTo x).length = Transfer.store.length x := state.v.length_upTo x
    rw [← length] at past ⊢
    exact State.load_of_past past
  | load =>
    have outside : ¬ Memory.InRange state.i.toNat (x.val + 1) := Nat.not_le.mpr past
    rw [move, State.loadRegisters, Memory.slice, dif_neg outside]
    rfl

end Transfer

/-- Trying the opcode on a state past it yields this, wherever the opcode was fetched and whatever
the policy and the random byte are. -/
def Attempt.Yields (opcode : UInt16) (state : State) (result : Except Fault State) : Prop :=
  ∀ address policy byte, (ofOpcode opcode address policy byte state).result = result

theorem Attempt.yields_transfer (transfer : Transfer) (x : Fin 16) (state : State) :
    Yields (transfer.kind.encode x 0 0) state (transfer.move x state) := by
  intro address policy byte
  have program : transfer.kind ≠ .machineCode := by cases transfer <;> nofun
  obtain ⟨instruction, carries, result⟩ :=
    result_ofOpcode_encode program x 0 0 address policy byte state
  have target : instruction.x = x := by
    rw [carries.x_eq]
    cases transfer <;> rfl
  rw [result, Instruction.perform, carries.kind_eq, target]
  cases transfer <;> rfl

theorem Attempt.yields_of_past {transfer : Transfer} {x : Fin 16} {state : State}
    (past : 4096 < state.i.toNat + transfer.length x) :
    Yields (transfer.kind.encode x 0 0) state
      (.error (.outOfBounds state.i.toNat (transfer.length x))) := by
  rw [← Transfer.move_of_past past]
  exact yields_transfer transfer x state

theorem Machine.cycle_of_yields_error {machine : Machine} {opcode : UInt16} {fault : Fault}
    (word : machine.state.memory.word machine.state.pc.toNat = .ok opcode)
    (yields : Attempt.Yields opcode machine.poll.state.passed (.error fault)) :
    machine.cycle.outcome = .failed fault ∧
      machine.cycle.machine.state = { machine.state with keys := machine.keypad.current } := by
  have polled : machine.poll.state.memory.word machine.poll.state.pc.toNat = .ok opcode := word
  have failed : machine.attempt.result = .error fault := by
    rw [attempt, State.attempt, State.fetch_eq, polled]
    exact yields ..
  rw [cycle_of_error failed]
  exact ⟨rfl, rfl⟩

namespace State
variable {state : State} {x : Fin 16}

theorem yields_storeRegisters (fits : state.i.toNat + (x.val + 1) ≤ 4096) :
    Attempt.Yields (Kind.storeRegisters.encode x 0 0) state
      (.ok { state with memory := state.memory.overlay state.i.toNat (state.v.upTo x) }) := by
  have inside : Memory.InRange state.i.toNat (state.v.upTo x).length := by
    rw [Registers.length_upTo]
    exact fits
  rw [← load_of_inRange inside]
  exact Attempt.yields_transfer .store x state

theorem exists_yields_loadRegisters (fits : state.i.toNat + (x.val + 1) ≤ 4096) :
    ∃ v, Attempt.Yields (Kind.loadRegisters.encode x 0 0) state (.ok { state with v }) ∧
      (∀ register ≤ x, state.memory[state.i.toNat + register.val]? = some (v.get register)) ∧
      ∀ register, x < register → v.get register = state.v.get register := by
  have loaded : ∃ v, state.loadRegisters x = .ok { state with v } := by
    refine ⟨state.v.replaceFirst (state.memory.bytesAt state.i.toNat (x.val + 1) fits), ?_⟩
    rw [loadRegisters, Memory.slice, dif_pos fits]
    rfl
  obtain ⟨v, loaded⟩ := loaded
  refine ⟨v, ?_, get_loadRegisters loaded⟩
  rw [← loaded]
  exact Attempt.yields_transfer .load x state

private theorem yields_storeDecimal (fits : state.i.toNat + 3 ≤ 4096) :
    Attempt.Yields (Kind.storeDecimal.encode x 0 0) state
      (.ok { state with
        memory := state.memory.overlay state.i.toNat (Effect.decimalDigits (state.v.get x)) }) := by
  rw [← load_of_inRange fits]
  exact Attempt.yields_transfer .decimal x state

private theorem exists_yields_of_holds {registers : Registers}
    (fits : state.i.toNat + (x.val + 1) ≤ 4096)
    (held : ∀ register ≤ x,
      state.memory[state.i.toNat + register.val]? = some (registers.get register)) :
    ∃ v, Attempt.Yields (Kind.loadRegisters.encode x 0 0) state (.ok { state with v }) ∧
      (∀ register ≤ x, v.get register = registers.get register) ∧
      ∀ register, x < register → v.get register = state.v.get register := by
  obtain ⟨v, yields, loaded, kept⟩ := exists_yields_loadRegisters fits
  refine ⟨v, yields, ?_, kept⟩
  intro register below
  exact Option.some.inj ((loaded register below).symm.trans (held register below))

theorem yields_self_of_holds (fits : state.i.toNat + (x.val + 1) ≤ 4096)
    (held : ∀ register ≤ x,
      state.memory[state.i.toNat + register.val]? = some (state.v.get register)) :
    Attempt.Yields (Kind.storeRegisters.encode x 0 0) state (.ok state) := by
  have stored := yields_storeRegisters fits
  rwa [(Memory.holds_upTo_iff.mpr held).overlay_eq] at stored

private theorem exists_yields_storeDecimal (fits : state.i.toNat + 3 ≤ 4096) :
    ∃ (memory : Memory) (hundreds tens units : UInt8),
      Attempt.Yields (Kind.storeDecimal.encode x 0 0) state (.ok { state with memory }) ∧
      memory.Holds state.i.toNat [hundreds, tens, units] ∧
      hundreds ≤ 9 ∧ tens ≤ 9 ∧ units ≤ 9 ∧
      100 * hundreds.toNat + 10 * tens.toNat + units.toNat = (state.v.get x).toNat ∧
      ∀ address, address < state.i.toNat ∨ state.i.toNat + 2 < address →
        memory[address]? = state.memory[address]? := by
  obtain ⟨hundreds, tens, units, digits, high, middle, low, value⟩ :=
    Effect.exists_digits (state.v.get x)
  have inside : Memory.InRange state.i.toNat [hundreds, tens, units].length := fits
  have yields := yields_storeDecimal fits (x := x)
  rw [digits] at yields
  refine ⟨_, hundreds, tens, units, yields, state.memory.holds_overlay inside, high, middle, low,
    value, ?_⟩
  intro address outside
  exact state.memory.getElem?_overlay_outside (outside.imp_right Nat.succ_le_of_lt)

/-- Registers that are stored and loaded again come back, and so do bytes that are loaded and stored
again. The digits of a register are those of its number and can be loaded one by one. A transfer
whose range passes the end of the memory moves nothing at all. -/
theorem transfers_round_trip (state : State) (x : Fin 16) :
    let i := state.i.toNat
    (i + x.val + 1 ≤ 4096 →
      (∃ memory : Memory,
        Attempt.Yields (Kind.storeRegisters.encode x 0 0) state (.ok { state with memory }) ∧
        (∀ register ≤ x, memory[i + register.val]? = some (state.v.get register)) ∧
        (∀ address, address < i ∨ i + x.val < address →
          memory[address]? = state.memory[address]?) ∧
        ∀ other : State, other.i = state.i →
          (∀ register ≤ x, other.memory[i + register.val]? = memory[i + register.val]?) →
          ∃ v, Attempt.Yields (Kind.loadRegisters.encode x 0 0) other (.ok { other with v }) ∧
            (∀ register ≤ x, v.get register = state.v.get register) ∧
            ∀ register, x < register → v.get register = other.v.get register) ∧
      ∃ v, Attempt.Yields (Kind.loadRegisters.encode x 0 0) state (.ok { state with v }) ∧
        ∀ next : State, next.i = state.i → next.memory = state.memory → next.v = v →
          Attempt.Yields (Kind.storeRegisters.encode x 0 0) next (.ok next)) ∧
    (i + 3 ≤ 4096 → ∃ (memory : Memory) (hundreds tens units : UInt8),
      Attempt.Yields (Kind.storeDecimal.encode x 0 0) state (.ok { state with memory }) ∧
      memory[i]? = some hundreds ∧ memory[i + 1]? = some tens ∧ memory[i + 2]? = some units ∧
      hundreds ≤ 9 ∧ tens ≤ 9 ∧ units ≤ 9 ∧
      100 * hundreds.toNat + 10 * tens.toNat + units.toNat = (state.v.get x).toNat ∧
      (∀ address, address < i ∨ i + 2 < address → memory[address]? = state.memory[address]?) ∧
      ∀ next : State, next.i = state.i → next.memory = memory →
        ∃ v, Attempt.Yields 0xF265 next (.ok { next with v }) ∧
          v.get 0 = hundreds ∧ v.get 1 = tens ∧ v.get 2 = units ∧
          ∀ register, 2 < register → v.get register = next.v.get register) ∧
    ∀ transfer : Transfer, 4096 < i + transfer.length x →
      Attempt.Yields (transfer.kind.encode x 0 0) state
        (.error (.outOfBounds i (transfer.length x))) ∧
      ∀ machine : Machine, machine.state.i = state.i →
        machine.state.memory.word machine.state.pc.toNat = .ok (transfer.kind.encode x 0 0) →
        machine.cycle.outcome = .failed (.outOfBounds i (transfer.length x)) ∧
          machine.cycle.machine.state = { machine.state with keys := machine.keypad.current } := by
  intro i
  refine ⟨?_, ?_, ?_⟩
  · intro fits
    refine ⟨?_, ?_⟩
    · have inside : Memory.InRange i (state.v.upTo x).length := by
        rw [Registers.length_upTo]
        exact fits
      have stored := Memory.holds_upTo_iff.mp (state.memory.holds_overlay inside)
      refine ⟨_, yields_storeRegisters fits, stored, ?_, ?_⟩
      · intro address outside
        rw [state.memory.getElem?_overlay_outside]
        rw [Registers.length_upTo]
        exact outside.imp_right Nat.succ_le_of_lt
      · intro other index agree
        apply exists_yields_of_holds (by rw [index]; exact fits)
        intro register below
        rw [index, agree register below, stored register below]
    · obtain ⟨v, yields, loaded, -⟩ := exists_yields_loadRegisters fits
      refine ⟨v, yields, ?_⟩
      rintro next index memory rfl
      apply yields_self_of_holds (by rw [index]; exact fits)
      rw [index, memory]
      exact loaded
  · intro fits
    obtain ⟨memory, hundreds, tens, units, yields, holds, high, middle, low, value, kept⟩ :=
      exists_yields_storeDecimal fits (x := x)
    have first := holds 0 (by simp)
    have second := holds 1 (by simp)
    have third := holds 2 (by simp)
    refine ⟨memory, hundreds, tens, units, yields, first, second, third, high, middle, low, value,
      kept, ?_⟩
    rintro next index rfl
    have nextFits : next.i.toNat + ((2 : Fin 16).val + 1) ≤ 4096 := by
      rw [index]
      exact fits
    rw [← index] at first second third
    obtain ⟨v, loads, loaded, others⟩ := exists_yields_loadRegisters nextFits
    refine ⟨v, loads, ?_, ?_, ?_, others⟩
    · exact Option.some.inj ((loaded 0 (by decide)).symm.trans first)
    · exact Option.some.inj ((loaded 1 (by decide)).symm.trans second)
    · exact Option.some.inj ((loaded 2 (by decide)).symm.trans third)
  · intro transfer past
    refine ⟨Attempt.yields_of_past past, ?_⟩
    intro machine index word
    have same : machine.poll.state.passed.i = state.i := index
    have refused : Attempt.Yields (transfer.kind.encode x 0 0) machine.poll.state.passed _ :=
      Attempt.yields_of_past (by rw [same]; exact past)
    rw [same] at refused
    exact Machine.cycle_of_yields_error word refused

/-- Three bytes at the very end of the memory: registers and digits that just fit, and one register
more, which does not. -/
theorem transfers_at_end_of_memory :
    let state : State := { State.zero.setRegister 2 234 with i := 0xFFD }
    (∃ memory : Memory, Attempt.Yields 0xF255 state (.ok { state with memory }) ∧
      memory[0xFFF]? = some 234 ∧
      ∃ v, Attempt.Yields 0xF265 { state with memory, v := Registers.zero }
          (.ok { state with memory, v }) ∧ v.get 2 = 234) ∧
    (∃ v, Attempt.Yields 0xF265 state (.ok { state with v }) ∧
      Attempt.Yields 0xF255 { state with v } (.ok { state with v })) ∧
    (∃ memory : Memory, Attempt.Yields 0xF233 state (.ok { state with memory }) ∧
      ∃ v, Attempt.Yields 0xF265 { state with memory } (.ok { state with memory, v }) ∧
        v.get 0 = 2 ∧ v.get 1 = 3 ∧ v.get 2 = 4) ∧
    let start := Machine.create Config.default (.constant Keys.released) (.ofArray #[])
    let machine := { start with
      state := { state with memory := Memory.zero.overlay 0 [0xF3, 0x55] } }
    Attempt.Yields 0xF355 state (.error (.outOfBounds 0xFFD 4)) ∧
      machine.cycle.outcome = .failed (.outOfBounds 0xFFD 4) := by
  intro state
  obtain ⟨block, digits, -⟩ := transfers_round_trip state 2
  obtain ⟨-, -, refused⟩ := transfers_round_trip state 3
  obtain ⟨⟨memory, stores, stored, -, loads⟩, v, loaded, restored⟩ := block (by decide)
  refine ⟨⟨memory, stores, ?_, ?_⟩, ⟨v, loaded, restored _ rfl rfl rfl⟩, ?_, ?_⟩
  · exact stored 2 (by decide)
  · obtain ⟨v, yields, same, -⟩ := loads { state with memory, v := Registers.zero } rfl
      fun _ _ => rfl
    exact ⟨v, yields, same 2 (by decide)⟩
  · obtain ⟨memory, hundreds, tens, units, decimal, -, -, -, high, middle, low, value, -, loads⟩ :=
      digits (by decide)
    obtain ⟨v, yields, first, second, third, -⟩ := loads { state with memory } rfl rfl
    have number : 100 * hundreds.toNat + 10 * tens.toNat + units.toNat = 234 := value
    simp only [UInt8.le_iff_toNat_le, UInt8.reduceToNat] at high middle low
    refine ⟨memory, decimal, v, yields, ?_, ?_, ?_⟩
    · simp only [first, ← UInt8.toNat_inj, UInt8.reduceToNat]
      omega
    · simp only [second, ← UInt8.toNat_inj, UInt8.reduceToNat]
      omega
    · simp only [third, ← UInt8.toNat_inj, UInt8.reduceToNat]
      omega
  · obtain ⟨yields, machines⟩ := refused .store (by decide)
    refine ⟨yields, (machines _ rfl ?_).1⟩
    apply eq_ok_of_toOption
    decide +kernel

end State
end ChipEight
