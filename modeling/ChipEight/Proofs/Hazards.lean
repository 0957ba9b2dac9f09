import ChipEight.Proofs.Attempt
import ChipEight.Proofs.Calm
import ChipEight.Proofs.Patterns

/-! When a cycle fails, as a table. Its lines are read off the state and the word under the
counter, with no word on how an instruction is decoded or carried out, and the first line
that applies is the fault. -/
namespace ChipEight

def faultOf {α : Type} : Except Fault α → Option Fault
  | .error fault => some fault
  | .ok _ => none

@[simp] theorem faultOf_ok {α : Type} (value : α) : faultOf (.ok value) = none := rfl

@[simp] theorem faultOf_error {α : Type} (fault : Fault) :
    faultOf (.error fault : Except Fault α) = some fault := rfl

theorem faultOf_bind_ok {α β : Type} (first : Except Fault α) (next : α → β) :
    faultOf (first >>= fun value => .ok (next value)) = faultOf first := by
  cases first <;> rfl

structure Hazard where
  given : Bool
  fault : Fault

def Hazard.first? (hazards : List Hazard) : Option Fault :=
  (hazards.find? Hazard.given).map Hazard.fault

namespace Hazard

@[simp] theorem first?_nil : first? [] = none := rfl

@[simp] theorem first?_cons (given : Bool) (fault : Fault) (rest : List Hazard) :
    first? (⟨given, fault⟩ :: rest) = if given then some fault else first? rest := by
  cases given <;> rfl

end Hazard

namespace Memory

theorem faultOf_slice (memory : Memory) (address length : Nat) :
    faultOf (memory.slice address length) =
      if 4096 < address + length then some (.outOfBounds address length) else none := by
  unfold slice
  split
  · rw [if_neg (by omega), faultOf_ok]
  · rw [if_pos (by omega), faultOf_error]

theorem faultOf_load (memory : Memory) (address : Nat) (bytes : List UInt8) :
    faultOf (memory.load address bytes) =
      if 4096 < address + bytes.length then some (.outOfBounds address bytes.length) else none := by
  unfold load
  split
  · rw [if_neg (by omega), faultOf_ok]
  · rw [if_pos (by omega), faultOf_error]

theorem toNat_joined (high low : UInt8) :
    (high.toUInt16 <<< 8 ||| low.toUInt16).toNat = 256 * high.toNat + low.toNat := by
  have highBound := high.toNat_lt
  have lowBound := low.toNat_lt
  have shifted : high.toNat <<< 8 < 65536 := by
    rw [Nat.shiftLeft_eq]
    omega
  rw [UInt16.toNat_or, UInt16.toNat_shiftLeft, UInt8.toNat_toUInt16, UInt8.toNat_toUInt16]
  have amount : (8 : UInt16).toNat % 16 = 8 := rfl
  rw [amount, Nat.mod_eq_of_lt shifted, ← Nat.shiftLeft_add_eq_or_of_lt lowBound, Nat.shiftLeft_eq,
    Nat.mul_comm]

/-- Two bytes as one number, the high one first. Past the end of memory there are zeros. -/
def bigEndian (memory : Memory) (address : Nat) : UInt16 :=
  UInt16.ofNat
    (256 * (memory[address]?.getD 0).toNat + (memory[address + 1]?.getD 0).toNat)

theorem word_eq (memory : Memory) (address : Nat) :
    memory.word address =
      if 4096 < address + 2 then .error (.outOfBounds address 2)
      else .ok (memory.bigEndian address) := by
  unfold word
  split
  next fits =>
    rw [if_neg (by omega)]
    rw [bigEndian, Vector.getElem?_eq_getElem (by omega), Vector.getElem?_eq_getElem (by omega)]
    have high := memory[address].toNat_lt
    have low := memory[address + 1].toNat_lt
    congr 1
    rw [← UInt16.toNat_inj, toNat_joined]
    exact (Nat.mod_eq_of_lt (by simp; omega)).symm
  next outside => rw [if_pos (by omega)]

end Memory

namespace State

private theorem faultOf_advance (state : State) :
    faultOf state.advance =
      if 4096 < state.pc.toNat + 2 then some (.programCounterOverflow state.pc) else none := by
  unfold advance
  split
  · rw [if_neg (by omega), faultOf_ok]
  · rw [if_pos (by omega), faultOf_error]

private theorem faultOf_skipIf (state : State) (condition : Bool) :
    faultOf (state.skipIf condition) =
      if condition && 4096 < state.pc.toNat + 2 then some (.programCounterOverflow state.pc)
      else none := by
  cases condition with
  | false => rfl
  | true => simp [faultOf_advance]

private theorem faultOf_awaitKey (state : State) (target : Fin 16) :
    faultOf (state.awaitKey target) =
      if state.keys.firstHeld?.isNone && state.pc.toNat ≤ 2 then
        some (.programCounterUnderflow state.pc)
      else none := by
  unfold awaitKey
  split
  next key held => simp [held]
  next held =>
    unfold rewind
    split
    next room => simp [held]; omega
    next low => simp [held]; omega

private theorem faultOf_call (state : State) (caller target : UInt16) :
    faultOf (state.call caller target) =
      if 15 ≤ state.stack.pointer.toNat then some (.stackOverflow caller) else none := by
  unfold call CallStack.push?
  by_cases room : state.stack.pointer.toNat < 15
  · rw [dif_pos room, if_neg (by omega), faultOf_ok]
  · rw [dif_neg room, if_pos (by omega), faultOf_error]

private theorem faultOf_returnTo (state : State) (bounded : state.stack.pointer.toNat ≤ 15)
    (caller : UInt16) :
    faultOf (state.returnTo caller) =
      if state.stack.pointer = 0 then some (.stackUnderflow caller) else none := by
  have top : state.stack.top? = some state.stack.slots[state.stack.pointer.toNat] :=
    Vector.getElem?_eq_getElem (by omega)
  unfold returnTo
  split
  · rfl
  · rw [top, faultOf_ok]

private theorem faultOf_drawSprite (state : State) (x y height : UInt8) :
    faultOf (state.drawSprite x y height) =
      if 4096 < state.i.toNat + height.toNat then
        some (.outOfBounds state.i.toNat height.toNat)
      else none := by
  rw [← Memory.faultOf_slice state.memory]
  exact faultOf_bind_ok ..

theorem faultOf_load (state : State) (address : Nat) (bytes : List UInt8) :
    faultOf (state.load address bytes) =
      if 4096 < address + bytes.length then some (.outOfBounds address bytes.length) else none := by
  rw [← Memory.faultOf_load state.memory]
  exact faultOf_bind_ok ..

private theorem faultOf_loadRegisters (state : State) (last : Fin 16) :
    faultOf (state.loadRegisters last) =
      if 4096 < state.i.toNat + (last.val + 1) then
        some (.outOfBounds state.i.toNat (last.val + 1))
      else none := by
  rw [← Memory.faultOf_slice state.memory]
  exact faultOf_bind_ok ..


def opcode (state : State) : UInt16 := state.memory.bigEndian state.pc.toNat

/-- Whether the opcode is a skip and its condition holds. Its digits and the key are written out
here and not taken from the program. -/
def skips (state : State) : Bool :=
  let is (kind : Kind) := kind.covers state.opcode
  let word := state.opcode.toNat
  let vx := state.v[word / 256 % 16]
  let vy := state.v[word / 16 % 16]
  let held := state.keys[vx.toNat % 16]
  (is .skipIfByte && vx.toNat == word % 256) || (is .skipUnlessByte && vx.toNat != word % 256) ||
    (is .skipIfSame && vx == vy) || (is .skipUnlessSame && vx != vy) ||
    (is .skipIfHeld && held) || (is .skipUnlessHeld && !held)

theorem skips_eq (state : State) :
    let is (kind : Kind) := kind.covers state.opcode
    let operands := Operands.ofOpcode state.opcode
    let vx := state.v.get operands.x
    let vy := state.v.get operands.y
    state.skips = ((is .skipIfByte && vx == operands.nn) ||
      (is .skipUnlessByte && vx != operands.nn) ||
      (is .skipIfSame && vx == vy) || (is .skipUnlessSame && vx != vy) ||
      (is .skipIfHeld && state.holdsKey vx) || (is .skipUnlessHeld && !state.holdsKey vx)) := by
  intro is operands vx vy
  have byte : (vx.toNat == state.opcode.toNat % 256) = (vx == operands.nn) := by
    rw [← Operands.toNat_nn_ofOpcode, Bool.eq_iff_iff, beq_iff_eq, beq_iff_eq]
    exact UInt8.toNat_inj
  have bytes : (vx.toNat != state.opcode.toNat % 256) = (vx != operands.nn) :=
    congrArg not byte
  rw [← byte, ← bytes]
  rfl

/-- What can be wrong with a state whose keys have just been polled, in the order in which a
cycle comes upon it. -/
def hazards (state : State) (policy : MachineCodePolicy) : List Hazard :=
  let is (kind : Kind) := kind.covers state.opcode
  let pc := state.pc.toNat
  let i := state.i.toNat
  let pointer := state.stack.pointer.toNat
  let x := digitAt state.opcode 2
  let n := digitAt state.opcode 0
  [⟨4096 < pc + 2, .outOfBounds pc 2⟩,
    ⟨!Kind.all.any is, .unknownOpcode state.opcode (state.opcode >>> 12).toUInt8 state.pc⟩,
    ⟨is .machineCode && policy == .reject, .unsupported state.opcode state.pc⟩,
    ⟨is .returnCall && pointer == 0, .stackUnderflow state.pc⟩,
    ⟨is .call && pointer == 15, .stackOverflow state.pc⟩,
    ⟨state.skips && 4096 < pc + 4, .programCounterOverflow (state.pc + 2)⟩,
    ⟨is .awaitKey && state.keys.all (! ·) && pc == 0, .programCounterUnderflow 2⟩,
    ⟨is .drawSprite && 4096 < i + n, .outOfBounds i n⟩,
    ⟨is .storeDecimal && 4096 < i + 3, .outOfBounds i 3⟩,
    ⟨(is .storeRegisters || is .loadRegisters) && 4096 < i + (x + 1), .outOfBounds i (x + 1)⟩]

private theorem hazards_of_outside {state : State} (outside : 4096 < state.pc.toNat + 2)
    (policy : MachineCodePolicy) :
    Hazard.first? (state.hazards policy) = some (.outOfBounds state.pc.toNat 2) := by
  simp [hazards, outside]

private theorem hazards_of_unknown {state : State} (inside : state.pc.toNat + 2 ≤ 4096)
    (unknown : Kind.ofOpcode? state.opcode = none) (policy : MachineCodePolicy) :
    Hazard.first? (state.hazards policy) =
      some (.unknownOpcode state.opcode (segmentOf state.opcode) state.pc) := by
  have none : ∀ kind : Kind, kind.covers state.opcode = false := by
    intro kind
    rw [← Bool.not_eq_true, ← Kind.ofOpcode?_eq_some_iff, unknown]
    nofun
  have segment : (state.opcode >>> 12).toUInt8 = segmentOf state.opcode := by
    rw [← UInt8.toNat_inj]
    simp [segmentOf, Nat.shiftRight_eq_div_pow]
  simp [hazards, none, segment, Nat.not_lt.mpr inside]

theorem firstHeld?_eq_none_iff (keys : Keys) :
    keys.firstHeld? = none ↔ ∀ (key : Nat) (h : key < 16), keys[key] = false := by
  rw [Keys.firstHeld?, List.find?_eq_none]
  constructor
  · intro released key h
    exact Bool.eq_false_iff.mpr (released ⟨key, h⟩ (List.mem_finRange _))
  · intro released key _
    exact Bool.eq_false_iff.mp (released key.val key.isLt)

@[simp] theorem v_passed (state : State) : state.passed.v = state.v := rfl

@[simp] theorem i_passed (state : State) : state.passed.i = state.i := rfl

@[simp] theorem stack_passed (state : State) : state.passed.stack = state.stack := rfl

@[simp] theorem keys_passed (state : State) : state.passed.keys = state.keys := rfl

private theorem faultOf_jumpFrom (state : State) (offset : UInt8) {target : UInt16}
    (narrow : target.toNat < 4096) : faultOf (state.jumpFrom offset target) = none := by
  have byte := offset.toNat_lt
  rw [jumpFrom, if_pos (by omega), faultOf_ok]

private theorem faultOf_execute {state : State} {instruction : Instruction}
    (inside : state.pc.toNat + 2 ≤ 4096) (bounded : state.stack.pointer.toNat ≤ 15)
    (found : Kind.ofOpcode? state.opcode = some instruction.kind)
    (operands : instruction.toOperands = Operands.ofOpcode state.opcode)
    (opcode : instruction.opcode = state.opcode)
    (address : instruction.address = state.pc) (policy : MachineCodePolicy) (byte : UInt8) :
    faultOf (instruction.execute policy byte state.passed) =
      Hazard.first? (state.hazards policy) := by
  have covers := Kind.covers_eq found
  have known : Kind.all.any (fun kind => instruction.kind == kind) = true :=
    List.any_eq_true.mpr ⟨_, Kind.mem_all _, beq_self_eq_true _⟩
  have passed := toNat_pc_passed inside
  have x : instruction.x.val = digitAt state.opcode 2 := by rw [operands]; rfl
  have n : instruction.n.toNat = digitAt state.opcode 0 := by
    rw [operands, Operands.toNat_n_ofOpcode]
    simp [digitAt]
  simp only [hazards, skips_eq, covers, Nat.not_lt.mpr inside, known, Hazard.first?_cons]
  unfold Instruction.execute Instruction.perform
  -- A known kind leaves of the table only what that kind can meet.
  cases kind : instruction.kind
  case machineCode =>
    cases policy <;> simp [opcode, address]
  case returnCall =>
    have empty : state.stack.pointer.toNat = 0 ↔ state.stack.pointer = 0 := UInt8.toNat_inj (b := 0)
    have returned := faultOf_returnTo state.passed bounded state.pc
    simp [returned, address]
    exact ite_congr (propext empty.symm) (fun _ => rfl) fun _ => rfl
  case call =>
    have full : 15 ≤ state.stack.pointer.toNat ↔ state.stack.pointer.toNat = 15 := by omega
    simp [faultOf_call, address, full]
  case jumpFromV0 =>
    have narrow : instruction.nnn.toNat < 4096 := by
      rw [operands, Operands.toNat_nnn_ofOpcode]
      exact Nat.mod_lt _ (by decide)
    simp [faultOf_jumpFrom _ _ narrow]
  case skipIfByte | skipUnlessByte | skipIfSame | skipUnlessSame | skipIfHeld | skipUnlessHeld =>
    simp [operands, faultOf_skipIf, passed, holdsKey]
    rfl
  case awaitKey =>
    have low : state.passed.pc.toNat ≤ 2 ↔ state.pc.toNat = 0 := by omega
    simp [faultOf_awaitKey, firstHeld?_eq_none_iff, low]
    refine ite_congr rfl (fun stuck => ?_) fun _ => rfl
    have start : state.passed.pc = 2 := by
      rw [← UInt16.toNat_inj, passed, stuck.2]
      rfl
    rw [start]
  case drawSprite => simp [faultOf_drawSprite, n]
  case storeDecimal =>
    simp [storeDecimal, faultOf_load]
    exact ite_congr rfl (fun _ => rfl) fun _ => rfl
  case storeRegisters => simp [storeRegisters, faultOf_load, x]
  case loadRegisters => simp [faultOf_loadRegisters, x]
  all_goals simp

theorem faultOf_attempt {state : State} (bounded : state.stack.pointer.toNat ≤ 15)
    (policy : MachineCodePolicy) (byte : UInt8) :
    faultOf (state.attempt policy byte).result = Hazard.first? (state.hazards policy) := by
  by_cases outside : 4096 < state.pc.toNat + 2
  · have unread : state.instruction = .error (.outOfBounds state.pc.toNat 2) := by
      rw [State.instruction, Memory.word_eq, if_pos outside]
      rfl
    rw [attempt_eq, unread, hazards_of_outside outside]
    rfl
  · have read : state.instruction = Instruction.decode state.opcode state.pc := by
      rw [State.instruction, Memory.word_eq, if_neg outside]
      rfl
    have inside : state.pc.toNat + 2 ≤ 4096 := Nat.not_lt.mp outside
    rw [attempt_eq, read]
    cases decoded : Instruction.decode state.opcode state.pc with
    | error fault =>
      obtain ⟨unknown, rfl⟩ := (Instruction.decode_eq_error_iff ..).mp decoded
      rw [hazards_of_unknown inside unknown]
      rfl
    | ok instruction =>
      obtain ⟨found, operands, opcode, address⟩ := Instruction.decode_eq_ok decoded
      exact faultOf_execute inside bounded found operands opcode address policy byte

end State

namespace Machine

theorem outcome_eq_failed_iff (machine : Machine) (fault : Fault) :
    machine.cycle.outcome = .failed fault ↔ faultOf machine.attempt.result = some fault := by
  constructor
  · intro failed
    rw [result_of_failed failed, faultOf_error]
  · intro failed
    cases result : machine.attempt.result with
    | error cause =>
      rw [result] at failed
      cases failed
      rw [cycle_of_error result]
    | ok state =>
      rw [result] at failed
      contradiction

/-- A cycle fails exactly with the first hazard that is given once the keys are polled. When none
is given its instruction succeeds. A counter that could be read from can also be moved on. -/
theorem cycle_fails_iff {machine : Machine} (bounded : machine.state.stack.pointer.toNat ≤ 15) :
    let hazard := Hazard.first?
      ((machine.state.setKeys machine.keypad.current).hazards machine.config.machineCode)
    (∀ fault, machine.cycle.outcome = .failed fault ↔ hazard = some fault) ∧
      (hazard = none → (∃ state, machine.attempt.result = .ok state) ∧
        (machine.Calm → machine.cycle.outcome = .done)) ∧
      ∀ opcode, machine.state.memory.word machine.state.pc.toNat = .ok opcode →
        machine.state.advance = .ok machine.state.passed := by
  intro hazard
  have boundedPolled : machine.poll.state.stack.pointer.toNat ≤ 15 := bounded
  have met : faultOf machine.attempt.result = hazard := State.faultOf_attempt boundedPolled ..
  refine ⟨?_, ?_, ?_⟩
  · intro fault
    rw [outcome_eq_failed_iff, met]
  · intro safe
    cases result : machine.attempt.result with
    | error fault =>
      rw [result, safe] at met
      contradiction
    | ok state => exact ⟨⟨state, rfl⟩, fun calm => (cycle_of_calm calm result).1⟩
  · intro opcode word
    rw [Memory.word_eq] at word
    split at word
    · contradiction
    next inside => exact State.advance_of_le (Nat.not_lt.mp inside)

theorem cycle_fails_past_memory :
    let state : State :=
      { State.zero with
        memory := State.zero.memory.overlay 0x200 [0xD0, 0x05], pc := 0x200, i := 0xFFD }
    let machine : Machine :=
      { create Config.default (.constant Keys.released) (.ofArray #[]) with state }
    machine.cycle.outcome = .failed (.outOfBounds 0xFFD 5) := by
  intro state machine
  have bounded : machine.state.stack.pointer.toNat ≤ 15 := by decide
  exact ((cycle_fails_iff bounded).1 _).mpr (by decide +kernel)

end Machine
end ChipEight
