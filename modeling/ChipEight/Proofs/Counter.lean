import ChipEight.Proofs.Calls
import ChipEight.Proofs.Fields
import ChipEight.Proofs.Hazards

/-! Where the counter goes. A table says so for every cycle that succeeds, from the opcode, the
registers, the stack and the keys, and over a run it leaves few ways: to the same instruction or
one of the next two, to a target of twelve bits with or without the first register added, or
back to where an earlier call came from. -/
namespace ChipEight

namespace State

/-- Where a cycle that succeeds takes the counter of a state whose keys have just been polled. -/
def successor (state : State) : Nat :=
  let is (kind : Kind) := kind.covers state.opcode
  let target := state.opcode.toNat % 4096
  if is .jump || is .call then target
  else if is .jumpFromV0 then target + state.v.head.toNat
  else if is .returnCall then (state.stack.slots[state.stack.pointer.toNat]?.getD 0).toNat
  else if is .awaitKey && state.keys.all (! ·) then state.pc.toNat
  else if state.skips then state.pc.toNat + 4
  else state.pc.toNat + 2

variable {state after : State} {instruction : Instruction} {byte : UInt8}

theorem opcode_of_instruction (found : state.instruction = .ok instruction) :
    state.pc.toNat + 2 ≤ 4096 ∧ Kind.ofOpcode? state.opcode = some instruction.kind ∧
      instruction.toOperands = Operands.ofOpcode state.opcode := by
  obtain ⟨opcode, word, decoded⟩ := bind_eq_ok found
  rw [Memory.word_eq] at word
  split at word
  · contradiction
  next inside =>
    cases word
    obtain ⟨known, operands, -⟩ := Instruction.decode_eq_ok decoded
    exact ⟨Nat.not_lt.mp inside, known, operands⟩

theorem toNat_pc_skipIf {condition : Bool} (skipped : state.skipIf condition = .ok after) :
    after.pc.toNat = state.pc.toNat + if condition then 2 else 0 := by
  cases condition with
  | false =>
    cases skipped
    rfl
  | true =>
    obtain ⟨inside, rfl⟩ := advance_eq_ok skipped
    exact toNat_pc_passed inside

private theorem pc_awaitKey {target : Fin 16} (waited : state.awaitKey target = .ok after) :
    after.pc = if state.keys.all (! ·) then state.pc - 2 else state.pc := by
  obtain ⟨key, held, rfl⟩ | ⟨none, -, rfl⟩ := awaitKey_eq_ok waited
  · have pressed : ¬ state.keys.firstHeld? = Option.none := by simp [held]
    rw [firstHeld?_eq_none_iff] at pressed
    rw [if_neg (by simpa using pressed)]
    rfl
  · rw [firstHeld?_eq_none_iff] at none
    rw [if_pos (by simpa using none)]

theorem toNat_pc_jumpFrom {offset : UInt8} {target : UInt16}
    (jumped : state.jumpFrom offset target = .ok after) :
    after.pc.toNat = target.toNat + offset.toNat := by
  obtain ⟨fits, rfl⟩ := jumpFrom_eq_ok jumped
  rw [UInt16.toNat_add, UInt8.toNat_toUInt16, Nat.add_comm target.toNat]
  exact Nat.mod_eq_of_lt fits

private theorem toNat_pc_perform (inside : state.pc.toNat + 2 ≤ 4096)
    (known : Kind.ofOpcode? state.opcode = some instruction.kind)
    (operands : instruction.toOperands = Operands.ofOpcode state.opcode)
    (performed : instruction.perform byte state.passed = .ok after) :
    after.pc.toNat = state.successor := by
  have passed := toNat_pc_passed inside
  have nnn : instruction.nnn.toNat = state.opcode.toNat % 4096 := by
    rw [operands, Operands.toNat_nnn_ofOpcode]
  simp only [successor, skips_eq, Kind.covers_eq known]
  by_cases steers : instruction.kind.steers = true
  · unfold Instruction.perform at performed
    -- A known kind leaves one line of the table.
    cases kind : instruction.kind <;>
      simp only [kind, Kind.steers, Bool.false_eq_true] at performed steers
    case jump =>
      cases performed
      simpa [jump] using nnn
    case call =>
      obtain ⟨stack, -, rfl⟩ := call_eq_ok performed
      simpa using nnn
    case returnCall =>
      obtain ⟨-, pc, top, rfl⟩ := returnTo_eq_ok performed
      have slot : state.stack.slots[state.stack.pointer.toNat]? = some pc := top
      simp [slot]
    case jumpFromV0 =>
      have sum := toNat_pc_jumpFrom performed
      simp [sum, nnn]
    case awaitKey =>
      have back : state.passed.pc - 2 = state.pc := UInt16.add_sub_cancel ..
      have pc := pc_awaitKey performed
      simp [pc, back, apply_ite UInt16.toNat, passed]
    case skipIfByte | skipUnlessByte | skipIfSame | skipUnlessSame | skipIfHeld |
        skipUnlessHeld =>
      have pc := toNat_pc_skipIf performed
      simp [operands, holdsKey] at pc ⊢
      rw [pc, passed]
      split <;> rfl
  · have kept : Field.counter ∉ instruction.kind.changes := by
      rwa [Kind.counter_mem_changes]
    have same : after.pc = state.passed.pc := Instruction.same_perform performed kept
    rw [same, passed]
    revert steers
    cases instruction.kind <;> simp [Kind.steers]

private theorem toNat_pc_attempt {policy : MachineCodePolicy}
    (succeeded : (state.attempt policy byte).result = .ok after) :
    after.pc.toNat = state.successor := by
  obtain ⟨instruction, found, performed⟩ := attempt_eq_ok succeeded
  obtain ⟨inside, known, operands⟩ := opcode_of_instruction found
  exact toNat_pc_perform inside known operands performed

end State

namespace Machine
variable {machine : Machine} {before : List Deed}

theorem succeeds_of_unfailed (unfailed : ∀ fault, machine.cycle.outcome ≠ .failed fault) :
    machine.Succeeds := by
  cases result : machine.attempt.result with
  | ok state => exact ⟨state, result⟩
  | error fault => exact absurd (by rw [cycle_of_error result]) (unfailed fault)

theorem toNat_pc_cycle (success : machine.Succeeds) :
    machine.cycle.machine.state.pc.toNat =
      (machine.state.setKeys machine.keypad.current).successor := by
  obtain ⟨state, succeeded⟩ := success
  rw [(committed_of_ok succeeded).2]
  exact State.toNat_pc_attempt succeeded

/-- Where the next cycle of a run can take the counter. -/
inductive Destination (machine : Machine) (before : List Deed) : Nat → Prop where
  | same : Destination machine before machine.state.pc.toNat
  | next : Destination machine before (machine.state.pc.toNat + 2)
  | skipped : Destination machine before (machine.state.pc.toNat + 4)
  | target (target : Nat) (narrow : target < 4096) : Destination machine before target
  | offset (target : Nat) (narrow : target < 4096) :
      Destination machine before (target + machine.state.v.head.toNat)
  /-- A call that was carried out earlier has pushed the address. -/
  | returned (early between : List Deed) (caller : Machine) (address : UInt16)
      (split : before = early ++ .tried caller :: between)
      (called : caller.performed? = some .call)
      (pushed : caller.cycle.machine.state.stack.entries =
        caller.state.stack.entries ++ [address]) :
      Destination machine before address.toNat

theorem Reached.destination_of_return (reached : machine.Reached before)
    (word : machine.state.memory.word machine.state.pc.toNat = .ok 0x00EE)
    (success : machine.Succeeds) :
    machine.Destination before machine.cycle.machine.state.pc.toNat := by
  have occupied : openCalls before ≠ [] := (reached.stackRule.returnCall word).1.mp success
  obtain ⟨depth, deep⟩ := Nat.exists_eq_succ_of_ne_zero (mt List.length_eq_zero_iff.mp occupied)
  obtain ⟨caller, last, called, pc⟩ := reached.resumes deep word
  obtain ⟨early, between, split, -⟩ := last
  have callerReached : caller.Reached early := (split ▸ reached).of_tried.1
  have pushed := entries_cycle callerReached.sound.stack
  rw [Deed.calls, called] at pushed
  rw [pc]
  exact .returned early between caller _ split called pushed

theorem Reached.destination (reached : machine.Reached before) (success : machine.Succeeds) :
    machine.Destination before machine.cycle.machine.state.pc.toNat := by
  have narrow : machine.poll.state.opcode.toNat % 4096 < 4096 := Nat.mod_lt _ (by decide)
  by_cases returns : Kind.returnCall.covers machine.state.opcode = true
  · obtain ⟨state, succeeded⟩ := success
    obtain ⟨instruction, found, -⟩ := performed?_of_ok succeeded
    obtain ⟨inside, -⟩ := State.opcode_of_instruction found
    have word : machine.state.memory.word machine.state.pc.toNat = .ok 0x00EE := by
      rw [Memory.word_eq, if_neg (by omega)]
      have known := Kind.ofOpcode?_of_covers returns
      exact congrArg _ ((Kind.ofOpcode?_eq_returnCall _).mp known)
    exact reached.destination_of_return word ⟨state, succeeded⟩
  · have polled : ¬ Kind.returnCall.covers machine.poll.state.opcode = true := returns
    have pc : machine.cycle.machine.state.pc.toNat = machine.poll.state.successor :=
      toNat_pc_cycle success
    rw [pc, State.successor]
    simp only [polled]
    split
    · exact .target _ narrow
    split
    · exact .offset _ narrow
    simp only [Bool.false_eq_true, if_false]
    split
    · exact .same
    split
    · exact .skipped
    · exact .next

end Machine

/-- A cycle that does not fail takes the counter where the table says. In a run that is the same
instruction, one of the next two, a target of twelve bits, perhaps with a register added, or an
address that an earlier call has pushed. -/
theorem Emulator.counter_follows_table :
    (∀ machine : Machine, (∀ fault, machine.cycle.outcome ≠ .failed fault) →
      machine.cycle.machine.state.pc.toNat =
        (machine.state.setKeys machine.keypad.current).successor) ∧
    ∀ config keypad random requests before machine rest,
      (create config keypad random).history requests = before ++ .tried machine :: rest →
      (∀ fault, machine.cycle.outcome ≠ .failed fault) →
      machine.Destination before machine.cycle.machine.state.pc.toNat := by
  refine ⟨?_, ?_⟩
  · intro machine unfailed
    exact Machine.toNat_pc_cycle (Machine.succeeds_of_unfailed unfailed)
  · intro config keypad random requests before machine rest split unfailed
    obtain ⟨final, ended⟩ := (follows_create config keypad random requests).exists_reached
    obtain ⟨reached, -⟩ := (split ▸ ended).of_tried
    exact reached.destination (Machine.succeeds_of_unfailed unfailed)

theorem Emulator.counter_after_return :
    let created := Machine.create Config.default (.constant Keys.released) (.ofArray #[])
    let rom := [0x22, 0x04, 0x00, 0xE0, 0x00, 0xEE]
    let caller := (created.load rom).machine.begin
    let returning := caller.cycle.machine.begin
    let before := [.loaded rom, .begun, .tried caller, .begun]
    returning.cycle.machine.state.pc.toNat = 0x202 ∧ returning.Destination before 0x202 := by
  intro created rom caller returning before
  have unfailed : ∀ fault, returning.cycle.outcome ≠ .failed fault := by
    intro fault failed
    have done : returning.cycle.outcome = .done := by decide +kernel
    rw [done] at failed
    contradiction
  obtain ⟨table, runs⟩ := counter_follows_table
  have pc : returning.cycle.machine.state.pc.toNat = 0x202 := by
    rw [table returning unfailed]
    decide +kernel
  have split : (create Config.default (.constant Keys.released) (.ofArray #[])).history
      [.load rom, .step, .step] = before ++ [.tried returning] := rfl
  have destination := runs _ _ _ _ before returning [] split unfailed
  rw [pc] at destination
  exact ⟨pc, destination⟩

end ChipEight
