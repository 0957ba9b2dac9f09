import ChipEight.Proofs.Calm
import ChipEight.Proofs.Guarded.Agreement
import ChipEight.Proofs.Soundness

/-! How a cycle can end. In a sound state nothing traps, and a failure is one of seven faults: the
others belong to requests, or guard against states that no program can make. -/
namespace ChipEight

namespace Fault

def ofCycle : Fault → Bool
  | outOfBounds .. | stackOverflow _ | stackUnderflow _ | unknownOpcode .. | unsupported ..
  | programCounterOverflow _ | programCounterUnderflow _ => true
  | invalidRom .. | invalidKey _ | alreadyRunning | alreadyStopped | threadRefused _
  | stackPointerAstray _ | jumpTargetAstray | registerAstray _ => false

end Fault

theorem Memory.ofCycle_of_load {memory : Memory} {address : Nat} {bytes : List UInt8}
    {fault : Fault} (failed : memory.load address bytes = .error fault) :
    fault.ofCycle = true := by
  unfold load at failed
  split at failed
  · contradiction
  · cases failed
    rfl

namespace State

private theorem ofCycle_of_slice {memory : Memory} {address length : Nat} {fault : Fault}
    (failed : memory.slice address length = .error fault) : fault.ofCycle = true := by
  unfold Memory.slice at failed
  split at failed
  · contradiction
  · cases failed
    rfl

theorem ofCycle_of_load {state : State} {address : Nat} {bytes : List UInt8} {fault : Fault}
    (failed : state.load address bytes = .error fault) : fault.ofCycle = true := by
  obtain refused | ⟨memory, -, made⟩ := bind_eq_error failed
  · exact Memory.ofCycle_of_load refused
  · contradiction

private theorem ofCycle_of_skipIf {state : State} {condition : Bool} {fault : Fault}
    (failed : state.skipIf condition = .error fault) : fault.ofCycle = true := by
  cases condition with
  | false => contradiction
  | true =>
    rw [skipIf_true, advance] at failed
    split at failed
    · contradiction
    · cases failed
      rfl

private theorem ofCycle_of_awaitKey {state : State} {target : Fin 16} {fault : Fault}
    (failed : state.awaitKey target = .error fault) : fault.ofCycle = true := by
  unfold awaitKey at failed
  split at failed
  · contradiction
  · unfold rewind at failed
    split at failed
    · contradiction
    · cases failed
      rfl

private theorem ofCycle_of_call {state : State} {caller target : UInt16} {fault : Fault}
    (failed : state.call caller target = .error fault) : fault.ofCycle = true := by
  unfold call at failed
  split at failed
  · contradiction
  · cases failed
    rfl

private theorem ofCycle_of_returnTo {state : State} {caller : UInt16} {fault : Fault}
    (sound : state.stack.Sound) (failed : state.returnTo caller = .error fault) :
    fault.ofCycle = true := by
  obtain ⟨h, top⟩ := sound.top?_eq
  unfold returnTo at failed
  rw [top] at failed
  split at failed
  · cases failed
    rfl
  · contradiction

end State

theorem Instruction.ofCycle_of_perform {instruction : Instruction} {byte : UInt8} {state : State}
    {fault : Fault} (narrow : instruction.nnn.toNat < 4096) (sound : state.stack.Sound)
    (failed : instruction.perform byte state = .error fault) : fault.ofCycle = true := by
  unfold perform at failed
  cases kind : instruction.kind <;> simp only [kind] at failed
  case call => exact State.ofCycle_of_call failed
  case returnCall => exact State.ofCycle_of_returnTo sound failed
  case jumpFromV0 =>
    have byte := state.v.head.toNat_lt
    rw [State.jumpFrom, if_pos (by omega)] at failed
    contradiction
  case skipIfByte | skipUnlessByte | skipIfSame | skipUnlessSame | skipIfHeld | skipUnlessHeld =>
    exact State.ofCycle_of_skipIf failed
  case awaitKey => exact State.ofCycle_of_awaitKey failed
  case storeDecimal | storeRegisters => exact State.ofCycle_of_load failed
  case drawSprite | loadRegisters =>
    obtain refused | ⟨values, -, made⟩ := bind_eq_error failed
    · exact State.ofCycle_of_slice refused
    · contradiction
  all_goals contradiction

theorem State.ofCycle_of_instruction {state : State} {fault : Fault}
    (failed : state.instruction = .error fault) : fault.ofCycle = true := by
  obtain refused | ⟨opcode, -, unknown⟩ := bind_eq_error failed
  · unfold Memory.word at refused
    split at refused
    · contradiction
    · cases refused
      rfl
  · obtain ⟨-, rfl⟩ := (Instruction.decode_eq_error_iff ..).mp unknown
    rfl

theorem State.Sound.ofCycle_of_attempt {state : State} {policy : MachineCodePolicy}
    {byte : UInt8} {fault : Fault} (sound : state.Sound)
    (failed : (state.attempt policy byte).result = .error fault) : fault.ofCycle = true := by
  rw [attempt_eq] at failed
  cases found : state.instruction with
  | error cause =>
    rw [found] at failed
    cases failed
    exact ofCycle_of_instruction found
  | ok instruction =>
    obtain ⟨fits, narrow, -⟩ := instruction_eq_ok found
    simp only [found, Instruction.attempt, Instruction.execute] at failed
    split at failed
    · cases failed
      rfl
    · exact Instruction.ofCycle_of_perform narrow (sound.passed fits).1.stack failed

def Event.Sound : Event → Prop
  | start state | update state | frame state | sound state | stop state => state.Sound
  | fault _ => True

theorem State.Sound.happenings {state : State} (sound : state.Sound) :
    ∀ event ∈ state.happenings, event.Sound := by
  intro event happened
  obtain rfl | rfl | rfl := State.mem_happenings happened
  · exact sound
  · exact sound
  · exact sound.settled

namespace Machine

def guardedAttempt (machine : Machine) : Guarded State :=
  machine.poll.state.guardedAttempt machine.config.machineCode machine.random.current

private theorem sound_events_cycle {machine : Machine} (calm : machine.Calm)
    (sound : machine.state.Sound)
    {position : Nat} {event : Event} (told : (position, event) ∈ machine.cycle.trace.events) :
    event.Sound := by
  cases result : machine.attempt.result with
  | error fault =>
    rw [events_cycle_of_error result] at told
    contradiction
  | ok state =>
    obtain ⟨-, -, events⟩ := cycle_of_calm calm result
    rw [events] at told
    obtain ⟨other, happened, announced⟩ := List.mem_flatMap.mp told
    obtain ⟨receiver, -, same⟩ := List.mem_map.mp announced
    cases same
    exact (sound_of_attempt sound result).happenings event happened

theorem guardedAttempt_eq {machine : Machine} (sound : machine.state.Sound) :
    machine.guardedAttempt = Guarded.ofExcept machine.attempt.result :=
  State.guardedAttempt_eq (sound.setKeys machine.keypad.current).stack.pointer_le _ _

theorem outcome_cycle {machine : Machine} (calm : machine.Calm) (sound : machine.state.Sound) :
    machine.cycle.outcome = .done ∨
      ∃ fault, machine.cycle.outcome = .failed fault ∧ fault.ofCycle = true := by
  cases result : machine.attempt.result with
  | ok state => exact .inl (cycle_of_calm calm result).1
  | error fault =>
    rw [cycle_of_error result]
    exact .inr ⟨fault, rfl, (sound.setKeys machine.keypad.current).ofCycle_of_attempt result⟩

end Machine

theorem Guarded.ofExcept_ne_trap {α : Type} (result : Except Fault α) (trap : Trap) :
    ofExcept result ≠ .error (.trap trap) := by
  cases result <;> nofun

/-- Whatever is asked of an emulator whose observers are calm, the machine is still there and in
a sound state, and its next cycle shows only sound states, does not trap, and succeeds or
fails with one of the faults of a cycle. -/
theorem Emulator.sound_after (config : Config) (keypad : Keypad) (random : RandomSource)
    (requests : List Request) (quiet : ∀ request ∈ requests, request.Calm) :
    ∃ machine, ((create config keypad random).after requests).machine? = some machine ∧
      machine.state.Sound ∧ machine.begin.state.Sound ∧
      (∀ position event, (position, event) ∈ machine.step.trace.events → event.Sound) ∧
      (∀ trap, machine.begin.guardedAttempt ≠ .error (.trap trap)) ∧
      machine.begin.guardedAttempt = Guarded.ofExcept machine.begin.attempt.result ∧
      (machine.step.outcome = .done ∨
        ∃ fault, machine.step.outcome = .failed fault ∧ fault.ofCycle = true) := by
  have fresh : (create config keypad random).Calm := nofun
  obtain ⟨machine, present, calm⟩ := (fresh.after quiet).exists_machine
  have reached := (follows_create config keypad random requests).reached present
  have begun := Machine.sound_begin reached.sound
  have calmBegun := Machine.calm_begin.mpr calm
  have guarded := Machine.guardedAttempt_eq begun
  refine ⟨machine, present, reached.sound, begun, ?_, ?_, guarded, ?_⟩
  · intro position event told
    exact Machine.sound_events_cycle calmBegun begun told
  · intro trap trapped
    exact Guarded.ofExcept_ne_trap _ trap (guarded.symm.trans trapped)
  · exact Machine.outcome_cycle calmBegun begun

theorem Emulator.sound_after_endless_calls :
    ∃ machine,
      ((create Config.default (.constant Keys.released) (.ofArray #[])).after
          [.subscribe .silent, .load [0x22, 0x00], .step, .start none, .work 20, .stop,
            .step]).machine? = some machine ∧ machine.state.Sound := by
  obtain ⟨machine, present, sound, -⟩ := sound_after Config.default (.constant Keys.released)
    (.ofArray #[]) [.subscribe .silent, .load [0x22, 0x00], .step, .start none, .work 20, .stop,
      .step] (by simp [Request.Calm, Observer.calm_silent])
  exact ⟨machine, present, sound⟩

end ChipEight
