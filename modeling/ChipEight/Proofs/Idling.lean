import ChipEight.Proofs.Counter
import ChipEight.Proofs.Waiting

/-! States that stay as they are. Whatever a program does moves the counter on, unless it is a jump
to itself or a wait for a key: a call to itself still pushes an address, and a return takes one
away. A state in which such an instruction is next, and in which no timer runs, is the same after
every cycle, for as long as the keys are. -/
namespace ChipEight

namespace CallStack
variable {stack pushed : CallStack}

private theorem ne_of_push {address : UInt16} (push : stack.push? address = some pushed) :
    pushed ≠ stack := by
  obtain ⟨room, rfl⟩ := push?_eq_some push
  intro same
  have pointer := toNat_pointer_add_one room
  have kept : stack.pointer + 1 = stack.pointer := congrArg CallStack.pointer same
  rw [kept] at pointer
  omega

private theorem drop_ne (occupied : stack.pointer ≠ 0) : stack.drop ≠ stack := by
  intro same
  have pointer := toNat_pointer_sub_one occupied
  have kept : stack.pointer - 1 = stack.pointer := congrArg CallStack.pointer same
  have positive : stack.pointer.toNat ≠ 0 := fun zero => occupied (UInt8.toNat_inj.mp zero)
  rw [kept] at pointer
  omega

end CallStack

namespace State
variable {state made : State} {policy : MachineCodePolicy} {byte : UInt8}

/-- The instruction under the counter leads back to itself. -/
inductive BusyWaits (state : State) : Prop where
  | jump (opcode : UInt16) (word : state.memory.word state.pc.toNat = .ok opcode)
      (leading : opcode.toNat / 4096 = 0x1) (target : opcode.toNat % 4096 = state.pc.toNat)
  | jumpFromV0 (opcode : UInt16) (word : state.memory.word state.pc.toNat = .ok opcode)
      (leading : opcode.toNat / 4096 = 0xB)
      (target : opcode.toNat % 4096 + (state.v.get 0).toNat = state.pc.toNat)
  | awaitKey (opcode : UInt16) (word : state.memory.word state.pc.toNat = .ok opcode)
      (leading : opcode.toNat / 4096 = 0xF) (low : opcode.toNat % 256 = 0x0A)
      (released : ∀ key, state.keys.get key = false)

theorem firstHeld?_eq_none_iff_get (keys : Keys) :
    keys.firstHeld? = none ↔ ∀ key, keys.get key = false := by
  rw [firstHeld?_eq_none_iff]
  exact ⟨fun released key => released key.val key.isLt, fun released key h => released ⟨key, h⟩⟩

/-- An instruction that leaves the counter on itself and the stack alone is one of the three, and
changes nothing at all. -/
theorem busyWaits_of_fixed (succeeded : (state.attempt policy byte).result = .ok made)
    (counter : made.pc = state.pc) (stack : made.stack = state.stack) :
    state.BusyWaits ∧ made = state := by
  obtain ⟨instruction, found, performed⟩ := attempt_eq_ok succeeded
  have inside := (instruction_eq_ok found).1
  have passed := toNat_pc_passed inside
  obtain ⟨opcode, word, decoded⟩ := bind_eq_ok found
  obtain ⟨known, operands, -⟩ := Instruction.decode_eq_ok decoded
  have fit := (Bool.and_eq_true_iff.mp (Kind.covers_of_ofOpcode? known)).1
  have leading := Pattern.leading_of_fits fit
  have nnn : instruction.nnn.toNat = opcode.toNat % 4096 := by
    rw [operands, Operands.toNat_nnn_ofOpcode]
  -- Of the kinds that steer, a call and a return move the stack, and a skip only goes further on.
  by_cases steers : instruction.kind.steers = true
  · unfold Instruction.perform at performed
    cases kind : instruction.kind <;>
      simp only [kind, Kind.steers, Bool.false_eq_true] at performed steers
    case jump =>
      cases performed
      have target : instruction.nnn = state.pc := counter
      rw [target] at nnn ⊢
      exact ⟨.jump opcode word (by rw [leading, kind]; rfl) nnn.symm, rfl⟩
    case call =>
      obtain ⟨pushed, push, rfl⟩ := call_eq_ok performed
      exact absurd stack (CallStack.ne_of_push push)
    case returnCall =>
      obtain ⟨occupied, pc, -, rfl⟩ := returnTo_eq_ok performed
      exact absurd stack (CallStack.drop_ne occupied)
    case jumpFromV0 =>
      have sum := toNat_pc_jumpFrom performed
      rw [counter, nnn] at sum
      obtain ⟨-, rfl⟩ := jumpFrom_eq_ok performed
      refine ⟨.jumpFromV0 opcode word (by rw [leading, kind]; rfl) sum.symm, ?_⟩
      exact congrArg (fun pc => { state with pc }) counter
    case awaitKey =>
      obtain ⟨key, -, rfl⟩ | ⟨released, -, rfl⟩ := awaitKey_eq_ok performed
      · have moved : state.passed.pc = state.pc := counter
        rw [moved] at passed
        omega
      · have low : opcode.toNat % 256 = 0x0A := by
          rw [kind] at fit
          exact Pattern.low_of_fits fit rfl rfl
        refine ⟨.awaitKey opcode word (by rw [leading, kind]; rfl) low ?_, ?_⟩
        · exact (firstHeld?_eq_none_iff_get state.keys).mp released
        · exact congrArg (fun pc => { state with pc }) counter
    case skipIfByte | skipUnlessByte | skipIfSame | skipUnlessSame | skipIfHeld |
        skipUnlessHeld =>
      have moved := toNat_pc_skipIf performed
      rw [counter, passed] at moved
      omega
  · have kept : Field.counter ∉ instruction.kind.changes := by
      rwa [Kind.counter_mem_changes]
    have moved : made.pc = state.passed.pc := Instruction.same_perform performed kept
    rw [← moved, counter] at passed
    omega

private theorem eq_of_busyWaits (waits : state.BusyWaits)
    (succeeded : (state.attempt policy byte).result = .ok made) : made = state := by
  have fixed : made.pc.toNat = state.pc.toNat → made.stack = state.stack → made = state :=
    fun counter stack => (busyWaits_of_fixed succeeded (UInt16.toNat_inj.mp counter) stack).2
  obtain ⟨instruction, found, performed⟩ := attempt_eq_ok succeeded
  cases waits with
  | jump opcode word leading target =>
    have known : Kind.ofOpcode? opcode = some .jump := by
      rw [Kind.ofOpcode?, leading]
      rfl
    obtain rfl := Except.ok.inj (found.symm.trans (instruction_eq_of_word word known))
    cases performed
    exact fixed ((Operands.toNat_nnn_ofOpcode opcode).trans target) rfl
  | jumpFromV0 opcode word leading target =>
    have known : Kind.ofOpcode? opcode = some .jumpFromV0 := by
      rw [Kind.ofOpcode?, leading]
      rfl
    obtain rfl := Except.ok.inj (found.symm.trans (instruction_eq_of_word word known))
    have sum := toNat_pc_jumpFrom performed
    rw [Operands.toNat_nnn_ofOpcode] at sum
    obtain ⟨-, rfl⟩ := jumpFrom_eq_ok performed
    exact fixed (sum.trans target) rfl
  | awaitKey opcode word leading low released =>
    have known : Kind.ofOpcode? opcode = some .awaitKey :=
      (Kind.ofOpcode?_eq_some_of_low opcode .awaitKey rfl rfl rfl (by decide)).mpr ⟨leading, low⟩
    obtain rfl := Except.ok.inj (found.symm.trans (instruction_eq_of_word word known))
    have none : state.passed.keys.firstHeld? = none :=
      (firstHeld?_eq_none_iff_get state.keys).mpr released
    obtain ⟨key, held, -⟩ | ⟨-, -, rfl⟩ := awaitKey_eq_ok performed
    · rw [none] at held
      contradiction
    · have back : state.passed.pc - 2 = state.pc := UInt16.add_sub_cancel ..
      exact fixed (congrArg UInt16.toNat back) rfl

theorem BusyWaits.spares (waits : state.BusyWaits) (policy : MachineCodePolicy) (byte : UInt8) :
    (state.attempt policy byte).tookByte = false := by
  obtain ⟨opcode, word, other⟩ : ∃ opcode, state.memory.word state.pc.toNat = .ok opcode ∧
      opcode.toNat / 4096 ≠ 12 := by
    cases waits with
    | jump opcode word leading | jumpFromV0 opcode word leading | awaitKey opcode word leading =>
      exact ⟨opcode, word, by rw [leading]; decide⟩
  cases found : state.instruction with
  | error fault =>
    rw [attempt_eq, found]
    rfl
  | ok instruction =>
    obtain ⟨own, same, known, -⟩ := word_of_instruction found
    rw [Attempt.takesByte_of_instruction found, beq_eq_false_iff_ne]
    intro random
    rw [random, Kind.ofOpcode?_eq_randomByte, ← Except.ok.inj (word.symm.trans same)] at known
    exact other known

theorem settled_eq_self_iff (lowered : state.drawFlag = false) :
    state.settled = state ↔ state.delayTimer = 0 ∧ state.soundTimer = 0 := by
  have stopped : ∀ timer : UInt8, (if timer = 0 then 0 else timer - 1) = timer → timer = 0 := by
    intro timer same
    have value := congrArg UInt8.toNat same
    rw [toNat_countDown] at value
    exact UInt8.toNat_inj.mp (by rw [UInt8.toNat_zero]; omega)
  constructor
  · intro same
    exact ⟨stopped _ (congrArg State.delayTimer same), stopped _ (congrArg State.soundTimer same)⟩
  · rintro ⟨delay, sound⟩
    obtain ⟨memory, v, i, pc, stack, delayTimer, soundTimer, frame, keys, drawFlag⟩ := state
    cases lowered
    cases delay
    cases sound
    rfl

private theorem happenings_of_settled (same : state.settled = state) :
    state.happenings = [.update state] := by
  have lowered : state.drawFlag = false := congrArg State.drawFlag same.symm
  obtain ⟨-, sound⟩ := (settled_eq_self_iff lowered).mp same
  rw [happenings, same, lowered, if_pos sound]
  rfl

end State

namespace Machine
variable {machine : Machine}

theorem poll_state_of_polled (polled : machine.keypad.current = machine.state.keys) :
    machine.poll.state = machine.state := by
  rw [poll, polled]
  rfl

structure Idles (machine : Machine) : Prop where
  calm : machine.Calm
  begun : machine.begun = true
  settled : machine.state.settled = machine.state
  again : (machine.state.attempt machine.config.machineCode machine.random.current).result =
    .ok machine.state
  spared : (machine.state.attempt machine.config.machineCode machine.random.current).tookByte =
    false

theorem Idles.of_unheard_eq {other : Machine} (idles : machine.Idles)
    (same : other.unheard = unheard { machine with keypad := other.keypad }) : other.Idles where
  calm := calm_of_unheard_eq same idles.calm
  begun := (begun_of_unheard_eq same).trans idles.begun
  settled := by
    rw [state_of_unheard_eq same]
    exact idles.settled
  again := by
    rw [unheard_congr same (fun machine => machine.state.attempt machine.config.machineCode
      machine.random.current) fun _ => rfl, state_of_unheard_eq same]
    exact idles.again
  spared := by
    rw [unheard_congr same (fun machine => machine.state.attempt machine.config.machineCode
      machine.random.current) fun _ => rfl]
    exact idles.spared

theorem Idles.cycle (idles : machine.Idles)
    (polled : machine.keypad.current = machine.state.keys) :
    machine.cycle.outcome = .done ∧
      machine.cycle.machine.unheard = unheard { machine with keypad := machine.keypad.polled } ∧
      machine.cycle.trace.events = machine.round (.update machine.state) := by
  have attempt : machine.attempt =
      machine.state.attempt machine.config.machineCode machine.random.current := by
    rw [Machine.attempt, poll_state_of_polled polled]
  have succeeded : machine.attempt.result = .ok machine.state := attempt ▸ idles.again
  have spared : machine.attempt.tookByte = false := attempt ▸ idles.spared
  obtain ⟨done, same, events⟩ := cycle_of_calm idles.calm succeeded
  refine ⟨done, ?_, ?_⟩
  · rw [same, idles.settled, commit, spared]
    rfl
  · rw [events, State.happenings_of_settled idles.settled, List.flatMap_singleton]

/-- So many cycles have told of nothing but the same state and left it alone, and have taken no
random byte. -/
structure Idled (machine : Machine) (count : Nat) (left : Machine) (trace : Trace) : Prop where
  state : left.state = machine.state
  random : left.random = machine.random
  events : trace.events = (List.replicate count (.update machine.state)).flatMap machine.round

theorem Idles.idled_cons (idles : machine.Idles)
    (polled : machine.keypad.current = machine.state.keys) {count : Nat} {left : Machine}
    {trace : Trace} (later : machine.cycle.machine.Idled count left trace) :
    machine.Idled (count + 1) left (machine.cycle.trace ++ trace) := by
  obtain ⟨-, same, events⟩ := idles.cycle polled
  have state : machine.cycle.machine.state = machine.state :=
    unheard_congr same Machine.state fun _ => rfl
  have random : machine.cycle.machine.random = machine.random :=
    unheard_congr same Machine.random fun _ => rfl
  have round : machine.cycle.machine.round = machine.round :=
    unheard_congr same Machine.round fun machine => funext machine.round_unheard
  refine ⟨later.state.trans state, later.random.trans random, ?_⟩
  rw [Trace.events_append, events, later.events, state, round, List.replicate_succ,
    List.flatMap_cons]

theorem Idles.idled (idles : machine.Idles) (count : Nat)
    (polled : ∀ polls < count, machine.keypad.upcoming polls = machine.state.keys) :
    ((machine.steps count).outcome = .done ∧
      machine.Idled count (machine.steps count).machine (machine.steps count).trace) ∧
    (machine.run count).ending = none ∧
      machine.Idled count (machine.run count).machine (machine.run count).trace := by
  induction count generalizing machine with
  | zero => exact ⟨⟨rfl, rfl, rfl, rfl⟩, rfl, rfl, rfl, rfl⟩
  | succ count ih =>
    have first : machine.keypad.current = machine.state.keys := polled 0 (Nat.succ_pos count)
    obtain ⟨done, same, -⟩ := idles.cycle first
    have keypad : machine.cycle.machine.keypad = machine.keypad.polled :=
      unheard_congr same Machine.keypad fun _ => rfl
    have state : machine.cycle.machine.state = machine.state :=
      unheard_congr same Machine.state fun _ => rfl
    have later : machine.cycle.machine.Idles := idles.of_unheard_eq (by rw [same, keypad])
    have rest : ∀ polls < count, machine.cycle.machine.keypad.upcoming polls =
        machine.cycle.machine.state.keys := by
      intro polls early
      rw [keypad, state, Keypad.upcoming_polled]
      exact polled (polls + 1) (Nat.succ_lt_succ early)
    obtain ⟨⟨stepped, steps⟩, worked, run⟩ := ih later rest
    refine ⟨?_, ?_⟩
    · rw [Machine.steps, step_of_begun idles.begun, Step.andThen_of_done done]
      exact ⟨stepped, idles.idled_cons first steps⟩
    · simp only [Machine.run, done]
      exact ⟨worked, idles.idled_cons first run⟩

theorem idles_of_fixed (begun : machine.begun = true) (calm : machine.Calm)
    (polled : machine.keypad.current = machine.state.keys) {made : State}
    (succeeded : machine.attempt.result = .ok made) (fixed : made.settled = machine.state) :
    machine.Idles ∧ machine.state.BusyWaits := by
  rw [Machine.attempt, poll_state_of_polled polled] at succeeded
  have counter : made.settled.pc = machine.state.pc := congrArg State.pc fixed
  have stack : made.settled.stack = machine.state.stack := congrArg State.stack fixed
  obtain ⟨waits, same⟩ := State.busyWaits_of_fixed succeeded counter stack
  rw [same] at succeeded fixed
  exact ⟨⟨calm, begun, fixed, succeeded, waits.spares _ _⟩, waits⟩

/-- A cycle that succeeds on a begun machine with its flag down and no change of keys leaves the
state as it is just if the state is a busy wait and no timer runs. Such a machine idles. -/
theorem idle_states_are_busy_waits (begun : machine.begun = true) (calm : machine.Calm)
    (lowered : machine.state.drawFlag = false)
    (polled : machine.keypad.current = machine.state.keys)
    (done : machine.cycle.outcome = .done) :
    (machine.cycle.machine.state = machine.state ↔
      machine.state.delayTimer = 0 ∧ machine.state.soundTimer = 0 ∧ machine.state.BusyWaits) ∧
    (machine.cycle.machine.state = machine.state →
      ∀ count, (∀ polls < count, machine.keypad.upcoming polls = machine.state.keys) →
        ((machine.steps count).outcome = .done ∧
          machine.Idled count (machine.steps count).machine (machine.steps count).trace) ∧
        (machine.run count).ending = none ∧
          machine.Idled count (machine.run count).machine (machine.run count).trace) := by
  have succeeds : machine.Succeeds := succeeds_of_unfailed fun fault failed =>
    absurd (done.symm.trans failed) nofun
  obtain ⟨made, succeeded⟩ := succeeds
  have settled : machine.cycle.machine.state = made.settled :=
    state_of_unheard_eq (cycle_of_calm calm succeeded).2.1
  rw [settled]
  refine ⟨⟨?_, ?_⟩, ?_⟩
  · intro fixed
    obtain ⟨idles, waits⟩ := idles_of_fixed begun calm polled succeeded fixed
    obtain ⟨delay, sound⟩ := (State.settled_eq_self_iff lowered).mp idles.settled
    exact ⟨delay, sound, waits⟩
  · rintro ⟨delay, sound, waits⟩
    rw [Machine.attempt, poll_state_of_polled polled] at succeeded
    rw [State.eq_of_busyWaits waits succeeded]
    exact (State.settled_eq_self_iff lowered).mpr ⟨delay, sound⟩
  · intro fixed count kept
    exact (idles_of_fixed begun calm polled succeeded fixed).1.idled count kept

theorem jump_to_itself_idles :
    let state : State :=
      { State.zero with memory := State.zero.memory.overlay 0x200 [0x12, 0x00], pc := 0x200 }
    let machine : Machine :=
      { create Config.default (.constant Keys.released) (.ofArray #[]) with state, begun := true }
    machine.state.BusyWaits ∧ (machine.run 1000).ending = none ∧
      machine.Idled 1000 (machine.run 1000).machine (machine.run 1000).trace := by
  intro state machine
  have calm : machine.Calm := nofun
  have done : machine.cycle.outcome = .done := by decide +kernel
  have waits : machine.state.BusyWaits :=
    .jump 0x1200 (eq_ok_of_toOption (by decide +kernel)) (by decide) (by decide)
  have begun : machine.begun = true := rfl
  have lowered : machine.state.drawFlag = false := rfl
  have polled : machine.keypad.current = machine.state.keys := rfl
  obtain ⟨fixed, idles⟩ := idle_states_are_busy_waits begun calm lowered polled done
  have same : machine.cycle.machine.state = machine.state := fixed.mpr ⟨rfl, rfl, waits⟩
  exact ⟨waits, (idles same 1000 fun _ _ => polled).2⟩

end Machine
end ChipEight
