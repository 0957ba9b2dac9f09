import ChipEight.Proofs.Calls
import ChipEight.Proofs.Cuts

/-! Where a machine stands in its two inputs. A cycle that is tried polls the keypad once, come what
may, and the one kind of instruction that reads a random byte takes it; nothing else touches
either. So the deeds so far tell which snapshot and which byte the next cycle gets. -/
namespace ChipEight

namespace Keypad

def upcoming (keypad : Keypad) (polls : Nat) : Keys := keypad.snapshot (keypad.polls + polls)

@[simp] theorem upcoming_zero (keypad : Keypad) : keypad.upcoming 0 = keypad.current := rfl

theorem upcoming_polled (keypad : Keypad) (polls : Nat) :
    keypad.polled.upcoming polls = keypad.upcoming (polls + 1) := by
  rw [upcoming, upcoming, Nat.add_comm polls, ← Nat.add_assoc]
  rfl

end Keypad

namespace RandomSource

def upcoming (source : RandomSource) (taken : Nat) : UInt8 := source.byte (source.taken + taken)

@[simp] theorem upcoming_zero (source : RandomSource) : source.upcoming 0 = source.current := rfl

theorem upcoming_advance (source : RandomSource) (taken : Nat) :
    source.advance.upcoming taken = source.upcoming (taken + 1) := by
  rw [upcoming, upcoming, Nat.add_comm taken, ← Nat.add_assoc]
  rfl

end RandomSource

theorem Kind.ofOpcode?_eq_randomByte (opcode : UInt16) :
    ofOpcode? opcode = some randomByte ↔ opcode.toNat / 4096 = 12 := by
  have bound := opcode.toNat_lt
  rw [ofOpcode?_eq_some_iff]
  simp [covers, pattern, Pattern.fits, Digit.fits, digitAt]
  omega

def Deed.takesByte : Deed → Bool
  | tried machine => machine.performed? == some .randomByte
  | subscribed _ | loaded _ | begun => false

theorem Instruction.Effect.keys_eq {instruction : Instruction} {state after : State}
    (effect : instruction.Effect state after) : after.keys = state.keys := by
  cases effect <;> rfl

theorem Attempt.takesByte_of_instruction {state : State} {instruction : Instruction}
    (found : state.instruction = .ok instruction) (policy : MachineCodePolicy) (byte : UInt8) :
    (state.attempt policy byte).tookByte = (instruction.kind == .randomByte) := by
  rw [State.attempt_eq, found]
  rfl

namespace Machine
variable {machine : Machine}

theorem keypad_cycle (machine : Machine) :
    machine.cycle.machine.keypad = machine.keypad.polled := by
  obtain ⟨fault, -, polled⟩ | ⟨state, -, same | same⟩ := machine.cycle_cases
  · rw [polled]
    rfl
  · exact unheard_congr same Machine.keypad fun _ => rfl
  · exact unheard_congr same Machine.keypad fun _ => rfl

theorem random_cycle (machine : Machine) :
    machine.cycle.machine.random =
      if (Deed.tried machine).takesByte then machine.random.advance else machine.random := by
  obtain ⟨fault, failed, polled⟩ | ⟨made, succeeded, committed⟩ := machine.cycle_cases
  · rw [polled, Deed.takesByte, performed?_of_error failed]
    rfl
  · obtain ⟨instruction, found, performed, -⟩ := performed?_of_ok succeeded
    have stored : machine.poll.state.instruction = .ok instruction := found
    have took : machine.attempt.tookByte = (instruction.kind == .randomByte) :=
      Attempt.takesByte_of_instruction stored ..
    have random : machine.cycle.machine.random = (machine.commit made).random :=
      committed.elim (fun same => unheard_congr same Machine.random fun _ => rfl)
        fun same => unheard_congr same Machine.random fun _ => rfl
    rw [random, Deed.takesByte, performed, commit, took]
    rfl

theorem keys_cycle (machine : Machine) :
    machine.cycle.machine.state.keys = machine.keypad.current := by
  cases result : machine.attempt.result with
  | error fault =>
    rw [cycle_of_error result]
    rfl
  | ok made =>
    obtain ⟨instruction, -, -, effect⟩ := performed?_of_ok result
    have kept : made.keys = machine.keypad.current := effect.keys_eq
    obtain same | same := state_cycle_of_ok result
    · rw [same, kept]
    · rw [same]
      exact kept

private theorem performed?_eq_randomByte_iff (machine : Machine) :
    machine.performed? = some .randomByte ↔
      ∃ opcode, machine.state.memory.word machine.state.pc.toNat = .ok opcode ∧
        opcode.toNat / 4096 = 12 := by
  constructor
  · intro performed
    cases result : machine.attempt.result with
    | error fault =>
      rw [performed?_of_error result] at performed
      contradiction
    | ok made =>
      obtain ⟨instruction, found, own, -⟩ := performed?_of_ok result
      rw [own] at performed
      obtain ⟨opcode, word, known, -⟩ := State.word_of_instruction found
      rw [Option.some.inj performed] at known
      exact ⟨opcode, word, (Kind.ofOpcode?_eq_randomByte opcode).mp known⟩
  · rintro ⟨opcode, word, leading⟩
    have known := (Kind.ofOpcode?_eq_randomByte opcode).mpr leading
    have found := State.instruction_eq_of_word word known
    have result := result_of_kind found nofun
    rw [performed?, found, result]
    rfl

private theorem v_cycle_of_randomByte {opcode : UInt16}
    (word : machine.state.memory.word machine.state.pc.toNat = .ok opcode)
    (leading : opcode.toNat / 4096 = 12) :
    let operands := Operands.ofOpcode opcode
    machine.cycle.machine.state.v =
      machine.state.v.set operands.x.val (machine.random.current &&& operands.nn)
        (digit_lt operands.x) := by
  have known := (Kind.ofOpcode?_eq_randomByte opcode).mpr leading
  have found := State.instruction_eq_of_word word known
  have result := result_of_kind found nofun
  exact v_cycle_of_ok result

/-- What a cycle does with its inputs if these keys and this byte are next. Its instruction is tried
on the new keys, which stay even if it fails. A byte that is taken goes through the mask of the
instruction into its register. -/
structure Uses (machine : Machine) (keys : Keys) (byte : UInt8) : Prop where
  failed : ∀ fault, machine.cycle.outcome = .failed fault ↔
    ((machine.state.setKeys keys).attempt machine.config.machineCode byte).result = .error fault
  made : ∀ made,
    ((machine.state.setKeys keys).attempt machine.config.machineCode byte).result = .ok made →
      machine.cycle.machine.state = made ∨ machine.cycle.machine.state = made.settled
  stored : machine.cycle.machine.state.keys = keys
  takes : (Deed.tried machine).takesByte = true ↔
    ∃ opcode, machine.state.memory.word machine.state.pc.toNat = .ok opcode ∧
      opcode.toNat / 4096 = 12
  masked : ∀ opcode, machine.state.memory.word machine.state.pc.toNat = .ok opcode →
    opcode.toNat / 4096 = 12 →
    let operands := Operands.ofOpcode opcode
    machine.cycle.machine.state.v =
        machine.state.v.set operands.x.val (byte &&& operands.nn) (digit_lt operands.x) ∧
      (byte &&& operands.nn) &&& ~~~operands.nn = 0

theorem uses_current (machine : Machine) :
    machine.Uses machine.keypad.current machine.random.current where
  failed fault := by
    constructor
    · exact result_of_failed
    · intro failed
      have result : machine.attempt.result = .error fault := failed
      rw [cycle_of_error result]
  made made succeeded := by
    have result : machine.attempt.result = .ok made := succeeded
    exact state_cycle_of_ok result
  stored := machine.keys_cycle
  takes := by
    rw [← performed?_eq_randomByte_iff]
    exact beq_iff_eq
  masked opcode word leading := by
    refine ⟨v_cycle_of_randomByte word leading, ?_⟩
    rw [UInt8.and_assoc, UInt8.and_not_self, UInt8.and_zero]

/-- The machine has polled the keypad once for every cycle in the history and has taken a random
byte for every cycle that takes one. -/
structure Accounted (keypad : Keypad) (random : RandomSource) (history : List Deed)
    (machine : Machine) : Prop where
  snapshot : machine.keypad.snapshot = keypad.snapshot
  polls : machine.keypad.polls = keypad.polls + history.countP Deed.isTry
  byte : machine.random.byte = random.byte
  taken : machine.random.taken = random.taken + history.countP Deed.takesByte

variable {keypad : Keypad} {random : RandomSource} {history : List Deed}

theorem Accounted.current_eq (accounted : machine.Accounted keypad random history) :
    machine.keypad.current = keypad.upcoming (history.countP Deed.isTry) := by
  rw [Keypad.current, accounted.snapshot, accounted.polls]
  rfl

theorem Accounted.uses (accounted : machine.Accounted keypad random history) :
    machine.Uses (keypad.upcoming (history.countP Deed.isTry))
      (random.upcoming (history.countP Deed.takesByte)) := by
  have byte : machine.random.current = random.upcoming (history.countP Deed.takesByte) := by
    rw [RandomSource.current, accounted.byte, accounted.taken]
    rfl
  rw [← accounted.current_eq, ← byte]
  exact machine.uses_current

theorem Accounted.same {other : Machine} {deed : Deed}
    (accounted : machine.Accounted keypad random history)
    (sameKeypad : other.keypad = machine.keypad) (sameRandom : other.random = machine.random)
    (idle : deed.isTry = false) (spared : deed.takesByte = false) :
    other.Accounted keypad random (history ++ [deed]) where
  snapshot := by rw [sameKeypad, accounted.snapshot]
  polls := by simp [sameKeypad, accounted.polls, List.countP_append, idle]
  byte := by rw [sameRandom, accounted.byte]
  taken := by simp [sameRandom, accounted.taken, List.countP_append, spared]

theorem Accounted.cycle (accounted : machine.Accounted keypad random history) :
    machine.cycle.machine.Accounted keypad random (history ++ [.tried machine]) where
  snapshot := by
    rw [keypad_cycle]
    exact accounted.snapshot
  polls := by
    rw [keypad_cycle, List.countP_append, ← Nat.add_assoc, ← accounted.polls]
    rfl
  byte := by
    rw [random_cycle, ← accounted.byte]
    split <;> rfl
  taken := by
    rw [random_cycle, List.countP_append, ← Nat.add_assoc, ← accounted.taken,
      List.countP_singleton]
    split <;> rfl

theorem carried_accounted (keypad : Keypad) (random : RandomSource) :
    Carried fun history machine => machine.Accounted keypad random history where
  subscribed _ accounted := accounted.same rfl rfl rfl rfl
  loaded _ accounted := accounted.same rfl rfl rfl rfl
  begun {_ machine} accounted :=
    accounted.same machine.begin_inputs.1 machine.begin_inputs.2 rfl rfl
  tried _ accounted := accounted.cycle
  heard same accounted := by
    have keypad := unheard_congr same Machine.keypad fun _ => rfl
    have random := unheard_congr same Machine.random fun _ => rfl
    exact ⟨keypad ▸ accounted.snapshot, keypad ▸ accounted.polls, random ▸ accounted.byte,
      random ▸ accounted.taken⟩

theorem carried_snapshot (snapshot : Nat → Keys) :
    Carried fun _ machine => machine.keypad.snapshot = snapshot where
  subscribed _ now := now
  loaded _ now := now
  begun {_ machine} now := by rw [machine.begin_inputs.1, now]
  tried {_ machine} _ now := by
    rw [machine.keypad_cycle]
    exact now
  heard same now := by rw [unheard_congr same Machine.keypad fun _ => rfl, now]

end Machine

def Request.cycles : Request → Bool
  | step | work _ => true
  | subscribe _ | load _ | start _ | stop => false

namespace Emulator

private theorem unread_stop (session : Session) :
    (busy session).stop.emulator.random = session.machine.random ∧
      ∀ keypad, (busy session).stop.emulator.keypad? = some keypad →
        session.machine.keypad = keypad := by
  have keypad : session.finish.machine.keypad = session.machine.keypad :=
    Machine.unheard_congr session.unheard_finish Machine.keypad fun _ => rfl
  have random : session.finish.machine.random = session.machine.random :=
    Machine.unheard_congr session.unheard_finish Machine.random fun _ => rfl
  simp only [stop]
  split
  · refine ⟨random, ?_⟩
    intro held present
    contradiction
  · refine ⟨random, ?_⟩
    intro held present
    rw [← keypad]
    exact Option.some.inj present

theorem unread_answer (emulator : Emulator) {request : Request} (idle : request.cycles = false) :
    (emulator.answer request).emulator.random = emulator.random ∧
      ∀ keypad, (emulator.answer request).emulator.keypad? = some keypad →
        emulator.keypad? = some keypad := by
  cases emulator with
  | lost random => cases request <;> exact ⟨rfl, nofun⟩
  | busy session =>
    cases request with
    | step | work => contradiction
    | stop =>
      obtain ⟨random, keypad⟩ := unread_stop session
      exact ⟨random, fun held present => congrArg some (keypad held present)⟩
    | subscribe | load | start => exact ⟨rfl, fun _ present => present⟩
  | atHand machine =>
    cases request with
    | step | work => contradiction
    | subscribe | stop => exact ⟨rfl, fun _ present => present⟩
    | load rom =>
      have same : (machine.load rom).machine.random = machine.random ∧
          (machine.load rom).machine.keypad = machine.keypad := by
        obtain ⟨state, -, -, after⟩ | ⟨-, same⟩ := machine.load_cases rom
        · rw [after]
          exact ⟨rfl, rfl⟩
        · rw [same]
          exact ⟨rfl, rfl⟩
      exact ⟨same.1, fun _ present => (congrArg some same.2.symm).trans present⟩
    | start refusal =>
      cases refusal with
      | some cause => exact ⟨rfl, fun _ present => present⟩
      | none =>
        have started := Session.unheard_start machine
        have random : (Session.start machine).machine.random = machine.random :=
          (Machine.unheard_congr started Machine.random fun _ => rfl).trans machine.begin_inputs.2
        have keypad : (Session.start machine).machine.keypad = machine.keypad :=
          (Machine.unheard_congr started Machine.keypad fun _ => rfl).trans machine.begin_inputs.1
        exact ⟨random, fun _ present => (congrArg some keypad.symm).trans present⟩

/-- Over any requests a cycle that is tried gets the snapshot and the byte that the cycles before
it have left, polls once, and takes the byte only if it is the one kind that does. Requests
that have no cycles tried leave both inputs as they are. -/
theorem inputs_are_accounted (config : Config) (keypad : Keypad) (random : RandomSource)
    (requests : List Request) :
    let history := (create config keypad random).history requests
    let emulator := (create config keypad random).after requests
    (∀ before tried rest, history = before ++ .tried tried :: rest →
      tried.Accounted keypad random before ∧
      tried.Uses (keypad.upcoming (before.countP Deed.isTry))
        (random.upcoming (before.countP Deed.takesByte)) ∧
      tried.cycle.machine.keypad = tried.keypad.polled ∧
      tried.cycle.machine.random =
        if (Deed.tried tried).takesByte then tried.random.advance else tried.random) ∧
    (∀ machine, emulator.machine? = some machine → machine.Accounted keypad random history) ∧
    ∀ request, request.cycles = false →
      (emulator.answer request).emulator.random = emulator.random ∧
      ∀ held, (emulator.answer request).emulator.keypad? = some held →
        emulator.keypad? = some held := by
  intro history emulator
  have fresh : (create config keypad random).Holds
      (fun history machine => machine.Accounted keypad random history) [] :=
    ⟨rfl, rfl, rfl, rfl⟩
  have carried := Machine.carried_accounted keypad random
  refine ⟨?_, ?_, fun request idle => emulator.unread_answer idle⟩
  · intro before tried rest split
    have stands : (create config keypad random).StandsAt requests before tried :=
      .inl ⟨rest, split⟩
    have accounted := stands.holds carried fresh
    exact ⟨accounted, accounted.uses, tried.keypad_cycle, tried.random_cycle⟩
  · intro machine present
    have stands : (create config keypad random).StandsAt requests history machine :=
      .inr ⟨rfl, present⟩
    exact stands.holds carried fresh

/-- One random byte is taken behind an empty mask, the next is masked into a register, and then a
return fails. -/
theorem inputs_around_failure :
    let keypad := Keypad.ofList Keys.released [.ofMask 1, .ofMask 2, .ofMask 4]
    let random := RandomSource.ofArray #[0x5A, 0xC3]
    let requests := [.load [0xC0, 0x00, 0xC1, 0x0F, 0x00, 0xEE], .step, .start none, .work 2, .stop]
    ∀ machine, ((create Config.default keypad random).after requests).machine? = some machine →
      machine.keypad.polls = 3 ∧ machine.random.taken = 2 := by
  intro keypad random requests machine present
  obtain ⟨-, stands, -⟩ := inputs_are_accounted Config.default keypad random requests
  have accounted := stands machine present
  rw [accounted.polls, accounted.taken]
  decide +kernel

end Emulator
end ChipEight
