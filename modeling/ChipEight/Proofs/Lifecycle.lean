import ChipEight.Proofs.Handle
import ChipEight.Proofs.Safety
import ChipEight.Proofs.Workers

namespace ChipEight

namespace Fault

def refuses : Fault → Bool
  | alreadyRunning | alreadyStopped | threadRefused _ => true
  | invalidRom .. | outOfBounds .. | stackOverflow _ | stackUnderflow _ | unknownOpcode ..
  | unsupported .. | programCounterOverflow _ | programCounterUnderflow _ | invalidKey _
  | stackPointerAstray _ | jumpTargetAstray | registerAstray _ => false

theorem refuses_of_ofCycle {fault : Fault} (cycle : fault.ofCycle = true) :
    fault.refuses = false := by
  cases fault <;> first | rfl | contradiction

end Fault

/-- What a host can tell its emulator to be in. -/
inductive Phase where
  | atHand
  | busy
  | lost
deriving DecidableEq

namespace Phase

def next : Phase → Request → Outcome → Phase
  | atHand, .start none, _ => busy
  | busy, .stop, .panicked _ => lost
  | busy, .stop, _ => atHand
  | phase, _, _ => phase

/-- There is one way to be lost, and no way back. -/
theorem next_eq_lost_iff (phase : Phase) (request : Request) (outcome : Outcome) :
    phase.next request outcome = lost ↔
      phase = lost ∨ phase = busy ∧ request = .stop ∧ ∃ cause, outcome = .panicked cause := by
  cases phase with
  | lost => exact iff_of_true rfl (.inl rfl)
  | atHand =>
    cases request with
    | start refusal => cases refusal <;> simp [next]
    | subscribe | load | step | work | stop => simp [next]
  | busy =>
    cases request with
    | stop => cases outcome <;> simp [next]
    | subscribe | load | step | start | work => simp [next]

end Phase

def Request.needsMachine : Request → Bool
  | subscribe _ | load _ | step | start _ => true
  | work _ | stop => false

namespace Handle

def In (handle : Handle) : Phase → Prop
  | .atHand => (∃ machine, handle.machine = some machine) ∧ handle.worker = none ∧
      handle.running = false
  | .busy => handle.machine = none ∧ (∃ session, handle.worker = some (some session)) ∧
      handle.running = true
  | .lost => handle.machine = none ∧ handle.worker = none ∧ handle.running = false

/-- The handle is in this phase and in no other, and that decides what a host sees of it, which
requests are refused, and which phase comes next. -/
structure Orderly (handle : Handle) (phase : Phase) : Prop where
  unique : ∀ other, handle.In other ↔ other = phase
  state : handle.state?.isSome = true ↔ phase = .atHand
  running : handle.isRunning = true ↔ phase = .busy
  halted : handle.isHalted = true → handle.isRunning = true
  needed : ∀ request, request.needsMachine = true →
    ((handle.answer request).outcome = .failed .alreadyRunning ↔ phase ≠ .atHand)
  started : phase = .atHand → ∀ refusal, (handle.answer (.start refusal)).outcome =
    match refusal with
    | none => .done
    | some cause => .failed (.threadRefused cause)
  stopped : (handle.answer .stop).outcome = .failed .alreadyStopped ↔ phase ≠ .busy
  refused : ∀ request fault, (handle.answer request).outcome = .failed fault →
    fault.refuses = true → handle.answer request = handle.refuse fault
  next : ∀ request, (handle.answer request).handle.In
    (phase.next request (handle.answer request).outcome)
  lost : ∀ request, (handle.answer request).handle.In .lost ↔
    phase = .lost ∨ phase = .busy ∧ request = .stop ∧
      ∃ cause, (handle.answer request).outcome = .panicked cause

end Handle

namespace Machine

theorem refuses_of_load {machine : Machine} {rom : List UInt8} {fault : Fault}
    (failed : (machine.load rom).outcome = .failed fault) : fault.refuses = false := by
  unfold load at failed
  split at failed
  · cases failed
    rfl
  · split at failed
    · next cause loaded =>
      cases failed
      obtain refused | ⟨withFont, -, programmed⟩ := bind_eq_error loaded
      · exact Fault.refuses_of_ofCycle (Memory.ofCycle_of_load refused)
      · obtain refused | ⟨memory, -, made⟩ := bind_eq_error programmed
        · exact Fault.refuses_of_ofCycle (Memory.ofCycle_of_load refused)
        · contradiction
    · contradiction

theorem refuses_of_cycle {machine : Machine} {fault : Fault} (sound : machine.state.Sound)
    (failed : machine.cycle.outcome = .failed fault) : fault.refuses = false :=
  Fault.refuses_of_ofCycle
    ((sound.setKeys machine.keypad.current).ofCycle_of_attempt (result_of_failed failed))

end Machine

namespace Emulator

def phase : Emulator → Phase
  | atHand _ => .atHand
  | busy _ => .busy
  | lost _ => .lost

/-- No cycle has ended, or is going to end, in a fault that would look like a refusal. -/
def Regular : Emulator → Prop
  | atHand machine => machine.state.Sound
  | busy session => ∀ fault, session.ending = some (.faulted fault) → fault.refuses = false
  | lost _ => True

theorem in_handle (emulator : Emulator) (phase : Phase) :
    emulator.handle.In phase ↔ phase = emulator.phase := by
  cases emulator <;> cases phase <;> simp [handle, Handle.In, Emulator.phase]

theorem outcome_stop (session : Session) :
    (busy session).stop.outcome = session.finish.outcome := by
  simp only [stop]
  cases session.finish.outcome <;> simp only

theorem phase_answer (emulator : Emulator) (request : Request) :
    (emulator.answer request).emulator.phase =
      emulator.phase.next request (emulator.answer request).outcome := by
  cases emulator with
  | atHand machine =>
    cases request with
    | start refusal => cases refusal <;> rfl
    | subscribe | load | step | work | stop => rfl
  | busy session =>
    cases request with
    | stop =>
      simp only [answer, stop]
      cases session.finish.outcome <;> rfl
    | subscribe | load | step | start | work => rfl
  | lost random => cases request <;> rfl

private theorem answer_of_refuses {emulator : Emulator} (regular : emulator.Regular)
    {request : Request}
    {fault : Fault} (failed : (emulator.answer request).outcome = .failed fault)
    (refuses : fault.refuses = true) : emulator.answer request = emulator.refuse fault := by
  cases emulator with
  | atHand machine =>
    cases request with
    | subscribe | work => contradiction
    | load rom =>
      have harmless := Machine.refuses_of_load failed
      rw [refuses] at harmless
      contradiction
    | step =>
      have harmless := Machine.refuses_of_cycle (Machine.sound_begin regular) failed
      rw [refuses] at harmless
      contradiction
    | start refusal =>
      cases refusal with
      | none => contradiction
      | some cause =>
        cases failed
        rfl
    | stop =>
      cases failed
      rfl
  | busy session =>
    cases request with
    | work => contradiction
    | stop =>
      have harmless :=
        regular fault (Session.ending_of_finish ((outcome_stop session).symm.trans failed))
      rw [refuses] at harmless
      contradiction
    | subscribe | load | step | start =>
      cases failed
      rfl
  | lost random =>
    cases request with
    | work => contradiction
    | subscribe | load | step | start | stop =>
      cases failed
      rfl

private theorem needed_iff {emulator : Emulator} (regular : emulator.Regular) {request : Request}
    (needs : request.needsMachine = true) :
    (emulator.answer request).outcome = .failed .alreadyRunning ↔ emulator.phase ≠ .atHand := by
  cases emulator with
  | busy session =>
    refine iff_of_true ?_ nofun
    cases request <;> first | rfl | contradiction
  | lost random =>
    refine iff_of_true ?_ nofun
    cases request <;> first | rfl | contradiction
  | atHand machine =>
    refine iff_of_false ?_ fun other => other rfl
    intro failed
    cases request with
    | subscribe | work | stop => contradiction
    | start refusal => cases refusal <;> cases failed
    | load rom =>
      have harmless := Machine.refuses_of_load failed
      contradiction
    | step =>
      have harmless := Machine.refuses_of_cycle (Machine.sound_begin regular) failed
      contradiction

private theorem stopped_iff {emulator : Emulator} (regular : emulator.Regular) :
    (emulator.answer .stop).outcome = .failed .alreadyStopped ↔ emulator.phase ≠ .busy := by
  cases emulator with
  | atHand machine => exact iff_of_true rfl nofun
  | lost random => exact iff_of_true rfl nofun
  | busy session =>
    refine iff_of_false ?_ fun other => other rfl
    intro failed
    have harmless :=
      regular _ (Session.ending_of_finish ((outcome_stop session).symm.trans failed))
    contradiction

theorem Regular.orderly {emulator : Emulator} (regular : emulator.Regular) :
    emulator.handle.Orderly emulator.phase where
  unique := emulator.in_handle
  state := by
    rw [state?_handle]
    cases emulator <;> simp [state?, phase]
  running := by
    rw [isRunning_handle]
    cases emulator <;> simp [isRunning, phase]
  halted := by
    rw [isHalted_handle, isRunning_handle]
    cases emulator <;> simp [isHalted, isRunning]
  needed := by
    intro request needs
    rw [answer_handle]
    exact needed_iff regular needs
  started := by
    intro present refusal
    rw [answer_handle]
    cases emulator with
    | atHand machine => cases refusal <;> rfl
    | busy | lost => contradiction
  stopped := by
    rw [answer_handle]
    exact stopped_iff regular
  refused := by
    intro request fault failed refuses
    rw [answer_handle] at failed ⊢
    rw [answer_of_refuses regular failed refuses]
    rfl
  next := by
    intro request
    rw [answer_handle]
    exact ((emulator.answer request).emulator.in_handle _).mpr (emulator.phase_answer request).symm
  lost := by
    intro request
    rw [answer_handle]
    have entered := (emulator.answer request).emulator.in_handle .lost
    rw [phase_answer, eq_comm, Phase.next_eq_lost_iff] at entered
    exact entered

theorem Works.sound {config : Config} {keypad : Keypad} {random : RandomSource}
    {requests before since : List Request} {session : Session} {machine tried : Machine}
    (works : (create config keypad random).Works requests session before since machine)
    (member : .tried tried ∈ (busy (Session.start machine)).history since) :
    tried.state.Sound := by
  obtain ⟨final, reached⟩ := (follows_create config keypad random requests).exists_reached
  obtain ⟨early, late, split⟩ := List.append_of_mem member
  have history : (create config keypad random).history requests =
      ((create config keypad random).history before ++ [.begun]) ++
        (busy (Session.start machine)).history since := by
    rw [works.split, history_append, works.handed, List.append_assoc]
    rfl
  rw [history, split, ← List.append_assoc] at reached
  exact reached.of_tried.1.sound

theorem regular_after (config : Config) (keypad : Keypad) (random : RandomSource)
    (requests : List Request) : ((create config keypad random).after requests).Regular := by
  have follows := follows_create config keypad random requests
  cases stands : (create config keypad random).after requests with
  | lost random => exact True.intro
  | atHand machine =>
    rw [stands] at follows
    exact Machine.Reached.sound follows
  | busy session =>
    intro fault faulted
    obtain ⟨before, since, machine, works⟩ := exists_works stands
    obtain ⟨tried, member, failed⟩ := works.exists_failed faulted
    exact Machine.refuses_of_cycle (works.sound member) failed

/-- Whatever was asked of it, an emulator is in one of three phases, its fields agree on which one,
and the phase decides which requests are refused. A worker has ended by itself exactly if it did not
come past its first round or one of its cycles did not succeed, and a fault that a stop reports is
that of one of its cycles. -/
theorem lifecycle (config : Config) (keypad : Keypad) (random : RandomSource)
    (requests : List Request) :
    let handle := (Handle.create config keypad random).after requests
    handle = ((create config keypad random).after requests).handle ∧
    (∃ phase, handle.Orderly phase) ∧
    (handle.In .busy → ∃ before since machine, requests = before ++ .start none :: since ∧
      .stop ∉ since ∧ (create config keypad random).after before = atHand machine ∧
      (handle.isHalted = true ↔
        (∃ cause,
          (machine.begin.announce (.start machine.begin.state)).outcome = .panicked cause) ∨
        ∃ tried, .tried tried ∈ (busy (Session.start machine)).history since ∧
          tried.cycle.outcome ≠ .done) ∧
      ∀ fault, (handle.answer .stop).outcome = .failed fault →
        ∃ tried, .tried tried ∈ (busy (Session.start machine)).history since ∧
          tried.cycle.outcome = .failed fault) := by
  have same : (Handle.create config keypad random).after requests =
      ((create config keypad random).after requests).handle :=
    (create config keypad random).after_handle requests
  rw [same]
  refine ⟨rfl, ⟨_, (regular_after config keypad random requests).orderly⟩, ?_⟩
  intro working
  have phase := (in_handle _ _).mp working
  cases stands : (create config keypad random).after requests with
  | atHand | lost =>
    rw [stands] at phase
    contradiction
  | busy session =>
    obtain ⟨before, since, machine, works⟩ := exists_works stands
    refine ⟨before, since, machine, works.split, works.going, works.handed, ?_, ?_⟩
    · rw [isHalted_handle, ← Session.isSome_ending_start]
      exact works.passes.halted
    · intro fault failed
      rw [answer_handle] at failed
      apply works.exists_failed
      exact Session.ending_of_finish ((outcome_stop session).symm.trans failed)

theorem lifecycle_of_halted :
    let requests : List Request := [.load [0x00, 0xEE], .start none, .work 2]
    let handle :=
      (Handle.create Config.default (.constant Keys.released) (.ofArray #[])).after requests
    handle.isHalted = true ∧ ∃ before since machine, requests = before ++ .start none :: since ∧
      ∃ tried, .tried tried ∈ (busy (Session.start machine)).history since ∧
        tried.cycle.outcome = .failed (.stackUnderflow 0x200) := by
  intro requests handle
  obtain ⟨-, -, working⟩ :=
    lifecycle Config.default (.constant Keys.released) (.ofArray #[]) requests
  have isBusy : handle.In .busy := ⟨rfl, ⟨_, rfl⟩, rfl⟩
  obtain ⟨before, since, machine, split, -, -, -, reported⟩ := working isBusy
  exact ⟨by decide +kernel, before, since, machine, split,
    reported (.stackUnderflow 0x200) (by decide +kernel)⟩

/-- An observer that panics when a thread starts takes the machine with it. -/
example :
    ((Handle.create Config.default (.constant Keys.released) (.ofArray #[])).after
      [.subscribe { react := fun _ _ => { panic := some "over" } }, .start none, .stop, .stop,
        .start none]).In .lost := ⟨rfl, rfl, rfl⟩

end Emulator
end ChipEight
