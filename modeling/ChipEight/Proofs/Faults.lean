import ChipEight.Proofs.Reached
import ChipEight.Proofs.Sessions

/-! Cycles that fail. Whichever layer refuses, the machine keeps its state except for the keys.
It can therefore be driven on from where it stands and, as long as the keys stay as they
are, it fails again for the same reason. -/
namespace ChipEight

def hasBegun (history : List Deed) : Bool :=
  history.foldl
    (fun begun deed => match deed with
      | .loaded _ => false
      | .begun => true
      | .subscribed _ | .tried _ => begun)
    false

theorem hasBegun_concat (history : List Deed) (deed : Deed) :
    hasBegun (history ++ [deed]) = match deed with
      | .loaded _ => false
      | .begun => true
      | .subscribed _ | .tried _ => hasBegun history :=
  List.foldl_append ..

theorem Machine.carried_begun :
    Carried fun history machine => machine.begun = hasBegun history where
  subscribed _ begun := by rwa [hasBegun_concat]
  loaded _ _ := by rw [hasBegun_concat]
  begun {_ machine} _ := by
    rw [hasBegun_concat]
    exact machine.begun_begin
  tried {_ machine} _ begun := by
    rw [hasBegun_concat]
    exact machine.begun_cycle.trans begun
  heard same begun := by rwa [begun_of_unheard_eq same]

theorem Machine.Reached.begun_eq {history : List Deed} {machine : Machine}
    (reached : machine.Reached history) : machine.begun = hasBegun history :=
  reached.holds carried_begun fun _ _ _ => rfl

/-- As long as the keys that are polled are those of `state`, every cycle of the history is tried
on `state` and fails with `fault`. -/
def Retried (state : State) (fault : Fault) : List Deed → Prop
  | [] => True
  | .tried machine :: rest =>
    machine.keypad.current = state.keys →
      machine.state = state ∧ machine.cycle.outcome = .failed fault ∧ Retried state fault rest
  | .subscribed _ :: rest | .loaded _ :: rest | .begun :: rest => Retried state fault rest

/-- The machine has begun, stands at `state`, and meets `fault` there if the keys stay as they
are. -/
structure Machine.Stalled (machine : Machine) (state : State) (fault : Fault) : Prop where
  begun : machine.begun = true
  stands : machine.state = state
  stuck : (state.attempt machine.config.machineCode machine.random.current).result = .error fault

def Emulator.Stalled (state : State) (fault : Fault) : Emulator → Prop
  | atHand machine => machine.Stalled state fault
  | busy session => session.machine.Stalled state fault
  | lost _ => True

namespace Machine
variable {machine other : Machine} {state : State} {fault : Fault}

theorem Stalled.of_unheard_eq (stalled : machine.Stalled state fault)
    (same : other.unheard = machine.unheard) : other.Stalled state fault where
  begun := (begun_of_unheard_eq same).trans stalled.begun
  stands := (state_of_unheard_eq same).trans stalled.stands
  stuck := by
    have config := unheard_congr same Machine.config fun _ => rfl
    have random := unheard_congr same Machine.random fun _ => rfl
    rw [config, random]
    exact stalled.stuck

theorem Stalled.result (stalled : machine.Stalled state fault)
    (held : machine.keypad.current = state.keys) : machine.attempt.result = .error fault := by
  have polled : machine.poll.state = state := by
    rw [poll, stalled.stands, held]
    rfl
  rw [attempt, polled]
  exact stalled.stuck

theorem Stalled.poll (stalled : machine.Stalled state fault)
    (held : machine.keypad.current = state.keys) : machine.poll.Stalled state fault where
  begun := stalled.begun
  stands := by
    rw [Machine.poll, stalled.stands, held]
    rfl
  stuck := stalled.stuck

end Machine

namespace Emulator
variable {state : State} {fault : Fault}

theorem Stalled.retried_work {session : Session} (stalled : (busy session).Stalled state fault)
    (count : Nat) {rest : List Deed}
    (later : (busy (session.work count)).Stalled state fault → Retried state fault rest) :
    Retried state fault ((busy session).deeds (.work count) ++ rest) := by
  have stalledMachine : session.machine.Stalled state fault := stalled
  rw [deeds, Session.tries]
  cases ending : session.ending with
  | some ended =>
    simp only [Session.work, ending] at later
    exact later stalled
  | none =>
    simp only [Session.work, ending] at later
    cases count with
    | zero => exact later stalled
    | succ count =>
      intro held
      have cycle := Machine.cycle_of_error (stalledMachine.result held)
      have outcome : session.machine.cycle.outcome = .failed fault := by rw [cycle]
      refine ⟨stalledMachine.stands, outcome, ?_⟩
      rw [outcome]
      apply later
      have halted : (session.machine.run (count + 1)).machine.unheard =
          session.machine.poll.unheard := by
        rw [Machine.run, cycle]
        exact Machine.unheard_halt ..
      exact (stalledMachine.poll held).of_unheard_eq halted

theorem Stalled.step {machine : Machine} (stalled : machine.Stalled state fault)
    {rest : List Deed}
    (later : (atHand machine.step.machine).Stalled state fault → Retried state fault rest) :
    Retried state fault ((atHand machine).deeds .step ++ rest) := by
  have begin := Machine.begin_of_begun stalled.begun
  rw [deeds, begin]
  intro held
  have cycle := Machine.cycle_of_error (stalled.result held)
  refine ⟨stalled.stands, by rw [cycle], later ?_⟩
  have step : machine.step.machine = machine.poll := by rw [Machine.step, begin, cycle]
  rw [step]
  exact stalled.poll held

theorem Stalled.stop {session : Session} (stalled : (busy session).Stalled state fault) :
    (busy session).stop.emulator.Stalled state fault := by
  have stalledMachine : session.machine.Stalled state fault := stalled
  have handed := stalledMachine.of_unheard_eq session.unheard_finish
  unfold Emulator.stop
  dsimp only
  split
  · exact True.intro
  · exact handed

theorem Stalled.retried {emulator : Emulator} (stalled : emulator.Stalled state fault)
    (requests : List Request) (kept : ∀ rom, .load rom ∉ requests) :
    Retried state fault (emulator.history requests) := by
  induction requests generalizing emulator with
  | nil => exact True.intro
  | cons request rest ih =>
    have restKept : ∀ rom, .load rom ∉ rest := fun rom member =>
      kept rom (List.mem_cons_of_mem _ member)
    have keep : ∀ emulator : Emulator, emulator.Stalled state fault →
        Retried state fault (emulator.history rest) := fun _ stalled => ih stalled restKept
    cases emulator with
    | lost random => cases request <;> exact keep _ stalled
    | busy session =>
      cases request with
      | work count => exact stalled.retried_work count (keep _)
      | stop => exact keep _ stalled.stop
      | subscribe | load | step | start => exact keep _ stalled
    | atHand machine =>
      have stalledMachine : machine.Stalled state fault := stalled
      cases request with
      | load rom => exact absurd List.mem_cons_self (kept rom)
      | step => exact Stalled.step stalledMachine (keep _)
      | start refusal =>
        cases refusal with
        | some cause => exact keep _ stalled
        | none =>
          have same := Session.unheard_start machine
          rw [Machine.begin_of_begun stalledMachine.begun] at same
          exact keep (busy (Session.start machine)) (stalledMachine.of_unheard_eq same)
      | subscribe observer =>
        have subscribed :
            (atHand { machine with observers := machine.observers ++ [observer] }).Stalled state
              fault := ⟨stalledMachine.begun, stalledMachine.stands, stalledMachine.stuck⟩
        exact keep _ subscribed
      | work | stop => exact keep _ stalled

end Emulator

/-- What a cycle that fails with `fault` leaves of the machine `before`, the counter being at `pc`.
The machine goes on from there and fails again for as long as the keys stay the same. -/
structure Machine.LeftBy (before : Machine) (fault : Fault) (pc : UInt16) (after : Machine) :
    Prop where
  state : after.state = { before.state with pc, keys := before.keypad.current }
  random : after.random = before.random
  keypad : after.keypad = before.keypad.polled
  steps : after.step = after.cycle
  starts : (Session.start after).machine.state = after.state
  retried : ∀ requests, (∀ rom, .load rom ∉ requests) →
    Retried after.state fault ((Emulator.atHand after).history requests)
  session : after.Calm → after.keypad.current = before.keypad.current → ∀ count, 1 ≤ count →
    (Emulator.session after count).outcome = .failed fault

namespace Machine

theorem Stalled.outcome_session {machine : Machine} {state : State} {fault : Fault}
    (stalled : machine.Stalled state fault) (calm : machine.Calm)
    (held : machine.keypad.current = state.keys) {count : Nat} (some : 1 ≤ count) :
    (Emulator.session machine count).outcome = .failed fault := by
  obtain ⟨fewer, rfl⟩ := Nat.exists_eq_add_of_le' some
  have cycle := cycle_of_error (stalled.result held)
  have failed : machine.step.outcome = .failed fault := by
    rw [step_of_begun stalled.begun, cycle]
  rw [(Emulator.session_yields calm (fewer + 1)).outcome, begin_of_begun stalled.begun, steps,
    Step.andThen_of_failed failed, failed]

theorem leftBy_of_error {machine after : Machine} {fault : Fault}
    (failed : machine.begin.attempt.result = .error fault)
    (same : after.unheard = machine.begin.poll.unheard) :
    machine.LeftBy fault machine.begin.state.pc after := by
  have polled : machine.begin.poll.Stalled machine.begin.poll.state fault :=
    ⟨machine.begun_begin, rfl, failed⟩
  have stalled := polled.of_unheard_eq same
  rw [← state_of_unheard_eq same] at stalled
  have state : after.state =
      { machine.state with pc := machine.begin.state.pc, keys := machine.keypad.current } := by
    rw [state_of_unheard_eq same]
    unfold begin
    split <;> rfl
  have random : after.random = machine.begin.random :=
    unheard_congr same Machine.random fun _ => rfl
  have keypad : after.keypad = machine.begin.keypad.polled :=
    unheard_congr same Machine.keypad fun _ => rfl
  have started := Session.unheard_start after
  rw [begin_of_begun stalled.begun] at started
  refine ⟨state, ?_, ?_, step_of_begun stalled.begun, state_of_unheard_eq started, ?_, ?_⟩
  · rw [random, machine.begin_inputs.2]
  · rw [keypad, machine.begin_inputs.1]
  · intro requests kept
    have present : (Emulator.atHand after).Stalled after.state fault := stalled
    exact present.retried requests kept
  · intro calm held count some
    exact stalled.outcome_session calm (by rw [held, state]) some

private theorem pc_begin (machine : Machine) :
    machine.begin.state.pc = if machine.begun then machine.state.pc else State.programStart := by
  unfold begin
  split <;> rfl

theorem isProgress_halt {machine : Machine} {fault : Fault} {told : Nat × Event}
    (heard : told ∈ (machine.halt fault).trace.events) : told.2.isProgress = false := by
  obtain earlier | stopped := Step.mem_events_andThen heard
  · obtain logged | faulted := Step.mem_events_andThen earlier
    · contradiction
    · rw [Round.mem_events_tell faulted]
      rfl
  · rw [Round.mem_events_tell stopped]
    rfl

theorem fault_of_halt {machine : Machine} {fault other : Fault}
    (faulted : (machine.halt fault).ending = some (.faulted other)) : fault = other := by
  unfold halt at faulted
  dsimp only at faulted
  split at faulted
  · cases faulted
  · cases faulted
    rfl
  · cases faulted
    rfl

theorem run_faulted {machine : Machine} {count : Nat} {fault : Fault}
    (faulted : (machine.run count).ending = some (.faulted fault)) :
    ∃ finished, finished < count ∧ (machine.run finished).ending = none ∧
      (machine.run finished).machine.attempt.result = .error fault ∧
      (machine.run count).machine.unheard = (machine.run finished).machine.poll.unheard ∧
      ∃ extra, (machine.run count).trace = (machine.run finished).trace ++ extra ∧
        ∀ told ∈ extra.events, told.2.isProgress = false := by
  induction count generalizing machine with
  | zero => contradiction
  | succ count ih =>
    rw [Machine.run] at faulted ⊢
    cases outcome : machine.cycle.outcome with
    | panicked cause =>
      simp only [outcome] at faulted
      cases faulted
    | done =>
      simp only [outcome] at faulted ⊢
      obtain ⟨finished, fewer, running, failed, same, extra, trace, silent⟩ := ih faulted
      refine ⟨finished + 1, by omega, ?_⟩
      rw [Machine.run]
      simp only [outcome]
      refine ⟨running, failed, same, extra, ?_, silent⟩
      rw [trace, List.append_assoc]
    | failed other =>
      simp only [outcome] at faulted ⊢
      have result := result_of_failed outcome
      have silent := events_cycle_of_error result
      obtain rfl := fault_of_halt faulted
      refine ⟨0, by omega, rfl, result, ?_,
        machine.cycle.trace ++ (machine.cycle.machine.halt other).trace, rfl, ?_⟩
      · rw [unheard_halt, cycle_of_error result]
        rfl
      · intro told heard
        rw [Trace.events_append, silent] at heard
        exact isProgress_halt heard

end Machine

/-- Over any requests a cycle that fails, on the caller's thread or on a worker's, leaves all but
the keys, and the counter too unless it is the first since the program was loaded. -/
theorem Emulator.faults_keep_state (config : Config) (keypad : Keypad) (random : RandomSource)
    (requests : List Request) :
    let history := (create config keypad random).history requests
    let emulator := (create config keypad random).after requests
    (∀ machine fault, emulator = atHand machine → emulator.step.outcome = .failed fault →
      emulator.step.trace.events = [] ∧ ∃ after, emulator.step.emulator = atHand after ∧
        machine.LeftBy fault
          (if hasBegun history then machine.state.pc else State.programStart) after) ∧
    (∀ machine, emulator = atHand machine → (Session.start machine).machine.state =
      { machine.state with
        pc := if hasBegun history then machine.state.pc else State.programStart }) ∧
    ∀ session count fault, emulator = busy session → session.ending = none →
      (session.work count).ending = some (.faulted fault) →
      ∃ finished after, finished < count ∧ (session.work finished).ending = none ∧
        (busy (session.work count)).stop.emulator = atHand after ∧
        (busy (session.work count)).stop.outcome = .failed fault ∧
        (session.work finished).machine.LeftBy fault
          (session.work finished).machine.state.pc after ∧
        ∃ extra, (session.work count).trace = (session.work finished).trace ++ extra ∧
          ∀ told ∈ extra.events, told.2.isProgress = false := by
  intro history emulator
  have follows : emulator.Follows history := follows_create config keypad random requests
  refine ⟨?_, ?_, ?_⟩
  · intro machine fault present failed
    rw [present] at follows failed ⊢
    have result := Machine.result_of_failed failed
    have cycle := Machine.cycle_of_error result
    have begun := Machine.Reached.begun_eq follows
    refine ⟨Machine.events_cycle_of_error result, _, rfl, ?_⟩
    rw [← begun, ← Machine.pc_begin]
    exact Machine.leftBy_of_error result (congrArg (Machine.unheard ∘ Step.machine) cycle)
  · intro machine present
    rw [present] at follows
    rw [Machine.state_of_unheard_eq (Session.unheard_start machine),
      ← Machine.Reached.begun_eq follows]
    unfold Machine.begin
    split <;> rfl
  · intro session count fault present running faulted
    rw [present] at follows
    obtain ⟨reached, begun⟩ := follows
    have worked : ∀ cycles, session.work cycles =
        { session.machine.run cycles with
          trace := session.trace ++ (session.machine.run cycles).trace } := by
      intro cycles
      simp only [Session.work, running]
    have stopped : (busy (session.work count)).stop =
        ⟨atHand (session.work count).machine, .failed fault, [.logged .stopped],
          some (session.work count).trace⟩ := by
      simp only [stop, Session.finish, faulted]
      rfl
    rw [stopped]
    rw [worked] at faulted
    obtain ⟨finished, fewer, going, failed, same, extra, trace, silent⟩ :=
      Machine.run_faulted faulted
    have stillBegun := (reached.run begun finished).2
    have begin := Machine.begin_of_begun stillBegun
    refine ⟨finished, _, fewer, ?_, rfl, rfl, ?_, extra, ?_, silent⟩
    · rw [worked]
      exact going
    · rw [worked, worked]
      have left := Machine.leftBy_of_error (begin.symm ▸ failed) (begin.symm ▸ same)
      rwa [begin] at left
    · rw [worked, worked, trace, List.append_assoc]

theorem Emulator.rejected_cycle_keeps_state :
    ∃ after,
      (create ⟨60, .reject⟩ (.constant Keys.released) (.ofArray #[])).step.emulator = atHand after ∧
        after.state.pc = State.programStart ∧ after.state.memory = Memory.zero := by
  obtain ⟨stepped, -, -⟩ :=
    faults_keep_state ⟨60, .reject⟩ (.constant Keys.released) (.ofArray #[]) []
  obtain ⟨-, after, handed, left⟩ := stepped _ (.unsupported 0 0x200) rfl (by decide +kernel)
  refine ⟨after, handed, ?_, ?_⟩
  · rw [left.state]
    rfl
  · rw [left.state]
    rfl

end ChipEight
