import ChipEight.Proofs.Sessions

/-! What observers are told, as one log. Every event is a round of its own, so the log of all
observers is that of a single one with each entry repeated for everybody, and what is in
it hangs on the machine alone. -/
namespace ChipEight

def received (events : List (Nat × Event)) (position : Nat) : List Event :=
  events.filterMap fun (receiver, event) => if receiver = position then some event else none

theorem received_append (first second : List (Nat × Event)) (position : Nat) :
    received (first ++ second) position = received first position ++ received second position :=
  List.filterMap_append

namespace Machine

theorem received_round (machine : Machine) (event : Event) {position : Nat}
    (present : position < machine.observers.length) :
    received (machine.round event) position = [event] := by
  have own : ∀ count, received ((List.range count).map fun receiver => (receiver, event)) position =
      if position < count then [event] else [] := by
    intro count
    induction count with
    | zero => rfl
    | succ count ih =>
      rw [List.range_succ, List.map_append, received_append, ih]
      by_cases last : count = position
      · subst last
        simp [received]
      · have same : position < count + 1 ↔ position < count := by omega
        simp [received, last, same]
  rw [round, own, if_pos present]

theorem received_rounds (machine : Machine) (log : List Event) {position : Nat}
    (present : position < machine.observers.length) :
    received (log.flatMap machine.round) position = log := by
  induction log with
  | nil => rfl
  | cons event rest ih =>
    rw [List.flatMap_cons, received_append, machine.received_round event present, ih]
    rfl

def withObservers (machine : Machine) (observers : List Observer) : Machine :=
  { machine with observers }

def alone (machine : Machine) : Machine := machine.withObservers []

@[simp] theorem observers_withObservers (machine : Machine) (observers : List Observer) :
    (machine.withObservers observers).observers = observers := rfl

@[simp] theorem alone_withObservers (machine : Machine) (observers : List Observer) :
    (machine.withObservers observers).alone = machine.alone := rfl

theorem begin_withObservers (machine : Machine) (observers : List Observer) :
    (machine.withObservers observers).begin = machine.begin.withObservers observers := by
  obtain ⟨state, keypad, random, others, config, begun⟩ := machine
  cases begun with
  | true => rfl
  | false => rfl

theorem alone_of_unheard_eq {machine other : Machine} (same : machine.unheard = other.unheard) :
    machine.alone = other.alone :=
  unheard_congr same alone fun _ => rfl

theorem alone_congr {α : Type} {machine other : Machine} (same : machine.alone = other.alone)
    (read : Machine → α) (blind : ∀ machine, read machine.alone = read machine) :
    read machine = read other := by
  rw [← blind machine, same, blind]

/-- Cycle after cycle succeeds from `machine` to `last`, and the instructions make the states. -/
inductive Makes : Machine → List State → Machine → Prop where
  | nil (machine : Machine) : Makes machine [] machine
  | cons {machine last : Machine} {state : State} {rest : List State}
      (made : machine.attempt.result = .ok state)
      (later : (machine.commit state.settled).Makes rest last) : Makes machine (state :: rest) last

/-- How a session ends that was given some cycles and has made some states. Either it has used up
its cycles and is told to stop, or a fault cuts it short; the outcome is then the fault, and the
machine stops with nothing but its keys changed. -/
inductive Ends (given made : Nat) (last : Machine) : Outcome → State → List Event → Prop where
  | stopped (all : made = given) : Ends given made last .done last.state [.stop last.state]
  | halted (fewer : made < given) {fault : Fault} (failed : last.attempt.result = .error fault) :
      Ends given made last (.failed fault) last.poll.state [.fault fault, .stop last.poll.state]

/-- Single steps end in this way, and tell `log` to everybody before they would end a session. -/
structure Shows (machine : Machine) (count : Nat) (outcome : Outcome) (stopped : State)
    (log : List Event) : Prop where
  outcome : (machine.steps count).outcome = outcome
  state : (machine.steps count).machine.state = stopped
  events : (machine.steps count).trace.events ++ (machine.steps count).farewell =
    log.flatMap machine.round

theorem Shows.cons {machine : Machine} {state : State} {count : Nat} {outcome : Outcome}
    {stopped : State} {log : List Event} (calm : machine.Calm) (begun : machine.begun)
    (made : machine.attempt.result = .ok state)
    (later : machine.cycle.machine.Shows count outcome stopped log) :
    machine.Shows (count + 1) outcome stopped (state.happenings ++ log) := by
  obtain ⟨done, settled, events⟩ := cycle_of_calm calm made
  have round : machine.cycle.machine.round = machine.round := by
    rw [round_of_unheard_eq settled]
    rfl
  have told := later.events
  rw [round] at told
  have steps : machine.steps (count + 1) = machine.cycle.andThen (Machine.steps count) := by
    rw [Machine.steps, step_of_begun begun]
  rw [Step.andThen_of_done done] at steps
  constructor
  · rw [steps]
    exact later.outcome
  · rw [steps]
    exact later.state
  · rw [steps, Trace.events_append, events, List.flatMap_append, List.append_assoc, ← told]
    rfl

theorem Shows.of_error {machine : Machine} {fault : Fault} (begun : machine.begun)
    (failed : machine.attempt.result = .error fault) (count : Nat) :
    machine.Shows (count + 1) (.failed fault) machine.poll.state
      [.fault fault, .stop machine.poll.state] := by
  have outcome : machine.cycle.outcome = .failed fault := by rw [cycle_of_error failed]
  have steps : machine.steps (count + 1) = machine.cycle := by
    rw [Machine.steps, step_of_begun begun, Step.andThen_of_failed outcome]
  constructor
  · rw [steps, outcome]
  · rw [steps, cycle_of_error failed]
  · rw [steps, Step.farewell, outcome, events_cycle_of_error failed, cycle_of_error failed]
    simp only [List.nil_append, List.flatMap_cons, List.flatMap_nil, List.append_nil]
    rfl

theorem Shows.zero (machine : Machine) :
    machine.Shows 0 .done machine.state [.stop machine.state] where
  outcome := rfl
  state := rfl
  events := (List.append_nil _).symm

theorem exists_makes (count : Nat) (machine : Machine) :
    ∃ states last outcome stopped ending, machine.Makes states last ∧
      last.Ends count states.length outcome stopped ending ∧
      ∀ full : Machine, full.Calm → full.begun → full.alone = machine.alone →
        full.Shows count outcome stopped (states.flatMap State.happenings ++ ending) := by
  induction count generalizing machine with
  | zero =>
    refine ⟨[], machine, .done, machine.state, [.stop machine.state], .nil machine,
      .stopped rfl, ?_⟩
    intro full _ _ same
    have state : full.state = machine.state := alone_congr same Machine.state fun _ => rfl
    rw [← state]
    exact Shows.zero full
  | succ count ih =>
    cases result : machine.attempt.result with
    | error fault =>
      refine ⟨[], machine, _, _, _, .nil machine, .halted (Nat.succ_pos count) result, ?_⟩
      intro full _ begun same
      have failed : full.attempt.result = .error fault := by
        rw [alone_congr same attempt fun _ => rfl, result]
      have state : full.poll.state = machine.poll.state :=
        alone_congr same (fun machine => machine.poll.state) fun _ => rfl
      rw [← state]
      exact Shows.of_error begun failed count
    | ok state =>
      obtain ⟨states, last, outcome, stopped, ending, made, ended, shows⟩ :=
        ih (machine.commit state.settled)
      refine ⟨state :: states, last, outcome, stopped, ending, .cons result made, ?_, ?_⟩
      · cases ended with
        | stopped all => exact .stopped (congrArg (· + 1) all)
        | halted fewer failed => exact .halted (Nat.succ_lt_succ fewer) failed
      · intro full calm begun same
        have succeeded : full.attempt.result = .ok state := by
          rw [alone_congr same attempt fun _ => rfl, result]
        have settled : full.cycle.machine.alone = (machine.commit state.settled).alone := by
          rw [alone_of_unheard_eq (cycle_of_calm calm succeeded).2.1]
          exact alone_congr same (fun machine => (machine.commit state.settled).alone) fun _ => rfl
        rw [List.flatMap_cons, List.append_assoc]
        exact Shows.cons calm begun succeeded
          (shows full.cycle.machine calm.cycle (full.begun_cycle.trans begun) settled)

end Machine

namespace Emulator

theorem session_shows {machine : Machine} {count : Nat} {outcome : Outcome} {stopped : State}
    {log : List Event} (calm : machine.Calm)
    (shows : machine.begin.Shows count outcome stopped log) :
    (session machine count).outcome = outcome ∧
      (∃ final, (session machine count).emulator = atHand final ∧ final.state = stopped) ∧
      (session machine count).events =
        (.start machine.begin.state :: log).flatMap machine.round := by
  obtain ⟨⟨final, handed, same⟩, ended, events⟩ := session_yields calm count
  have told := shows.events
  rw [Machine.round_begin] at told
  refine ⟨ended.trans shows.outcome, ⟨final, handed, ?_⟩, ?_⟩
  · rw [Machine.state_of_unheard_eq same]
    exact shows.state
  · rw [events, List.flatMap_cons, ← told, List.append_assoc]

end Emulator

namespace Machine

theorem step_tells (machine : Machine) (calm : machine.Calm) :
    match machine.begin.attempt.result with
    | .ok state => machine.step.outcome = .done ∧
        machine.step.trace.events = state.happenings.flatMap machine.round
    | .error fault => machine.step.outcome = .failed fault ∧ machine.step.trace.events = [] := by
  cases result : machine.begin.attempt.result with
  | ok state =>
    obtain ⟨done, -, events⟩ := cycle_of_calm (calm_begin.mpr calm) result
    rw [round_begin] at events
    exact ⟨done, events⟩
  | error fault =>
    refine ⟨?_, events_cycle_of_error result⟩
    rw [step, cycle_of_error result]

theorem received_step (machine : Machine) (calm : machine.Calm) {position : Nat}
    (present : position < machine.observers.length) :
    received machine.step.trace.events position =
      match machine.begin.attempt.result with
      | .ok state => state.happenings
      | .error _ => [] := by
  have tells := machine.step_tells calm
  cases result : machine.begin.attempt.result with
  | ok state =>
    rw [result] at tells
    rw [tells.2, machine.received_rounds _ present]
  | error fault =>
    rw [result] at tells
    rw [tells.2]
    rfl

theorem begin_attempt_withObservers (machine : Machine) (observers : List Observer) :
    (machine.withObservers observers).begin.attempt = machine.begin.attempt := by
  rw [begin_withObservers]
  rfl

end Machine

/-- A frame is shown while its flag is still up, and a sound after the flag has fallen and the
timers have ticked. -/
def Event.WellTimed : Event → Prop
  | frame state => state.drawFlag = true
  | sound state => state.drawFlag = false ∧ state.soundTimer ≠ 0
  | start _ | update _ | fault _ | stop _ => True

theorem State.wellTimed_happenings (state : State) :
    ∀ event ∈ state.happenings, event.WellTimed := by
  intro event happened
  obtain updated | shown := List.mem_cons.mp happened
  · rw [updated]
    exact True.intro
  · obtain framed | sounded := List.mem_append.mp shown
    · split at framed
      next raised =>
        rw [List.mem_singleton.mp framed]
        exact raised
      · contradiction
    · split at sounded
      · contradiction
      next running =>
        rw [List.mem_singleton.mp sounded]
        exact ⟨rfl, running⟩

theorem Machine.Ends.wellTimed {given made : Nat} {last : Machine} {outcome : Outcome}
    {stopped : State} {ending : List Event} (ends : last.Ends given made outcome stopped ending) :
    ∀ event ∈ ending, event.WellTimed := by
  cases ends <;> simp [Event.WellTimed]

namespace Emulator

theorem session_withObservers {machine : Machine} {count : Nat} {outcome : Outcome}
    {stopped : State} {log : List Event}
    (shows : ∀ full : Machine, full.Calm → full.begun → full.alone = machine.begin.alone →
      full.Shows count outcome stopped log)
    {observers : List Observer} (calm : ∀ observer ∈ observers, observer.Calm) :
    let full := machine.withObservers observers
    (session full count).outcome = outcome ∧
      (∃ final, (session full count).emulator = atHand final ∧ final.state = stopped) ∧
      (session full count).events =
        (.start machine.begin.state :: log).flatMap full.round := by
  intro full
  have calmFull : full.Calm := calm
  have same : full.begin.alone = machine.begin.alone := by
    rw [Machine.begin_withObservers, Machine.alone_withObservers]
  have state : full.begin.state = machine.begin.state := by
    rw [Machine.begin_withObservers]
    rfl
  rw [← state]
  exact session_shows calmFull (shows _ (Machine.calm_begin.mpr calmFull) full.begun_begin same)

/-- A session tells a log that hangs on its machine alone: that it starts, what each cycle makes,
perhaps of one fault, and that it stops. Everybody receives every entry in the order of the
subscriptions before anybody receives the next, hence each observer receives what it would
receive alone. A step tells what its cycle makes, or nothing if it fails. -/
theorem session_grammar (machine : Machine) (count : Nat) :
    (∃ states last outcome stopped ending, machine.begin.Makes states last ∧
      last.Ends count states.length outcome stopped ending ∧
      let log := .start machine.begin.state :: (states.flatMap State.happenings ++ ending)
      (∀ event ∈ log, event.WellTimed) ∧
      ∀ observers : List Observer, (∀ observer ∈ observers, observer.Calm) →
        let full := machine.withObservers observers
        (session full count).outcome = outcome ∧
        (∃ final, (session full count).emulator = atHand final ∧ final.state = stopped) ∧
        (session full count).events = log.flatMap full.round) ∧
    ∀ observers : List Observer, (∀ observer ∈ observers, observer.Calm) →
      let full := machine.withObservers observers
      (match machine.begin.attempt.result with
        | .ok state => full.step.outcome = .done ∧
            full.step.trace.events = state.happenings.flatMap full.round
        | .error fault => full.step.outcome = .failed fault ∧ full.step.trace.events = []) ∧
      ∀ position (present : position < observers.length),
        let only := machine.withObservers [observers[position]]
        received (session full count).events position = received (session only count).events 0 ∧
        received full.step.trace.events position = received only.step.trace.events 0 := by
  obtain ⟨states, last, outcome, stopped, ending, made, ended, shows⟩ :=
    Machine.exists_makes count machine.begin
  refine ⟨⟨states, last, outcome, stopped, ending, made, ended, ?_,
    fun _ => session_withObservers shows⟩, ?_⟩
  · intro event member
    obtain rfl | later := List.mem_cons.mp member
    · exact True.intro
    · obtain happened | final := List.mem_append.mp later
      · obtain ⟨state, -, own⟩ := List.mem_flatMap.mp happened
        exact state.wellTimed_happenings event own
      · exact ended.wellTimed event final
  · intro observers calm full
    refine ⟨?_, ?_⟩
    · have tells := Machine.step_tells full calm
      rwa [Machine.begin_attempt_withObservers] at tells
    · intro position present only
      have calmOnly : ∀ observer ∈ [observers[position]], observer.Calm := by
        intro observer member
        rw [List.mem_singleton.mp member]
        exact calm _ (List.getElem_mem present)
      refine ⟨?_, ?_⟩
      · rw [(session_withObservers shows calm).2.2, (session_withObservers shows calmOnly).2.2,
          Machine.received_rounds full _ present, Machine.received_rounds only _ Nat.one_pos]
      · rw [Machine.received_step full calm present,
          Machine.received_step only calmOnly Nat.one_pos,
          Machine.begin_attempt_withObservers, Machine.begin_attempt_withObservers]

theorem session_heard_by_two :
    let machine := ((Machine.create Config.default (.constant Keys.released) (.ofArray #[])).load
      [0x00, 0xE0, 0x00, 0xEE]).machine
    (session (machine.withObservers [.silent, .silent]) 3).outcome =
        .failed (.stackUnderflow 0x202) ∧
      received (session (machine.withObservers [.silent, .silent]) 3).events 1 =
        received (session (machine.withObservers [.silent]) 3).events 0 := by
  intro machine
  have calm : ∀ observer ∈ [Observer.silent, Observer.silent], observer.Calm := by
    intro observer member
    rw [List.eq_of_mem_replicate (n := 2) member]
    exact Observer.calm_silent
  obtain ⟨-, alike⟩ := session_grammar machine 3
  exact ⟨by decide +kernel, ((alike _ calm).2 1 (by decide)).1⟩

end Emulator
end ChipEight
