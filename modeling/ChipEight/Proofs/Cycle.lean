import ChipEight.Proofs.Round

namespace ChipEight

namespace Step

theorem andThen_of_done {step : Step} (done : step.outcome = .done) (next : Machine → Step) :
    step.andThen next =
      ⟨(next step.machine).machine, (next step.machine).outcome,
        step.trace ++ (next step.machine).trace⟩ := by
  rw [andThen, done]

theorem andThen_of_failed {step : Step} {fault : Fault} (failed : step.outcome = .failed fault)
    (next : Machine → Step) : step.andThen next = step := by
  rw [andThen, failed]

theorem andThen_of_panicked {step : Step} {cause : String}
    (panicked : step.outcome = .panicked cause) (next : Machine → Step) :
    step.andThen next = step := by
  rw [andThen, panicked]

theorem andThen_assoc (step : Step) (first second : Machine → Step) :
    (step.andThen first).andThen second =
      step.andThen fun machine => (first machine).andThen second := by
  obtain ⟨machine, outcome, trace⟩ := step
  cases outcome with
  | done =>
    simp only [andThen_done]
    cases outcome : (first machine).outcome <;> simp only [andThen, outcome, List.append_assoc]
  | failed fault => rfl
  | panicked cause => rfl

theorem mem_events_andThen {step : Step} {next : Machine → Step} {told : Nat × Event}
    (heard : told ∈ (step.andThen next).trace.events) :
    told ∈ step.trace.events ∨ told ∈ (next step.machine).trace.events := by
  unfold andThen at heard
  split at heard
  · exact List.mem_append.mp (Trace.events_append .. ▸ heard)
  · exact .inl heard

end Step

def Event.isProgress : Event → Bool
  | update _ | frame _ | sound _ => true
  | start _ | fault _ | stop _ => false

namespace State

def shown (state : State) : State := { state with drawFlag := false }

/-- What a successful cycle leaves of the state that its instruction made. -/
def settled (state : State) : State := state.shown.tick

/-- What a successful cycle announces, given the state that its instruction made. -/
def happenings (state : State) : List Event :=
  .update state ::
    ((if state.drawFlag then [.frame state] else []) ++
      if state.settled.soundTimer = 0 then [] else [.sound state.settled])

theorem mem_happenings {state : State} {event : Event} (happened : event ∈ state.happenings) :
    event = .update state ∨ event = .frame state ∨ event = .sound state.settled := by
  unfold happenings at happened
  obtain updated | shown := List.mem_cons.mp happened
  · exact .inl updated
  · obtain framed | sounded := List.mem_append.mp shown
    · split at framed
      · exact .inr (.inl (List.mem_singleton.mp framed))
      · contradiction
    · split at sounded
      · contradiction
      · exact .inr (.inr (List.mem_singleton.mp sounded))

end State

namespace Machine

@[simp] theorem round_unheard (machine : Machine) (event : Event) :
    machine.unheard.round event = machine.round event := by
  simp only [round, unheard, List.length_map]

theorem outcome_announce (machine : Machine) (event : Event) :
    (machine.announce event).outcome = .done ∨
      ∃ cause, (machine.announce event).outcome = .panicked cause := by
  cases panicked : (Round.tell event 0 machine.observers).panic with
  | none => exact .inl (by simp only [announce, panicked])
  | some cause => exact .inr ⟨cause, by simp only [announce, panicked]⟩

theorem outcome_announce_of_calm {machine : Machine} (calm : machine.Calm) (event : Event) :
    (machine.announce event).outcome = .done := by
  simp only [announce, Round.panic_tell_of_calm event 0 calm]

theorem events_announce_of_done {machine : Machine} {event : Event}
    (done : (machine.announce event).outcome = .done) :
    (machine.announce event).trace.events = machine.round event := by
  have unbroken : (Round.tell event 0 machine.observers).panic = none := by
    simp only [announce] at done
    split at done
    · contradiction
    · assumption
  rw [announce, Round.events_tell_of_unbroken unbroken, round, List.range_eq_range']

theorem events_announce_of_calm {machine : Machine} (calm : machine.Calm) (event : Event) :
    (machine.announce event).trace.events = machine.round event :=
  events_announce_of_done (outcome_announce_of_calm calm event)

theorem filter_announce (machine : Machine) {event : Event} (keep : Event → Bool)
    (dropped : keep event = false) :
    (machine.announce event).trace.events.filter (fun told => keep told.2) = [] := by
  refine List.filter_eq_nil_iff.mpr fun told heard => ?_
  rw [Round.mem_events_tell heard, dropped]
  exact Bool.false_ne_true

theorem calm_of_unheard_eq {machine other : Machine} (same : machine.unheard = other.unheard)
    (calm : other.Calm) : machine.Calm := by
  rw [← calm_unheard, same]
  exact calm_unheard.mpr calm

theorem round_of_unheard_eq {machine other : Machine} (same : machine.unheard = other.unheard) :
    machine.round = other.round :=
  unheard_congr same Machine.round fun machine => funext machine.round_unheard

theorem state_of_unheard_eq {machine other : Machine} (same : machine.unheard = other.unheard) :
    machine.state = other.state :=
  unheard_congr same Machine.state fun _ => rfl

theorem begun_of_unheard_eq {machine other : Machine} (same : machine.unheard = other.unheard) :
    machine.begun = other.begun :=
  unheard_congr same Machine.begun fun _ => rfl

theorem length_observers_of_unheard_eq {machine other : Machine}
    (same : machine.unheard = other.unheard) :
    machine.observers.length = other.observers.length :=
  unheard_congr same (fun machine => machine.observers.length) fun _ => List.length_map _

def attempt (machine : Machine) : Attempt :=
  machine.poll.state.attempt machine.config.machineCode machine.random.current

/-- The machine with its keys polled and `state` in place of its own, the random byte gone
if the next cycle uses it up. -/
def commit (machine : Machine) (state : State) : Machine :=
  { machine.poll with
    state
    random := if machine.attempt.tookByte then machine.random.advance else machine.random }

theorem advance_poll (machine : Machine) :
    machine.poll.advance =
      match machine.attempt.result with
      | .error fault => ⟨machine.poll, .failed fault, machine.attempt.records.map .logged⟩
      | .ok state => ⟨machine.commit state, .done, machine.attempt.records.map .logged⟩ := rfl

theorem tick_cases (machine : Machine) :
    machine.tick.machine.unheard = unheard { machine with state := machine.state.tick } ∧
      (machine.tick.outcome = .done ∨ ∃ cause, machine.tick.outcome = .panicked cause) := by
  unfold tick
  dsimp only
  split
  · exact ⟨rfl, .inl rfl⟩
  · exact ⟨unheard_announce _ _, outcome_announce _ _⟩

theorem cycle_of_error {machine : Machine} {fault : Fault}
    (failed : machine.attempt.result = .error fault) :
    machine.cycle = ⟨machine.poll, .failed fault, machine.attempt.records.map .logged⟩ := by
  rw [cycle, advance_poll, failed]
  rfl

def notify (machine : Machine) : Step :=
  (machine.announce (.update machine.state)).andThen fun told => told.showFrame.andThen tick

theorem cycle_of_ok {machine : Machine} {state : State}
    (succeeded : machine.attempt.result = .ok state) :
    machine.cycle =
      ⟨(machine.commit state).notify.machine, (machine.commit state).notify.outcome,
        machine.attempt.records.map .logged ++ (machine.commit state).notify.trace⟩ := by
  rw [cycle, advance_poll, succeeded, Step.andThen_assoc, Step.andThen_assoc]
  rfl

theorem events_cycle_of_error {machine : Machine} {fault : Fault}
    (failed : machine.attempt.result = .error fault) : machine.cycle.trace.events = [] := by
  rw [cycle_of_error failed]
  exact Trace.events_logged _

theorem unheard_andThen (step : Step) {next : Machine → Step}
    (same : ∀ machine, (next machine).machine.unheard = machine.unheard) :
    (step.andThen next).machine.unheard = step.machine.unheard := by
  unfold Step.andThen
  split
  · exact same step.machine
  · rfl

@[simp] theorem unheard_halt (machine : Machine) (fault : Fault) :
    (machine.halt fault).machine.unheard = machine.unheard := by
  unfold halt
  rw [unheard_andThen _ fun machine => unheard_announce machine _,
    unheard_andThen _ fun machine => unheard_announce machine _]
  rfl

end Machine

namespace Session

theorem ending_of_finish {session : Session} {fault : Fault}
    (failed : session.finish.outcome = .failed fault) :
    session.ending = some (.faulted fault) := by
  unfold finish at failed
  split at failed
  · next ending ended =>
    cases ending with
    | faulted cause =>
      cases failed
      exact ended
    | panicked cause => contradiction
  · obtain done | ⟨cause, panicked⟩ :=
      session.machine.outcome_announce (.stop session.machine.state)
    · exact absurd (done.symm.trans failed) nofun
    · exact absurd (panicked.symm.trans failed) nofun

end Session

end ChipEight
