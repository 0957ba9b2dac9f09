import ChipEight.Proofs.Calm

/-! Sessions against single steps. A worker begins the machine once and then cycles it, a step
begins it every time; since a machine that has begun stays so, both come to the same. What
a worker adds is a round when it starts, one when it halts and one when it stops. -/
namespace ChipEight

/-- The two steps differ at most in what their observers have heard and in what was logged. -/
structure Step.Alike (step other : Step) : Prop where
  machine : step.machine.unheard = other.machine.unheard
  outcome : step.outcome = other.outcome
  events : step.trace.events = other.trace.events

namespace Machine

private theorem attempt_of_unheard_eq {machine other : Machine}
    (same : machine.unheard = other.unheard) :
    machine.attempt = other.attempt :=
  unheard_congr same Machine.attempt fun _ => rfl

private theorem commit_of_unheard_eq {machine other : Machine}
    (same : machine.unheard = other.unheard)
    (state : State) : (machine.commit state).unheard = (other.commit state).unheard :=
  congrArg (fun machine : Machine => machine.commit state) same

theorem begin_unheard (machine : Machine) : machine.unheard.begin = machine.begin.unheard := by
  obtain ⟨state, keypad, random, observers, config, begun⟩ := machine
  cases begun with
  | true => rfl
  | false => rfl

theorem begin_of_unheard_eq {machine other : Machine} (same : machine.unheard = other.unheard) :
    machine.begin.unheard = other.begin.unheard := by
  rw [← begin_unheard, same, begin_unheard]

theorem begin_of_begun {machine : Machine} (begun : machine.begun) : machine.begin = machine := by
  rw [begin, if_pos begun]

theorem begin_of_not_begun {machine : Machine} (fresh : machine.begun = false) :
    machine.begin = { machine with
      state := { machine.state with pc := State.programStart }, begun := true } := by
  rw [Machine.begin, fresh]
  rfl

theorem round_begin (machine : Machine) : machine.begin.round = machine.round := by
  funext event
  unfold begin
  split
  · rfl
  · rfl

theorem step_of_begun {machine : Machine} (begun : machine.begun) :
    machine.step = machine.cycle := by
  rw [step, begin_of_begun begun]

theorem cycle_alike {machine other : Machine} (same : machine.unheard = other.unheard)
    (calm : machine.Calm) : machine.cycle.Alike other.cycle := by
  have attempt := attempt_of_unheard_eq same
  cases result : machine.attempt.result with
  | error fault =>
    rw [cycle_of_error result, cycle_of_error (attempt ▸ result), attempt]
    exact ⟨congrArg poll same, rfl, rfl⟩
  | ok state =>
    obtain ⟨done, settled, events⟩ := cycle_of_calm calm result
    obtain ⟨otherDone, otherSettled, otherEvents⟩ :=
      cycle_of_calm (calm_of_unheard_eq same.symm calm) (attempt ▸ result)
    refine ⟨?_, done.trans otherDone.symm, ?_⟩
    · rw [settled, otherSettled, commit_of_unheard_eq same]
    · rw [events, otherEvents, round_of_unheard_eq same]

theorem step_alike {machine other : Machine}
    (same : machine.begin.unheard = other.begin.unheard) (calm : machine.Calm) :
    machine.step.Alike other.step :=
  cycle_alike same (calm_begin.mpr calm)

theorem begun_step (machine : Machine) : machine.step.machine.begun = true :=
  machine.begin.begun_cycle.trans machine.begun_begin

theorem Calm.step {machine : Machine} (calm : machine.Calm) : machine.step.machine.Calm :=
  (calm_begin.mpr calm).cycle

def steps : Nat → Machine → Step
  | 0, machine => machine.idle
  | count + 1, machine => machine.step.andThen (steps count)

theorem steps_begin (machine : Machine) (count : Nat) :
    machine.begin.steps (count + 1) = machine.steps (count + 1) := by
  rw [steps, steps, step, step, begin_begin]

end Machine

/-- What a worker tells once its cycles are over: of a fault, if one has halted it, and then
that it stops. -/
def Step.farewell (step : Step) : List (Nat × Event) :=
  (match step.outcome with
    | .failed fault => step.machine.round (.fault fault)
    | .done | .panicked _ => []) ++
    step.machine.round (.stop step.machine.state)

namespace Session

theorem finish_run {machine other : Machine} (same : machine.unheard = other.unheard)
    (calm : machine.Calm) (begun : machine.begun) (count : Nat) (trace : Trace) :
    let finished := Session.finish
      { machine.run count with trace := trace ++ (machine.run count).trace }
    let stepped := other.steps count
    finished.machine.unheard = stepped.machine.unheard ∧ finished.outcome = stepped.outcome ∧
      finished.trace.events = trace.events ++ stepped.trace.events ++ stepped.farewell := by
  -- The trace is that of the cycles already behind; it grows by one cycle in every step.
  induction count generalizing machine other trace with
  | zero =>
    have told := Machine.events_announce_of_calm calm (.stop machine.state)
    refine ⟨?_, Machine.outcome_announce_of_calm calm _, ?_⟩
    · exact (Machine.unheard_announce machine _).trans same
    · rw [Machine.round_of_unheard_eq same, Machine.state_of_unheard_eq same] at told
      simp only [Machine.run, finish, Machine.state_of_unheard_eq same, List.append_nil,
        Trace.events_append, told]
      rw [Machine.steps, Machine.idle, Trace.events_nil, List.append_nil]
      rfl
  | succ count ih =>
    obtain ⟨cycled, outcome, events⟩ := Machine.cycle_alike same calm
    have otherBegun := (Machine.begun_of_unheard_eq same).symm.trans begun
    have stillBegun := machine.begun_cycle.trans begun
    rw [Machine.steps, Machine.run, Machine.step_of_begun otherBegun]
    obtain done | ⟨fault, failed⟩ := calm.outcome_cycle
    · obtain ⟨final, ended, told⟩ := ih cycled calm.cycle stillBegun (trace ++ machine.cycle.trace)
      rw [Trace.events_append, events] at told
      rw [Step.andThen_of_done (outcome.symm.trans done)]
      simp only [done, ← List.append_assoc]
      refine ⟨final, ended, ?_⟩
      rw [told, Trace.events_append]
      simp only [List.append_assoc]
      rfl
    · obtain ⟨ending, farewell⟩ := Machine.halt_of_calm calm.cycle fault
      have otherFailed := outcome.symm.trans failed
      rw [Step.andThen_of_failed otherFailed]
      simp only [failed, finish, ending]
      refine ⟨?_, otherFailed.symm, ?_⟩
      · exact (Machine.unheard_halt _ fault).trans cycled
      · rw [Trace.events_append, Trace.events_append, farewell, events, Step.farewell, otherFailed,
          Machine.state_of_unheard_eq cycled, Machine.round_of_unheard_eq cycled,
          List.append_assoc]

end Session

def Reply.events (reply : Reply) : List (Nat × Event) :=
  (reply.worker.getD []).events ++ reply.trace.events

namespace Emulator

def session (machine : Machine) (count : Nat) : Reply :=
  (((atHand machine).start none).emulator.work count).stop

/-- The session leaves the machine of a step that was taken from `machine`, and tells what the step
told between its own rounds. -/
structure SessionYields (machine : Machine) (count : Nat) (step : Step) : Prop where
  handed : ∃ final, (session machine count).emulator = atHand final ∧
    final.unheard = step.machine.unheard
  outcome : (session machine count).outcome = step.outcome
  events : (session machine count).events =
    machine.round (.start machine.begin.state) ++ step.trace.events ++ step.farewell

theorem session_yields {machine : Machine} (calm : machine.Calm) (count : Nat) :
    SessionYields machine count (machine.begin.steps count) := by
  have calmBegun := Machine.calm_begin.mpr calm
  have started := Session.calm_start calm
  have same := Session.unheard_start machine
  have begun := (Machine.begun_of_unheard_eq same).trans machine.begun_begin
  have announced : (Session.start machine).trace.events =
      machine.begin.round (.start machine.begin.state) :=
    Machine.events_announce_of_calm calmBegun _
  have running := Session.ending_start_of_calm calm
  have worked : (Session.start machine).work count =
      { (Session.start machine).machine.run count with
        trace := (Session.start machine).trace ++
          ((Session.start machine).machine.run count).trace } := by
    simp only [Session.work, running]
  have stopped := stop_of_calm (started.work count)
  obtain ⟨final, outcome, events⟩ :=
    Session.finish_run same started.machine begun count (Session.start machine).trace
  rw [← worked] at final outcome events
  rw [announced, Machine.round_begin] at events
  have reply : session machine count = (busy ((Session.start machine).work count)).stop := rfl
  rw [stopped] at reply
  refine ⟨⟨_, congrArg Reply.emulator reply, final⟩, ?_, ?_⟩
  · rw [reply]
    exact outcome
  · rw [reply, ← events]
    exact List.append_nil _

end Emulator

end ChipEight
