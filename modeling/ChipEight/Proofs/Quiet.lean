import ChipEight.Proofs.Relays

/-! Observers that panic no more, whatever they did before. Calm ones never panic at all; quiet ones
need not be calm, since how they react may hang on how much they have heard. From now on
every round reaches all of them, so a cycle of such a machine tells all that there is to
tell. -/
namespace ChipEight

namespace Observer

/-- Panics no more, whatever it is told from now on. -/
def Quiet (observer : Observer) : Prop :=
  ∀ heard, observer.heard ≤ heard → ∀ event, (observer.react heard event).panic = none

theorem Calm.quiet {observer : Observer} (calm : observer.Calm) : observer.Quiet :=
  fun heard _ event => calm heard event

theorem Quiet.told {observer : Observer} (quiet : observer.Quiet) : observer.told.Quiet :=
  fun heard later => quiet heard (Nat.le_of_succ_le later)

end Observer

namespace Round

theorem tell_of_quiet (event : Event) (position : Nat) {observers : List Observer}
    (quiet : ∀ observer ∈ observers, observer.Quiet) :
    (tell event position observers).panic = none ∧
      ∀ observer ∈ (tell event position observers).observers, observer.Quiet := by
  induction observers generalizing position with
  | nil => exact ⟨rfl, nofun⟩
  | cons observer rest ih =>
    have first := quiet observer List.mem_cons_self
    have own : (observer.reaction event).panic = none := first observer.heard (Nat.le_refl _) event
    obtain ⟨unbroken, later⟩ :=
      ih (position + 1) fun other member => quiet other (List.mem_cons_of_mem _ member)
    simp only [tell, own]
    refine ⟨unbroken, ?_⟩
    intro other member
    obtain rfl | behind := List.mem_cons.mp member
    · exact first.told
    · exact later other behind

end Round

theorem deliver_of_quiet (log : List Event) {observers : List Observer}
    (quiet : ∀ observer ∈ observers, observer.Quiet) :
    (deliver log observers).broken = none ∧
      (deliver log observers).events = log.flatMap (calls observers.length) ∧
      ∀ observer ∈ (deliver log observers).observers, observer.Quiet := by
  induction log generalizing observers with
  | nil => exact ⟨rfl, rfl, quiet⟩
  | cons event rest ih =>
    obtain ⟨unbroken, later⟩ := Round.tell_of_quiet event 0 quiet
    obtain ⟨whole, events, still⟩ := ih later
    rw [Round.length_observers_tell] at events
    rw [deliver_cons_of_unbroken unbroken]
    refine ⟨whole, ?_, still⟩
    rw [Round.events_tell_of_unbroken unbroken, events, ← List.range_eq_range']
    rfl

namespace Machine

def Quiet (machine : Machine) : Prop := ∀ observer ∈ machine.observers, observer.Quiet

theorem Calm.quiet {machine : Machine} (calm : machine.Calm) : machine.Quiet :=
  fun observer member => (calm observer member).quiet

theorem quiet_begin {machine : Machine} (quiet : machine.Quiet) : machine.begin.Quiet := by
  unfold begin
  split
  · exact quiet
  · exact quiet

/-- The step is done, has told everybody these events, and changes nothing but the state. -/
structure Tells (machine : Machine) (step : Step) (log : List Event) (state : State) : Prop where
  done : step.outcome = .done
  events : step.trace.events = log.flatMap machine.round
  same : step.machine.unheard = unheard { machine with state }
  quiet : step.machine.Quiet

variable {machine : Machine}

theorem outcome_of_relays (quiet : machine.Quiet) {step : Step} {log : List Event} {ends : Outcome}
    (relays : step.Relays machine.observers log ends) :
    step.outcome = ends ∧ step.trace.events = log.flatMap machine.round ∧ step.machine.Quiet := by
  obtain ⟨unbroken, events, later⟩ := deliver_of_quiet log quiet
  refine ⟨relays.whole unbroken, relays.events.trans events, ?_⟩
  rw [Quiet, relays.heard]
  exact later

theorem tells_announce (quiet : machine.Quiet) (event : Event) :
    machine.Tells (machine.announce event) [event] machine.state := by
  obtain ⟨done, events, later⟩ := outcome_of_relays quiet (machine.relays_announce event)
  exact ⟨done, events, unheard_announce machine event, later⟩

theorem cycle_of_quiet {state : State} (quiet : machine.Quiet)
    (succeeded : machine.attempt.result = .ok state) :
    machine.cycle.outcome = .done ∧
      machine.cycle.trace.events = state.happenings.flatMap machine.round ∧
      machine.cycle.machine.unheard = (machine.commit state.settled).unheard ∧
      machine.cycle.machine.Quiet := by
  have committed : (machine.commit state).Quiet := quiet
  obtain ⟨done, events, later⟩ :=
    outcome_of_relays committed (delivers_cycle succeeded).toRelays
  refine ⟨done, events, ?_, later⟩
  rw [cycle_of_ok succeeded] at done ⊢
  obtain ⟨-, settled⟩ | ⟨cause, panicked, -⟩ := notify_cases (machine.commit state)
  · exact settled
  · exact absurd (done.symm.trans panicked) nofun

theorem cycle_of_calm {state : State} (calm : machine.Calm)
    (succeeded : machine.attempt.result = .ok state) :
    machine.cycle.outcome = .done ∧
      machine.cycle.machine.unheard = (machine.commit state.settled).unheard ∧
      machine.cycle.trace.events = state.happenings.flatMap machine.round := by
  obtain ⟨done, events, same, -⟩ := cycle_of_quiet calm.quiet succeeded
  exact ⟨done, same, events⟩

theorem state_cycle_of_calm {state : State} (calm : machine.Calm)
    (succeeded : machine.attempt.result = .ok state) :
    machine.cycle.machine.state = state.settled :=
  state_of_unheard_eq (cycle_of_calm calm succeeded).2.1

theorem halt_of_quiet (quiet : machine.Quiet) (fault : Fault) :
    (machine.halt fault).ending = some (.faulted fault) ∧
      (machine.halt fault).trace.events =
        [.fault fault, .stop machine.state].flatMap machine.round ∧
      (machine.halt fault).machine.unheard = machine.unheard ∧
      (machine.halt fault).machine.Quiet := by
  obtain ⟨failed, events, later⟩ := outcome_of_relays quiet (machine.relays_halt fault)
  exact ⟨Session.ending_of_finish failed, events, unheard_halt machine fault, later⟩

end Machine
end ChipEight
