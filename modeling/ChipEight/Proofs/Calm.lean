import ChipEight.Proofs.History
import ChipEight.Proofs.Quiet

namespace ChipEight

/-- The session has not been broken off and its observers will not do so. -/
structure Session.Calm (session : Session) : Prop where
  machine : session.machine.Calm
  unbroken : ∀ cause, session.ending ≠ some (.panicked cause)

def Emulator.Calm : Emulator → Prop
  | atHand machine => machine.Calm
  | busy session => session.Calm
  | lost _ => False

def Request.Calm : Request → Prop
  | subscribe observer => observer.Calm
  | load _ | step | start _ | work _ | stop => True

namespace Machine

theorem calm_begin {machine : Machine} : machine.begin.Calm ↔ machine.Calm := by
  unfold begin
  split
  · exact Iff.rfl
  · exact Iff.rfl

theorem Calm.cycle {machine : Machine} (calm : machine.Calm) : machine.cycle.machine.Calm := by
  obtain ⟨fault, -, polled⟩ | ⟨state, -, same | same⟩ := machine.cycle_cases
  · rw [polled]
    exact calm
  · have calmCommitted : (machine.commit state).Calm := calm
    exact calm_of_unheard_eq same calmCommitted
  · have calmCommitted : (machine.commit state.settled).Calm := calm
    exact calm_of_unheard_eq same calmCommitted

theorem Calm.outcome_cycle {machine : Machine} (calm : machine.Calm) :
    machine.cycle.outcome = .done ∨ ∃ fault, machine.cycle.outcome = .failed fault := by
  cases result : machine.attempt.result with
  | ok state => exact .inl (cycle_of_calm calm result).1
  | error fault =>
    rw [cycle_of_error result]
    exact .inr ⟨fault, rfl⟩

theorem Calm.not_panicked {machine : Machine} (calm : machine.Calm) (cause : String) :
    machine.cycle.outcome ≠ .panicked cause := by
  obtain done | ⟨fault, failed⟩ := calm.outcome_cycle
  · simp [done]
  · simp [failed]

theorem Calm.subscribe {machine : Machine} (calm : machine.Calm) {observer : Observer}
    (own : observer.Calm) :
    Calm { machine with observers := machine.observers ++ [observer] } := by
  intro other member
  obtain before | last := List.mem_append.mp member
  · exact calm other before
  · rw [List.mem_singleton.mp last]
    exact own

theorem halt_of_calm {machine : Machine} (calm : machine.Calm) (fault : Fault) :
    (machine.halt fault).ending = some (.faulted fault) ∧
      (machine.halt fault).trace.events =
        machine.round (.fault fault) ++ machine.round (.stop machine.state) := by
  obtain ⟨ending, events, -⟩ := halt_of_quiet calm.quiet fault
  rw [List.flatMap_cons, List.flatMap_singleton] at events
  exact ⟨ending, events⟩

theorem Calm.halt {machine : Machine} (calm : machine.Calm) (fault : Fault) :
    (machine.halt fault).Calm where
  machine := calm_of_unheard_eq (unheard_halt machine fault) calm
  unbroken := by
    intro cause broken
    rw [(halt_of_calm calm fault).1] at broken
    cases broken

theorem Calm.run {machine : Machine} (calm : machine.Calm) (count : Nat) :
    (machine.run count).Calm := by
  induction count generalizing machine with
  | zero => exact ⟨calm, nofun⟩
  | succ count ih =>
    rw [Machine.run]
    obtain done | ⟨fault, failed⟩ := calm.outcome_cycle
    · simp only [done]
      exact ⟨(ih calm.cycle).machine, (ih calm.cycle).unbroken⟩
    · simp only [failed]
      exact ⟨(calm.cycle.halt fault).machine, (calm.cycle.halt fault).unbroken⟩

end Machine

namespace Session

theorem ending_start_of_calm {machine : Machine} (calm : machine.Calm) :
    (start machine).ending = none := by
  have calmBegun := Machine.calm_begin.mpr calm
  simp only [start, Machine.outcome_announce_of_calm calmBegun]

theorem calm_start {machine : Machine} (calm : machine.Calm) : (start machine).Calm := by
  have calmBegun := Machine.calm_begin.mpr calm
  refine ⟨Machine.calm_of_unheard_eq (unheard_start machine) calmBegun, ?_⟩
  rw [ending_start_of_calm calm]
  nofun

theorem Calm.work {session : Session} (calm : session.Calm) (count : Nat) :
    (session.work count).Calm := by
  unfold Session.work
  split
  · exact calm
  · exact ⟨(calm.machine.run count).machine, (calm.machine.run count).unbroken⟩

theorem Calm.outcome_finish {session : Session} (calm : session.Calm) :
    session.finish.outcome = .done ∨ ∃ fault, session.finish.outcome = .failed fault := by
  unfold finish
  split
  · next ending ended =>
    cases ending with
    | faulted fault => exact .inr ⟨fault, rfl⟩
    | panicked cause => exact absurd ended (calm.unbroken cause)
  · exact .inl (Machine.outcome_announce_of_calm calm.machine _)

end Session

namespace Emulator

theorem stop_of_unbroken {session : Session}
    (unbroken : ∀ cause, session.finish.outcome ≠ .panicked cause) :
    (busy session).stop =
      ⟨atHand session.finish.machine, session.finish.outcome, [.logged .stopped],
        some session.finish.trace⟩ := by
  unfold stop
  cases outcome : session.finish.outcome with
  | done | failed => simp only [outcome]
  | panicked cause => exact absurd outcome (unbroken cause)

theorem stop_of_calm {session : Session} (calm : session.Calm) :
    (busy session).stop =
      ⟨atHand session.finish.machine, session.finish.outcome, [.logged .stopped],
        some session.finish.trace⟩ := by
  apply stop_of_unbroken
  obtain done | ⟨fault, failed⟩ := calm.outcome_finish
  · rw [done]
    nofun
  · rw [failed]
    nofun

theorem Calm.answer {emulator : Emulator} (calm : emulator.Calm) {request : Request}
    (quiet : request.Calm) : (emulator.answer request).emulator.Calm := by
  cases emulator with
  | lost random => exact calm.elim
  | busy session =>
    cases request with
    | work count => exact Session.Calm.work calm count
    | stop =>
      rw [Emulator.answer, stop_of_calm calm]
      exact Machine.calm_of_unheard_eq session.unheard_finish (Session.Calm.machine calm)
    | subscribe | load | step | start => exact calm
  | atHand machine =>
    have calmMachine : machine.Calm := calm
    cases request with
    | subscribe observer => exact calmMachine.subscribe quiet
    | load rom =>
      obtain ⟨state, -, -, after⟩ | ⟨-, same⟩ := machine.load_cases rom
      · have answered : (machine.load rom).machine.Calm := by
          rw [after]
          exact calmMachine
        exact answered
      · have answered : (machine.load rom).machine.Calm := by
          rw [same]
          exact calmMachine
        exact answered
    | step => exact (Machine.calm_begin.mpr calmMachine).cycle
    | start refusal =>
      cases refusal with
      | some cause => exact calm
      | none => exact Session.calm_start calmMachine
    | work | stop => exact calm

theorem Calm.after {emulator : Emulator} (calm : emulator.Calm) {requests : List Request}
    (quiet : ∀ request ∈ requests, request.Calm) : (emulator.after requests).Calm := by
  induction requests generalizing emulator with
  | nil => exact calm
  | cons request rest ih =>
    have answered := calm.answer (quiet request List.mem_cons_self)
    exact ih answered fun other member => quiet other (List.mem_cons_of_mem _ member)

theorem calm_of_subscribed {emulator : Emulator} {requests : List Request}
    (quiet : ∀ request ∈ requests, request.Calm) {observer : Observer}
    (member : .subscribed observer ∈ emulator.history requests) : observer.Calm := by
  induction requests generalizing emulator with
  | nil => contradiction
  | cons request rest ih =>
    obtain here | later := List.mem_append.mp member
    · have own := quiet request List.mem_cons_self
      rw [subscribed_of_mem_deeds here] at own
      exact own
    · exact ih (fun other member => quiet other (List.mem_cons_of_mem _ member)) later

theorem Calm.exists_machine {emulator : Emulator} (calm : emulator.Calm) :
    ∃ machine, emulator.machine? = some machine ∧ machine.Calm := by
  cases emulator with
  | atHand machine => exact ⟨machine, rfl, calm⟩
  | busy session => exact ⟨session.machine, rfl, calm.machine⟩
  | lost random => exact calm.elim

end Emulator
end ChipEight
