import ChipEight.Proofs.Cuts
import ChipEight.Proofs.Faults

namespace ChipEight

def Deed.told : Deed → List (Nat × Event)
  | tried machine => machine.cycle.trace.events
  | subscribed _ | loaded _ | begun => []

theorem Machine.events_load (machine : Machine) (rom : List UInt8) :
    (machine.load rom).trace.events = [] := by
  unfold load
  split
  · rfl
  · split <;> rfl

theorem Machine.progress_halt (machine : Machine) (fault : Fault) :
    progress (machine.halt fault).trace.events = [] := by
  refine List.filter_eq_nil_iff.mpr fun told heard => ?_
  rw [isProgress_halt heard]
  exact Bool.false_ne_true

theorem Machine.progress_run (machine : Machine) (count : Nat) :
    progress (machine.run count).trace.events =
      ((machine.tries count).map Deed.tried).flatMap Deed.told := by
  induction count generalizing machine with
  | zero => rfl
  | succ count ih =>
    rw [run, tries, Trace.events_append, progress_append, progress_cycle, List.map_cons,
      List.flatMap_cons]
    congr 1
    cases machine.cycle.outcome with
    | done => exact ih machine.cycle.machine
    | failed fault => exact progress_halt machine.cycle.machine fault
    | panicked cause => rfl

theorem Session.progress_finish (session : Session) :
    progress session.finish.trace.events = progress session.trace.events := by
  unfold finish
  split
  · rfl
  · have stopped : progress
        (session.machine.announce (.stop session.machine.state)).trace.events = [] :=
      session.machine.filter_announce Event.isProgress rfl
    rw [Trace.events_append, progress_append, stopped, List.append_nil]

namespace Emulator

/-- What a worker has told that no reply has brought out yet. -/
def unreported : Emulator → List (Nat × Event)
  | busy session => session.trace.events
  | atHand _ | lost _ => []

private theorem progress_work (session : Session) (count : Nat) :
    progress (session.work count).trace.events =
      progress session.trace.events ++
        ((busy session).deeds (.work count)).flatMap Deed.told := by
  rw [deeds]
  cases ending : session.ending with
  | some ended =>
    simp only [Session.work, Session.tries, ending]
    exact (List.append_nil _).symm
  | none =>
    simp only [Session.work, Session.tries, ending]
    rw [Trace.events_append, progress_append, Machine.progress_run]

private theorem progress_stop (session : Session) :
    progress (busy session).stop.events ++ progress (busy session).stop.emulator.unreported =
      progress session.trace.events := by
  rw [← session.progress_finish]
  simp only [stop]
  split
  · simp only [Reply.events, unreported, Option.getD_some]
    rw [Trace.events_nil, List.append_nil]
    exact List.append_nil _
  · simp only [Reply.events, unreported, Option.getD_some]
    exact (List.append_nil _).trans (congrArg progress (List.append_nil _))

theorem progress_answer (emulator : Emulator) (request : Request) :
    progress emulator.unreported ++ (emulator.deeds request).flatMap Deed.told =
      progress (emulator.answer request).events ++
        progress (emulator.answer request).emulator.unreported := by
  cases emulator with
  | lost random => cases request <;> rfl
  | busy session =>
    cases request with
    | work count => exact (progress_work session count).symm
    | stop => exact (List.append_nil _).trans (progress_stop session).symm
    | subscribe | load | step | start => exact List.append_nil _
  | atHand machine =>
    cases request with
    | load rom =>
      have events : ((atHand machine).answer (.load rom)).events = [] := machine.events_load rom
      rw [events, deeds]
      split <;> rfl
    | step =>
      have events : ((atHand machine).answer .step).events = machine.begin.cycle.trace.events := rfl
      rw [events, machine.begin.progress_cycle]
      rfl
    | start refusal =>
      cases refusal with
      | some cause => rfl
      | none => exact (machine.begin.filter_announce Event.isProgress rfl).symm
    | subscribe | work | stop => rfl

theorem progress_told (emulator : Emulator) (requests : List Request) :
    progress emulator.unreported ++ (emulator.history requests).flatMap Deed.told =
      progress (emulator.told requests) ++ progress (emulator.after requests).unreported := by
  induction requests generalizing emulator with
  | nil => exact List.append_nil _
  | cons request rest ih =>
    rw [history, told, List.flatMap_append, ← List.append_assoc, progress_answer, progress_append,
      List.append_assoc, ih, List.append_assoc]
    rfl

/-- Since the machine was at hand, what its cycles tell is the progress told by now. -/
theorem told_history (machine : Machine) (requests : List Request) :
    ((atHand machine).history requests).flatMap Deed.told =
      progress ((atHand machine).told requests ++ ((atHand machine).after requests).unreported) :=
  ((atHand machine).progress_told requests).trans (progress_append ..).symm

end Emulator
end ChipEight
