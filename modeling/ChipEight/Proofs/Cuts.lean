import ChipEight.Proofs.Sessions

/-! Cycles spent in different ways. Steps and sessions can be mixed at will: what becomes of the
machine and what its program does hang only on how many cycles are tried, also when some
of them fail. -/
namespace ChipEight

namespace Machine

def persist : Nat → Machine → Step
  | 0, machine => machine.idle
  | count + 1, machine =>
    let later := machine.step.machine.persist count
    { later with trace := machine.step.trace ++ later.trace }

theorem persist_add (machine : Machine) (first second : Nat) :
    (machine.persist (first + second)).machine =
        ((machine.persist first).machine.persist second).machine ∧
      (machine.persist (first + second)).trace =
        (machine.persist first).trace ++
          ((machine.persist first).machine.persist second).trace := by
  induction first generalizing machine with
  | zero =>
    rw [Nat.zero_add]
    exact ⟨rfl, rfl⟩
  | succ first ih =>
    obtain ⟨final, trace⟩ := ih machine.step.machine
    rw [Nat.succ_add]
    simp only [persist]
    refine ⟨final, ?_⟩
    rw [trace, List.append_assoc]

theorem steps_eq_persist {machine : Machine} (begun : machine.begun) (count : Nat) :
    (machine.steps count).machine = (machine.persist (machine.tries count).length).machine ∧
      (machine.steps count).trace = (machine.persist (machine.tries count).length).trace := by
  induction count generalizing machine with
  | zero => exact ⟨rfl, rfl⟩
  | succ count ih =>
    obtain ⟨final, trace⟩ := ih (machine.begun_cycle.trans begun)
    rw [steps, tries, step_of_begun begun]
    cases outcome : machine.cycle.outcome with
    | done =>
      rw [Step.andThen_of_done outcome, List.length_cons, persist, step_of_begun begun]
      refine ⟨final, ?_⟩
      rw [trace]
    | failed fault =>
      rw [Step.andThen_of_failed outcome, List.length_singleton, persist, step_of_begun begun]
      exact ⟨rfl, (List.append_nil _).symm⟩
    | panicked cause =>
      rw [Step.andThen_of_panicked outcome, List.length_singleton, persist, step_of_begun begun]
      exact ⟨rfl, (List.append_nil _).symm⟩

private theorem length_tries_of_unheard_eq {machine other : Machine}
    (same : machine.unheard = other.unheard) (calm : machine.Calm) (count : Nat) :
    (machine.tries count).length = (other.tries count).length := by
  induction count generalizing machine other with
  | zero => rfl
  | succ count ih =>
    obtain ⟨cycled, outcome, -⟩ := cycle_alike same calm
    have later := ih cycled calm.cycle
    rw [tries, tries, ← outcome]
    cases machine.cycle.outcome with
    | done => rw [List.length_cons, List.length_cons, later]
    | failed | panicked => rfl

theorem persist_alike {machine other : Machine}
    (same : machine.begin.unheard = other.begin.unheard) (calm : machine.Calm) (count : Nat) :
    (machine.persist count).machine.begin.unheard =
        (other.persist count).machine.begin.unheard ∧
      (machine.persist count).trace.events = (other.persist count).trace.events := by
  induction count generalizing machine other with
  | zero => exact ⟨same, rfl⟩
  | succ count ih =>
    obtain ⟨stepped, -, events⟩ := step_alike same calm
    obtain ⟨final, later⟩ := ih (begin_of_unheard_eq stepped) calm.step
    refine ⟨final, ?_⟩
    simp only [persist, Trace.events_append]
    rw [events, later]

/-- `final` is what so many single cycles make of `machine`, up to a beginning that the next
cycle would make up for, and `events` is what they told. -/
structure Through (machine : Machine) (count : Nat) (final : Machine)
    (events : List (Nat × Event)) : Prop where
  resumes : final.begin.unheard = (machine.persist count).machine.begin.unheard
  begun : machine.begun = true ∨ 1 ≤ count → final.begun = true
  events : events = (machine.persist count).trace.events

private theorem begun_persist {machine : Machine} (begun : machine.begun) (count : Nat) :
    (machine.persist count).machine.begun := by
  induction count generalizing machine with
  | zero => exact begun
  | succ count ih => exact ih machine.begun_step

theorem Through.trans {machine middle final : Machine} {first second : Nat}
    {earlier later : List (Nat × Event)} (calm : middle.Calm)
    (front : machine.Through first middle earlier) (back : middle.Through second final later) :
    machine.Through (first + second) final (earlier ++ later) := by
  obtain ⟨total, trace⟩ := machine.persist_add first second
  obtain ⟨alike, told⟩ := persist_alike front.resumes calm second
  refine ⟨?_, ?_, ?_⟩
  · rw [total, back.resumes, alike]
  · intro reason
    apply back.begun
    by_cases more : 1 ≤ second
    · exact .inr more
    · exact .inl (front.begun (reason.imp_right (by omega)))
  · rw [trace, Trace.events_append, front.events, back.events, told]

end Machine

/-- Events without those that only tell of a worker. -/
def progress (events : List (Nat × Event)) : List (Nat × Event) :=
  events.filter fun told => told.2.isProgress

theorem progress_append (first second : List (Nat × Event)) :
    progress (first ++ second) = progress first ++ progress second :=
  List.filter_append ..

theorem progress_round (machine : Machine) (event : Event) :
    progress (machine.round event) = if event.isProgress then machine.round event else [] := by
  have everywhere : ∀ told ∈ machine.round event, told.2 = event := by
    intro told member
    obtain ⟨position, -, rfl⟩ := List.mem_map.mp member
    rfl
  cases kind : event.isProgress with
  | true =>
    refine List.filter_eq_self.mpr fun told member => ?_
    rw [everywhere told member]
    exact kind
  | false =>
    refine List.filter_eq_nil_iff.mpr fun told member => ?_
    rw [everywhere told member, kind]
    exact Bool.false_ne_true

theorem Step.progress_farewell (step : Step) : progress step.farewell = [] := by
  unfold farewell
  rw [progress_append, progress_round]
  cases step.outcome with
  | failed fault =>
    simp only [progress_round]
    rfl
  | done | panicked => rfl

namespace Machine

private theorem isProgress_cycle {machine : Machine} {told : Nat × Event}
    (heard : told ∈ machine.cycle.trace.events) : told.2.isProgress = true := by
  obtain earlier | sounded := Step.mem_events_andThen heard
  · obtain earlier | framed := Step.mem_events_andThen earlier
    · obtain logged | updated := Step.mem_events_andThen earlier
      · unfold advance at logged
        dsimp only at logged
        split at logged <;> rw [Trace.events_logged] at logged <;> contradiction
      · rw [Round.mem_events_tell updated]
        rfl
    · unfold showFrame at framed
      split at framed
      · obtain told | lowered := Step.mem_events_andThen framed
        · rw [Round.mem_events_tell told]
          rfl
        · contradiction
      · contradiction
  · unfold tick at sounded
    dsimp only at sounded
    split at sounded
    · contradiction
    · rw [Round.mem_events_tell sounded]
      rfl

theorem progress_cycle (machine : Machine) :
    progress machine.cycle.trace.events = machine.cycle.trace.events :=
  List.filter_eq_self.mpr fun _ => isProgress_cycle

private theorem progress_persist (machine : Machine) (count : Nat) :
    progress (machine.persist count).trace.events = (machine.persist count).trace.events := by
  induction count generalizing machine with
  | zero => rfl
  | succ count ih =>
    simp only [persist, Trace.events_append]
    rw [progress_append, step, progress_cycle, ih]

end Machine

inductive Leg where
  | step
  | session (count : Nat)

def Leg.requests : Leg → List Request
  | step => [.step]
  | session count => [.start none, .work count, .stop]

theorem Leg.quiet (leg : Leg) : ∀ request ∈ leg.requests, request.Calm := by
  cases leg <;> simp [requests, Request.Calm]

namespace Deed

def isTry : Deed → Bool
  | tried _ => true
  | subscribed _ | loaded _ | begun => false

end Deed

namespace Emulator

def told (emulator : Emulator) : List Request → List (Nat × Event)
  | [] => []
  | request :: rest =>
    (emulator.answer request).events ++ (emulator.answer request).emulator.told rest

def cycles (emulator : Emulator) (requests : List Request) : Nat :=
  (emulator.history requests).countP Deed.isTry

theorem told_append (emulator : Emulator) (first second : List Request) :
    emulator.told (first ++ second) =
      emulator.told first ++ (emulator.after first).told second := by
  induction first generalizing emulator with
  | nil => rfl
  | cons request rest ih =>
    rw [List.cons_append, told, told, ih, List.append_assoc]
    rfl

theorem cycles_append (emulator : Emulator) (first second : List Request) :
    emulator.cycles (first ++ second) =
      emulator.cycles first + (emulator.after first).cycles second := by
  rw [cycles, history_append, List.countP_append]
  rfl

private theorem through_step (machine : Machine) :
    machine.Through ((atHand machine).cycles Leg.step.requests) machine.step.machine
      (progress ((atHand machine).told Leg.step.requests)) := by
  have told : (atHand machine).told Leg.step.requests = machine.step.trace.events :=
    List.append_nil _
  have persisted : (machine.persist 1).trace = machine.step.trace := List.append_nil _
  refine ⟨rfl, fun _ => machine.begun_step, ?_⟩
  rw [told, Machine.step, Machine.progress_cycle]
  exact congrArg Trace.events persisted.symm

private theorem through_session {machine : Machine} (calm : machine.Calm) (count : Nat) :
    ∃ final, (session machine count).emulator = atHand final ∧
      machine.Through ((atHand machine).cycles (Leg.session count).requests) final
        (progress ((atHand machine).told (Leg.session count).requests)) := by
  have calmBegun := Machine.calm_begin.mpr calm
  obtain ⟨⟨final, handed, same⟩, -, events⟩ := session_yields calm count
  obtain ⟨persisted, trace⟩ := Machine.steps_eq_persist machine.begun_begin count
  have running := Session.ending_start_of_calm calm
  have cycles : (atHand machine).cycles (Leg.session count).requests =
      (machine.begin.tries count).length := by
    have history : (atHand machine).history (Leg.session count).requests =
        .begun :: ((Session.start machine).tries count).map .tried :=
      congrArg (List.cons Deed.begun) (List.append_nil _)
    have tries : (Session.start machine).tries count =
        (Session.start machine).machine.tries count := by
      simp only [Session.tries, running]
    rw [Emulator.cycles, history, tries, ← Machine.length_tries_of_unheard_eq
      (Session.unheard_start machine) (Session.calm_start calm).machine count]
    simp [List.countP_map, Function.comp_def, Deed.isTry]
  have told : (atHand machine).told (Leg.session count).requests =
      (session machine count).events :=
    List.append_nil _
  rw [cycles, told, events]
  generalize (machine.begin.tries count).length = tried at persisted trace
  have begun : machine.begin.begin.unheard = machine.begin.unheard := by
    rw [Machine.begin_begin]
  obtain ⟨alike, toldAlike⟩ := Machine.persist_alike begun calmBegun tried
  rw [persisted] at same
  refine ⟨final, handed, ?_, ?_, ?_⟩
  · rw [Machine.begin_of_unheard_eq same, alike]
  · intro _
    rw [Machine.begun_of_unheard_eq same]
    exact Machine.begun_persist machine.begun_begin tried
  · rw [progress_append, progress_append, Step.progress_farewell, progress_round, trace,
      Machine.progress_persist, toldAlike]
    exact List.append_nil _

theorem through_leg {machine : Machine} (calm : machine.Calm) (leg : Leg) :
    ∃ final, (atHand machine).after leg.requests = atHand final ∧
      machine.Through ((atHand machine).cycles leg.requests) final
        (progress ((atHand machine).told leg.requests)) := by
  cases leg with
  | step => exact ⟨machine.step.machine, rfl, through_step machine⟩
  | session count => exact through_session calm count

theorem through_legs {machine : Machine} (calm : machine.Calm) (legs : List Leg) :
    ∃ final, (atHand machine).after (legs.flatMap Leg.requests) = atHand final ∧
      machine.Through ((atHand machine).cycles (legs.flatMap Leg.requests)) final
        (progress ((atHand machine).told (legs.flatMap Leg.requests))) := by
  induction legs generalizing machine with
  | nil => exact ⟨machine, rfl, rfl, fun reason => reason.elim id (by simp [cycles, history]), rfl⟩
  | cons leg rest ih =>
    obtain ⟨middle, reached, front⟩ := through_leg calm leg
    have calmMiddle : (atHand middle).Calm := by
      have present : (atHand machine).Calm := calm
      rw [← reached]
      exact present.after leg.quiet
    obtain ⟨final, ended, back⟩ := ih calmMiddle
    refine ⟨final, ?_, ?_⟩
    · rw [List.flatMap_cons, after_append, reached, ended]
    · rw [List.flatMap_cons, cycles_append, told_append, progress_append, reached]
      exact front.trans calmMiddle back

/-- With calm observers a session of some cycles yields what single steps up to the first failure
yield, and one of no cycles only begins the machine. However the same number of cycles
is spent on steps and sessions, the machine and the progress told of it are the same. -/
theorem sessions_refine_steps {machine : Machine} (calm : machine.Calm) :
    (∀ count, 1 ≤ count → SessionYields machine count (machine.steps count)) ∧
      SessionYields machine 0 machine.begin.idle ∧
      ∀ first second : List Leg,
        1 ≤ (atHand machine).cycles (first.flatMap Leg.requests) →
        (atHand machine).cycles (first.flatMap Leg.requests) =
          (atHand machine).cycles (second.flatMap Leg.requests) →
        ∃ final other, (atHand machine).after (first.flatMap Leg.requests) = atHand final ∧
          (atHand machine).after (second.flatMap Leg.requests) = atHand other ∧
          final.unheard = other.unheard ∧
          progress ((atHand machine).told (first.flatMap Leg.requests)) =
            progress ((atHand machine).told (second.flatMap Leg.requests)) := by
  refine ⟨?_, session_yields calm 0, ?_⟩
  · intro count some
    obtain ⟨fewer, rfl⟩ := Nat.exists_eq_add_of_le' some
    rw [← Machine.steps_begin]
    exact session_yields calm (fewer + 1)
  · intro first second some same
    obtain ⟨final, ended, through⟩ := through_legs calm first
    obtain ⟨other, otherEnded, otherThrough⟩ := through_legs calm second
    have begun := through.begun (.inr some)
    have otherBegun := otherThrough.begun (.inr (same ▸ some))
    have resumes := through.resumes
    rw [same, ← otherThrough.resumes, Machine.begin_of_begun begun,
      Machine.begin_of_begun otherBegun] at resumes
    refine ⟨final, other, ended, otherEnded, resumes, ?_⟩
    rw [through.events, otherThrough.events, same]

/-- A program that sounds, draws, and runs into what is no instruction: a session with time for
more cycles than that, against single steps. -/
theorem faulting_session_against_steps :
    let rom : List UInt8 := [0x60, 0x2A, 0xF0, 0x18, 0x00, 0xE0, 0xFF, 0xFF]
    let loader :=
      { Machine.create Config.default (.constant Keys.released) (.ofArray #[]) with
        observers := [.silent, .silent] }
    let machine := (loader.load rom).machine
    let steps := [.step, .step, .step, .step]
    let session := [.start none, .work 9, .stop]
    ∃ final other, (atHand machine).after steps = atHand final ∧
      (atHand machine).after session = atHand other ∧ final.unheard = other.unheard ∧
      progress ((atHand machine).told steps) = progress ((atHand machine).told session) ∧
      (progress ((atHand machine).told session)).length = 12 ∧
      ((atHand machine).after [.start none, .work 9]).stop.outcome =
        .failed (.unknownOpcode 0xFFFF 0xF 0x206) := by
  intro rom loader machine steps session
  have calm : machine.Calm := by
    have observers : machine.observers = [.silent, .silent] := rfl
    intro observer member
    rw [observers] at member
    have silent : observer = .silent := by simpa using member
    exact silent ▸ Observer.calm_silent
  obtain ⟨-, -, cuts⟩ := sessions_refine_steps calm
  obtain ⟨final, other, ended, otherEnded, same, told⟩ :=
    cuts [.step, .step, .step, .step] [.session 9] (by decide +kernel) (by decide +kernel)
  exact ⟨final, other, ended, otherEnded, same, told, by decide +kernel, by decide +kernel⟩

end Emulator
end ChipEight
