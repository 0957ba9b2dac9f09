import ChipEight.Proofs.Deliveries

/-! Steps that tell a log. A cycle commits its instruction before it tells anybody, so a panic
leaves the machine in the state that the broken round was about. If nobody panics the whole
log is told and the machine settles. -/
namespace ChipEight

namespace Step

/-- The step tells the log to everybody. It ends as said, or with the first panic. -/
structure Relays (step : Step) (observers : List Observer) (log : List Event) (ends : Outcome) :
    Prop where
  events : step.trace.events = (deliver log observers).events
  heard : step.machine.observers = (deliver log observers).observers
  whole : (deliver log observers).broken = none → step.outcome = ends
  broken : ∀ event cause, (deliver log observers).broken = some (event, cause) →
    step.outcome = .panicked cause

variable {step : Step} {observers : List Observer} {log : List Event} {ends : Outcome}

theorem Relays.andThen {more : List Event} {next : Machine → Step}
    (first : step.Relays observers log .done)
    (second : (deliver log observers).broken = none →
      (next step.machine).Relays step.machine.observers more ends) :
    (step.andThen next).Relays observers (log ++ more) ends := by
  cases broken : (deliver log observers).broken with
  | none =>
    have later := second broken
    rw [first.heard] at later
    rw [andThen_of_done (first.whole broken)]
    constructor
    · rw [deliver_append_of_unbroken broken, Trace.events_append, first.events, later.events]
    · rw [deliver_append_of_unbroken broken, later.heard]
    · rw [deliver_append_of_unbroken broken]
      exact later.whole
    · rw [deliver_append_of_unbroken broken]
      exact later.broken
  | some panic =>
    obtain ⟨event, cause⟩ := panic
    rw [andThen_of_panicked (first.broken event cause broken)]
    constructor
    · rw [deliver_append_of_broken broken, first.events]
    · rw [deliver_append_of_broken broken, first.heard]
    · rw [deliver_append_of_broken broken, broken]
      nofun
    · rw [deliver_append_of_broken broken]
      exact first.broken

theorem Relays.behind_logs (relays : step.Relays observers log ends) (records : List Record) :
    Relays { step with trace := records.map Occurrence.logged ++ step.trace } observers log
      ends where
  events := by
    rw [Trace.events_append, Trace.events_logged]
    exact relays.events
  heard := relays.heard
  whole := relays.whole
  broken := relays.broken

theorem Relays.unfailed (relays : step.Relays observers log .done) (fault : Fault) :
    step.outcome ≠ .failed fault := by
  cases broken : (deliver log observers).broken with
  | none =>
    rw [relays.whole broken]
    nofun
  | some panic =>
    rw [relays.broken panic.1 panic.2 broken]
    nofun

theorem Relays.of_firstPanic (relays : step.Relays observers log ends) {earlier : List Event}
    {event : Event} {position : Nat} {cause : String}
    (first : FirstPanic observers log earlier event position cause) :
    step.outcome = .panicked cause ∧ step.trace.events =
      earlier.flatMap (calls observers.length) ++ calls (position + 1) event := by
  have told := first.deliver_eq
  refine ⟨relays.broken event cause (congrArg Delivery.broken told), ?_⟩
  rw [relays.events, told]

theorem Relays.panicked_iff (relays : step.Relays observers log ends) {cause : String}
    (other : ends ≠ .panicked cause) :
    step.outcome = .panicked cause ↔
      ∃ earlier event position, FirstPanic observers log earlier event position cause := by
  constructor
  · intro panicked
    cases broken : (deliver log observers).broken with
    | none => exact absurd ((relays.whole broken).symm.trans panicked) other
    | some panic =>
      have own := (relays.broken panic.1 panic.2 broken).symm.trans panicked
      obtain rfl : panic.2 = cause := Outcome.panicked.inj own
      obtain ⟨earlier, position, first⟩ := exists_firstPanic broken
      exact ⟨earlier, panic.1, position, first⟩
  · rintro ⟨earlier, event, position, first⟩
    exact (relays.of_firstPanic first).1

end Step

def Event.state? : Event → Option State
  | start state | update state | frame state | sound state | stop state => some state
  | fault _ => none

namespace Machine

/-- The step tells the log and changes nothing else but the state. That becomes `made`, or it stays
as the event shows it over which somebody panics. -/
structure Delivers (machine : Machine) (step : Step) (log : List Event) (made : State) : Prop
    extends step.Relays machine.observers log .done where
  made : (deliver log machine.observers).broken = none → step.machine =
    { machine with state := made, observers := step.machine.observers }
  left : ∀ event cause, (deliver log machine.observers).broken = some (event, cause) →
    ∀ state, event.state? = some state → step.machine =
      { machine with state, observers := step.machine.observers }

variable {machine : Machine}

theorem relays_announce (machine : Machine) (event : Event) :
    (machine.announce event).Relays machine.observers [event] .done := by
  cases panic : (Round.tell event 0 machine.observers).panic with
  | none =>
    constructor
    · rw [deliver_cons_of_unbroken panic, deliver_nil, List.append_nil]
      rfl
    · rw [deliver_cons_of_unbroken panic]
      rfl
    · intro unbroken
      simp only [announce, panic]
    · rw [deliver_cons_of_unbroken panic]
      intro _ _ broken
      contradiction
  | some cause =>
    constructor
    · rw [deliver_cons_of_broken panic]
      rfl
    · rw [deliver_cons_of_broken panic]
      rfl
    · rw [deliver_cons_of_broken panic]
      intro unbroken
      contradiction
    · rw [deliver_cons_of_broken panic]
      rintro other reason same
      cases same
      simp only [announce, panic]

theorem delivers_idle (machine : Machine) (state : State) :
    machine.Delivers (idle { machine with state }) [] state where
  events := rfl
  heard := rfl
  whole _ := rfl
  broken := nofun
  made _ := rfl
  left := nofun

theorem delivers_announce {event : Event} (shows : event.state? = some machine.state) :
    machine.Delivers (machine.announce event) [event] machine.state where
  toRelays := machine.relays_announce event
  made _ := rfl
  left := by
    intro other cause broken state shown
    obtain ⟨earlier, position, first⟩ := exists_firstPanic broken
    have own : other ∈ [event] := first.told.subset (by simp)
    rw [List.mem_singleton.mp own, shows] at shown
    cases shown
    rfl

theorem Delivers.andThen {step : Step} {log more : List Event} {state made : State}
    {next : Machine → Step} (first : machine.Delivers step log state)
    (second : ∀ observers, Delivers { machine with state, observers }
      (next { machine with state, observers }) more made) :
    machine.Delivers (step.andThen next) (log ++ more) made := by
  cases broken : (deliver log machine.observers).broken with
  | none =>
    have later := second step.machine.observers
    have same := first.made broken
    rw [← same] at later
    refine ⟨first.toRelays.andThen fun _ => later.toRelays, ?_, ?_⟩
    · rw [deliver_append_of_unbroken broken, ← first.heard,
        Step.andThen_of_done (first.whole broken)]
      intro unbroken
      have made := later.made unbroken
      rw [same] at made ⊢
      exact made
    · rw [deliver_append_of_unbroken broken, ← first.heard,
        Step.andThen_of_done (first.whole broken)]
      intro event cause panic state shown
      have left := later.left event cause panic state shown
      rw [same] at left ⊢
      exact left
  | some panic =>
    have relays : (step.andThen next).Relays machine.observers (log ++ more) .done :=
      first.toRelays.andThen fun unbroken => absurd (broken.symm.trans unbroken) nofun
    refine ⟨relays, ?_, ?_⟩
    · rw [deliver_append_of_broken broken, broken]
      nofun
    · rw [deliver_append_of_broken broken,
        Step.andThen_of_panicked (first.broken panic.1 panic.2 broken)]
      exact first.left

private theorem delivers_showFrame (machine : Machine) :
    machine.Delivers machine.showFrame
      (if machine.state.drawFlag then [.frame machine.state] else []) machine.state.shown := by
  unfold showFrame
  cases flag : machine.state.drawFlag with
  | false =>
    have lowered : machine.state.shown = machine.state := by rw [State.shown, ← flag]
    rw [lowered]
    exact machine.delivers_idle machine.state
  | true =>
    have told : machine.Delivers (machine.announce (.frame machine.state))
        [.frame machine.state] machine.state := delivers_announce rfl
    rw [if_pos rfl, if_pos rfl, ← List.append_nil [Event.frame machine.state]]
    exact told.andThen fun observers => delivers_idle _ _

private theorem delivers_tick (machine : Machine) :
    machine.Delivers machine.tick
      (if machine.state.tick.soundTimer = 0 then [] else [.sound machine.state.tick])
      machine.state.tick := by
  unfold tick
  dsimp only
  split
  · exact machine.delivers_idle machine.state.tick
  · have shows : (Event.sound machine.state.tick).state? = some machine.state.tick := rfl
    have ticked : Delivers { machine with state := machine.state.tick } _ _ _ :=
      delivers_announce shows
    exact ⟨ticked.toRelays, ticked.made, ticked.left⟩

theorem delivers_notify (machine : Machine) :
    machine.Delivers machine.notify machine.state.happenings machine.state.settled := by
  have told : machine.Delivers (machine.announce (.update machine.state))
      [.update machine.state] machine.state := delivers_announce rfl
  refine told.andThen fun observers => ?_
  exact (delivers_showFrame _).andThen fun observers => delivers_tick _

theorem Delivers.cases {step : Step} {log : List Event} {made : State}
    (delivers : machine.Delivers step log made) :
    step.outcome = .done ∧ step.machine.unheard = unheard { machine with state := made } ∨
      ∃ cause, ∃ event ∈ log, step.outcome = .panicked cause ∧
        ∀ state, event.state? = some state →
          step.machine.unheard = unheard { machine with state } := by
  have heard : step.machine.observers.map Observer.unheard =
      machine.observers.map Observer.unheard := by
    rw [delivers.heard, unheard_deliver]
  cases broken : (deliver log machine.observers).broken with
  | none =>
    refine .inl ⟨delivers.whole broken, ?_⟩
    rw [delivers.made broken, unheard, unheard, heard]
  | some panic =>
    obtain ⟨earlier, position, first⟩ := exists_firstPanic broken
    refine .inr ⟨panic.2, panic.1, first.told.subset (by simp),
      delivers.broken panic.1 panic.2 broken, ?_⟩
    intro state shown
    rw [delivers.left panic.1 panic.2 broken state shown, unheard, unheard, heard]

theorem notify_cases (machine : Machine) :
    machine.notify.outcome = .done ∧
        machine.notify.machine.unheard =
          unheard { machine with state := machine.state.settled } ∨
      ∃ cause, machine.notify.outcome = .panicked cause ∧
        (machine.notify.machine.unheard = machine.unheard ∨
          machine.notify.machine.unheard =
            unheard { machine with state := machine.state.settled }) := by
  refine machine.delivers_notify.cases.imp_right ?_
  rintro ⟨cause, event, happened, panicked, left⟩
  refine ⟨cause, panicked, ?_⟩
  obtain rfl | rfl | rfl := State.mem_happenings happened
  · exact .inl (left machine.state rfl)
  · exact .inl (left machine.state rfl)
  · exact .inr (left machine.state.settled rfl)

theorem delivers_cycle {state : State} (succeeded : machine.attempt.result = .ok state) :
    (machine.commit state).Delivers machine.cycle state.happenings state.settled := by
  have told := delivers_notify (machine.commit state)
  rw [cycle_of_ok succeeded]
  refine ⟨⟨?_, told.heard, told.whole, told.broken⟩, told.made, told.left⟩
  rw [Trace.events_append, Trace.events_logged]
  exact told.events

theorem result_of_failed {machine : Machine} {fault : Fault}
    (failed : machine.cycle.outcome = .failed fault) : machine.attempt.result = .error fault := by
  cases result : machine.attempt.result with
  | error other =>
    rw [cycle_of_error result] at failed
    cases failed
    rfl
  | ok state => exact absurd failed ((delivers_cycle result).unfailed fault)

theorem relays_halt (machine : Machine) (fault : Fault) :
    (machine.halt fault).finish.Relays machine.observers [.fault fault, .stop machine.state]
      (.failed fault) := by
  have logged : (machine.log (.halting fault)).Relays machine.observers [] .done :=
    ⟨rfl, rfl, fun _ => rfl, nofun⟩
  have told : ((machine.log (.halting fault)).andThen (announce (.fault fault))).Relays
      machine.observers ([] ++ [.fault fault]) .done :=
    logged.andThen fun _ => machine.relays_announce (.fault fault)
  have stopped : (((machine.log (.halting fault)).andThen (announce (.fault fault))).andThen
      fun machine => machine.announce (.stop machine.state)).Relays machine.observers
      ([] ++ [.fault fault] ++ [.stop machine.state]) .done := by
    refine told.andThen fun _ => ?_
    exact relays_announce _ _
  refine ⟨stopped.events, stopped.heard, ?_, ?_⟩
  · intro unbroken
    have done := stopped.whole unbroken
    simp only [halt, Session.finish, done]
    rfl
  · intro event cause broken
    have panicked := stopped.broken event cause broken
    simp only [halt, Session.finish, panicked]
    rfl

end Machine
end ChipEight
