import ChipEight.Proofs.Announcements
import ChipEight.Proofs.Attempt
import ChipEight.Proofs.Lifecycle
import ChipEight.Proofs.Progress

/-! Observers that panic. A cycle commits its instruction before it tells anybody, so a panic in a
step leaves the machine in the state that the broken round was about, and the next step goes on
from there. A worker that panics tells nobody anything more and takes the machine with it. -/
namespace ChipEight

namespace Session

theorem finish_prepend (session : Session) (trace : Trace) :
    finish { session with trace := trace ++ session.trace } =
      { session.finish with trace := trace ++ session.finish.trace } := by
  cases ending : session.ending with
  | some ending => simp only [finish, ending]
  | none => simp only [finish, ending, List.append_assoc]

theorem work_prepend (session : Session) (trace : Trace) (count : Nat) :
    work { session with trace := trace ++ session.trace } count =
      { session.work count with trace := trace ++ (session.work count).trace } := by
  cases ending : session.ending with
  | some ending => simp only [work, ending]
  | none => simp only [work, ending, List.append_assoc]

end Session

namespace Machine
variable {machine : Machine} {count : Nat}

private theorem finish_run_of_unfailed (unfailed : ∀ fault, machine.cycle.outcome ≠ .failed fault) :
    (machine.run (count + 1)).finish =
      machine.cycle.andThen fun cycled => (cycled.run count).finish := by
  rw [run, Session.finish_prepend]
  cases outcome : machine.cycle.outcome with
  | done => rw [Step.andThen_of_done outcome]
  | failed fault => exact absurd outcome (unfailed fault)
  | panicked cause =>
    rw [Step.andThen_of_panicked outcome]
    simp only [Session.finish, List.append_nil]
    rw [Ending.outcome, ← outcome]

private theorem finish_run_of_failed {fault : Fault}
    (failed : machine.cycle.outcome = .failed fault) :
    (machine.run (count + 1)).finish =
      { (machine.cycle.machine.halt fault).finish with
        trace := machine.cycle.trace ++ (machine.cycle.machine.halt fault).finish.trace } := by
  rw [run, Session.finish_prepend]
  simp only [failed]

theorem Ends.exists_pred {last : Machine} {given made : Nat} {outcome : Outcome} {stopped : State}
    {ending : List Event} (ends : last.Ends given (made + 1) outcome stopped ending) :
    ∃ count, given = count + 1 ∧ last.Ends count made outcome stopped ending := by
  cases ends with
  | stopped all => exact ⟨made, all.symm, .stopped rfl⟩
  | halted fewer failed =>
    obtain ⟨count, rfl⟩ := Nat.exists_eq_succ_of_ne_zero (Nat.ne_zero_of_lt fewer)
    exact ⟨count, rfl, .halted (Nat.lt_of_succ_lt_succ fewer) failed⟩

theorem Ends.unbroken {last : Machine} {given made : Nat} {outcome : Outcome} {stopped : State}
    {ending : List Event} (ends : last.Ends given made outcome stopped ending) {cause : String} :
    outcome ≠ .panicked cause := by
  cases ends <;> nofun

private theorem alone_commit {full : Machine} (same : full.alone = machine.alone) (state : State) :
    (full.commit state).alone = (machine.commit state).alone :=
  alone_congr same (fun machine => (machine.commit state).alone) fun _ => rfl

/-- A worker relays what its machine would make if there were nobody to panic. -/
theorem Makes.relays_run {last : Machine} {states : List State} (makes : machine.Makes states last)
    {given : Nat} {outcome : Outcome} {stopped : State} {ending : List Event}
    (ends : last.Ends given states.length outcome stopped ending) {full : Machine}
    (same : full.alone = machine.alone) :
    (full.run given).finish.Relays full.observers (states.flatMap State.happenings ++ ending)
      outcome := by
  -- The machine that is run has observers of its own, so it follows `machine` up to those alone.
  induction makes generalizing given full with
  | nil machine =>
    cases ends with
    | stopped all =>
      subst all
      have state : full.state = machine.state := alone_congr same Machine.state fun _ => rfl
      rw [← state]
      exact full.relays_announce (.stop full.state)
    | @halted fewer fault failed =>
      obtain ⟨count, rfl⟩ := Nat.exists_eq_succ_of_ne_zero (Nat.ne_of_gt fewer)
      have state : full.poll.state = machine.poll.state :=
        alone_congr same (fun machine => machine.poll.state) fun _ => rfl
      have attempt : full.attempt = machine.attempt := alone_congr same attempt fun _ => rfl
      rw [← attempt] at failed
      have cycled := cycle_of_error failed
      rw [finish_run_of_failed (congrArg Step.outcome cycled), cycled, ← state]
      exact (full.poll.relays_halt fault).behind_logs full.attempt.records
  | @cons machine last state rest made later ih =>
    have attempt : full.attempt = machine.attempt := alone_congr same attempt fun _ => rfl
    rw [← attempt] at made
    have cycled := delivers_cycle made
    obtain ⟨count, rfl, fewer⟩ := ends.exists_pred
    rw [finish_run_of_unfailed cycled.unfailed, List.flatMap_cons, List.append_assoc]
    refine cycled.toRelays.andThen fun unbroken => ih fewer ?_
    rw [cycled.made unbroken]
    exact alone_commit same state.settled

theorem work_run (machine : Machine) (first second : Nat) :
    (machine.run first).work second = machine.run (first + second) := by
  induction first generalizing machine with
  | zero =>
    rw [Nat.zero_add]
    rfl
  | succ first ih =>
    rw [run, Nat.add_right_comm, run, Session.work_prepend]
    cases outcome : machine.cycle.outcome with
    | done => simp only [ih]
    | failed fault => rfl
    | panicked cause => rfl

end Machine

namespace Session

private theorem work_zero (session : Session) : session.work 0 = session := by
  obtain ⟨machine, ending, trace⟩ := session
  cases ending with
  | some ending => rfl
  | none => exact congrArg _ (List.append_nil trace)

theorem work_work (session : Session) (first second : Nat) :
    (session.work first).work second = session.work (first + second) := by
  cases ending : session.ending with
  | some ended => simp only [work, ending]
  | none =>
    simp only [work, ending]
    exact (work_prepend _ _ _).trans (by rw [Machine.work_run])

theorem finish_work_start (machine : Machine) (count : Nat) :
    ((start machine).work count).finish =
      (machine.begin.announce (.start machine.begin.state)).andThen
        fun started => (started.run count).finish := by
  obtain done | ⟨cause, panicked⟩ :=
    machine.begin.outcome_announce (.start machine.begin.state)
  · rw [Step.andThen_of_done done]
    simp only [start, done, work]
    exact finish_prepend _ _
  · rw [Step.andThen_of_panicked panicked]
    simp only [start, panicked, work, finish, Ending.outcome]
    rw [← panicked]

end Session

namespace Machine

theorem observers_begin (machine : Machine) : machine.begin.observers = machine.observers := by
  obtain ⟨pc, begun⟩ := machine.exists_begin_eq
  rw [begun]

theorem Makes.relays_session {machine last : Machine} {states : List State}
    (makes : machine.begin.Makes states last) {count : Nat} {outcome : Outcome} {stopped : State}
    {ending : List Event} (ends : last.Ends count states.length outcome stopped ending) :
    ((Session.start machine).work count).finish.Relays machine.observers
      (.start machine.begin.state :: (states.flatMap State.happenings ++ ending)) outcome := by
  rw [Session.finish_work_start, ← machine.observers_begin]
  exact (machine.begin.relays_announce (.start machine.begin.state)).andThen
    fun _ => makes.relays_run ends rfl

end Machine

/-- What a panic over the event leaves of the state that an instruction made. The flag has fallen
and the timers have ticked only by the time of the sound. -/
inductive State.Interrupted (state : State) : Event → State → Prop where
  | update : Interrupted state (.update state) state
  | frame (raised : state.drawFlag = true) : Interrupted state (.frame state) state
  | sound (running : state.settled.soundTimer ≠ 0) :
      Interrupted state (.sound state.settled) state.settled

theorem State.exists_interrupted {state : State} {event : Event}
    (happened : event ∈ state.happenings) :
    ∃ left, state.Interrupted event left ∧ event.state? = some left := by
  have timed := state.wellTimed_happenings event happened
  obtain rfl | rfl | rfl := mem_happenings happened
  · exact ⟨state, .update, rfl⟩
  · exact ⟨state, .frame timed, rfl⟩
  · exact ⟨state.settled, .sound timed.2, rfl⟩

namespace Machine
variable {machine : Machine} {earlier : List Event} {event : Event} {position : Nat}
  {cause : String}

/-- The machine after a panic. Its instruction is committed, and everybody up to the position has
heard one thing more than those behind. -/
def brokenOff (machine : Machine) (left : State) (told position : Nat) : Machine :=
  { machine.commit left with
    observers := (machine.observers.take (position + 1)).map (Observer.hearing (told + 1)) ++
      (machine.observers.drop (position + 1)).map (Observer.hearing told) }

structure Resumes (machine : Machine) (counter : UInt16) : Prop where
  stands : machine.state.pc = counter
  step : machine.step = machine.cycle
  attempt : ∀ opcode, machine.state.memory.word counter.toNat = .ok opcode →
    machine.attempt = .ofOpcode opcode counter machine.config.machineCode machine.random.current
      machine.poll.state.passed

private theorem resumes_of_begun (begun : machine.begun) : machine.Resumes machine.state.pc where
  stands := rfl
  step := step_of_begun begun
  attempt opcode word := by
    have fetched : machine.poll.state.fetch = .ok (opcode, machine.poll.state.passed) := by
      rw [State.fetch_eq]
      exact congrArg _ word
    rw [attempt, State.attempt, fetched]
    rfl

private theorem panicked_cycle_iff (machine : Machine) (cause : String) :
    machine.cycle.outcome = .panicked cause ↔
      ∃ state earlier event position, machine.attempt.result = .ok state ∧
        FirstPanic machine.observers state.happenings earlier event position cause := by
  cases result : machine.attempt.result with
  | error fault => simp [cycle_of_error result]
  | ok state =>
    have unbroken : Outcome.done ≠ .panicked cause := Outcome.noConfusion
    refine ((delivers_cycle result).panicked_iff unbroken).trans ⟨?_, ?_⟩
    · rintro ⟨earlier, event, position, first⟩
      exact ⟨state, earlier, event, position, rfl, first⟩
    · rintro ⟨other, earlier, event, position, made, first⟩
      cases made
      exact ⟨earlier, event, position, first⟩

private theorem cycle_of_firstPanic {state : State} (succeeded : machine.attempt.result = .ok state)
    (first : FirstPanic machine.observers state.happenings earlier event position cause) :
    machine.cycle.trace.events = earlier.flatMap machine.round ++ calls (position + 1) event ∧
      ∃ left, state.Interrupted event left ∧
        machine.cycle.machine = machine.brokenOff left earlier.length position := by
  have delivered := delivers_cycle succeeded
  have happened : event ∈ state.happenings := first.told.subset (by simp)
  obtain ⟨left, interrupted, shown⟩ := State.exists_interrupted happened
  refine ⟨(delivered.of_firstPanic first).2, left, interrupted, ?_⟩
  have told : deliver state.happenings (machine.commit state).observers = _ := first.deliver_eq
  rw [delivered.left event cause (congrArg Delivery.broken told) left shown, delivered.heard, told]
  rfl

end Machine

theorem Session.ending_of_panicked {session : Session} {cause : String}
    (panicked : session.finish.outcome = .panicked cause) :
    session.ending = some (.panicked cause) ∨
      session.ending = none ∧ ∃ position, session.finish.trace.events.getLast? =
        some (position, .stop session.machine.state) := by
  unfold finish at panicked ⊢
  cases ending : session.ending with
  | some ended =>
    rw [ending] at panicked
    cases ended with
    | faulted fault => contradiction
    | panicked other => exact .inl (congrArg _ (congrArg _ (Outcome.panicked.inj panicked)))
  | none =>
    rw [ending] at panicked
    have relays := session.machine.relays_announce (.stop session.machine.state)
    obtain ⟨earlier, event, position, first⟩ := (relays.panicked_iff nofun).mp panicked
    have own : event ∈ [Event.stop session.machine.state] := first.told.subset (by simp)
    rw [List.mem_singleton.mp own] at first
    refine .inr ⟨rfl, position, ?_⟩
    rw [Trace.events_append, List.getLast?_append, relays.events, first.getLast?_events]
    rfl

namespace Emulator

private theorem after_lost (random : RandomSource) (requests : List Request) :
    (lost random).after requests = lost random ∧ (lost random).told requests = [] := by
  induction requests with
  | nil => exact ⟨rfl, rfl⟩
  | cons request rest ih =>
    have same : ((lost random).answer request).emulator = lost random := by cases request <;> rfl
    have quiet : ((lost random).answer request).events = [] := by cases request <;> rfl
    refine ⟨?_, ?_⟩
    · rw [after, List.foldl_cons, same]
      exact ih.1
    · rw [told, same, quiet, ih.2]
      rfl

theorem exists_work (session : Session) {requests : List Request} (going : .stop ∉ requests) :
    ∃ count, (busy session).after requests = busy (session.work count) := by
  induction requests generalizing session with
  | nil => exact ⟨0, congrArg busy session.work_zero.symm⟩
  | cons request rest ih =>
    obtain ⟨other, restGoing⟩ := not_or.mp (mt List.mem_cons.mpr going)
    cases request with
    | stop => contradiction
    | work first =>
      obtain ⟨second, stands⟩ := ih (session.work first) restGoing
      rw [Session.work_work] at stands
      exact ⟨first + second, stands⟩
    | subscribe | load | step | start => exact ih session restGoing

theorem outcome_session (machine : Machine) (count : Nat) :
    (session machine count).outcome = ((Session.start machine).work count).finish.outcome :=
  outcome_stop _

private theorem session_of_panicked {machine : Machine} {count : Nat} {cause : String}
    (panicked : ((Session.start machine).work count).finish.outcome = .panicked cause) :
    session machine count =
      ⟨lost ((Session.start machine).work count).finish.machine.random, .panicked cause, [],
        some ((Session.start machine).work count).finish.trace⟩ := by
  have stopped : session machine count = (busy ((Session.start machine).work count)).stop := rfl
  simp only [stopped, stop, panicked]

/-- A panic in a step leaves the machine at hand, with its instruction committed once and told as
far as the panic let it come, and the next step goes on from there. A session breaks off in the same
way, whatever was asked of the emulator meanwhile, but its machine is lost. -/
theorem panics_leave_committed_prefix (machine : Machine) :
    (∀ cause, (atHand machine).step.outcome = .panicked cause ↔
      ∃ state earlier event position, machine.begin.attempt.result = .ok state ∧
        FirstPanic machine.observers state.happenings earlier event position cause) ∧
    (∀ state earlier event position cause, machine.begin.attempt.result = .ok state →
      FirstPanic machine.observers state.happenings earlier event position cause →
      (atHand machine).step.events =
          earlier.flatMap machine.round ++ calls (position + 1) event ∧
        ∃ left, state.Interrupted event left ∧
          let after := machine.begin.brokenOff left earlier.length position
          (atHand machine).step.emulator = atHand after ∧ after.Resumes state.pc) ∧
    (∀ requests, .stop ∉ requests → ∃ count,
      (((atHand machine).start none).emulator.after requests).stop = session machine count) ∧
    ∀ count, ∃ states last outcome stopped ending, machine.begin.Makes states last ∧
      last.Ends count states.length outcome stopped ending ∧
      let log := .start machine.begin.state :: (states.flatMap State.happenings ++ ending)
      (∀ cause, (session machine count).outcome = .panicked cause ↔
        ∃ earlier event position, FirstPanic machine.observers log earlier event position cause) ∧
      ∀ earlier event position cause,
        FirstPanic machine.observers log earlier event position cause →
        let worker := (Session.start machine).work count
        (session machine count).events =
            earlier.flatMap machine.round ++ calls (position + 1) event ∧
          (worker.ending = some (.panicked cause) ∨
            worker.ending = none ∧ event = .stop worker.machine.state) ∧
          ∃ random, (session machine count).emulator = lost random ∧
            ∀ requests, (lost random).after requests = lost random ∧
              (lost random).told requests = [] := by
  refine ⟨?_, ?_, ?_, ?_⟩
  · intro cause
    rw [← machine.observers_begin]
    exact machine.begin.panicked_cycle_iff cause
  · intro state earlier event position cause succeeded first
    rw [← machine.observers_begin] at first
    obtain ⟨events, left, interrupted, stands⟩ := Machine.cycle_of_firstPanic succeeded first
    rw [Machine.round_begin] at events
    refine ⟨events, left, interrupted, congrArg atHand stands, ?_⟩
    have counter : left.pc = state.pc := by cases interrupted <;> rfl
    rw [← counter]
    exact Machine.resumes_of_begun machine.begun_begin
  · intro requests going
    obtain ⟨count, stands⟩ := exists_work (Session.start machine) going
    exact ⟨count, congrArg stop stands⟩
  · intro count
    obtain ⟨states, last, outcome, stopped, ending, makes, ends, -⟩ :=
      Machine.exists_makes count machine.begin
    refine ⟨states, last, outcome, stopped, ending, makes, ends, ?_, ?_⟩
    · intro cause
      rw [outcome_session]
      exact (makes.relays_session ends).panicked_iff ends.unbroken
    · intro earlier event position cause first worker
      have relays := makes.relays_session ends
      obtain ⟨panicked, events⟩ := relays.of_firstPanic first
      rw [session_of_panicked panicked]
      refine ⟨(List.append_nil _).trans events, ?_, _, rfl, after_lost _⟩
      refine (Session.ending_of_panicked panicked).imp_right ?_
      rintro ⟨going, other, final⟩
      rw [relays.events, first.getLast?_events] at final
      exact ⟨going, (Prod.mk.inj (Option.some.inj final)).2⟩

/-- The second of two observers panics when the screen has been cleared, in a step and in a
session. -/
theorem panics_over_cleared_screen :
    let tearing : Observer :=
      { react := fun _ event => { panic := event.frame?.map fun _ => "torn" } }
    let machine := ((Machine.create Config.default (.constant Keys.released) (.ofArray #[])).load
      [0x00, 0xE0]).machine.withObservers [.silent, tearing]
    (∃ state, machine.begin.attempt.result = .ok state ∧
      FirstPanic machine.observers state.happenings [.update state] (.frame state) 1 "torn" ∧
      (atHand machine).step.events =
        [(0, .update state), (1, .update state), (0, .frame state), (1, .frame state)]) ∧
    (session machine 1).outcome = .panicked "torn" ∧
      ∃ random, (session machine 1).emulator = lost random := by
  intro tearing machine
  obtain ⟨-, steps, -, sessions⟩ := panics_leave_committed_prefix machine
  refine ⟨?_, ?_⟩
  · have cleared : machine.begin.attempt.result.toOption.map
        (fun state => (state.drawFlag, state.settled.soundTimer)) = some (true, 0) := by
      decide +kernel
    obtain ⟨state, made, shows⟩ := Option.map_eq_some_iff.mp cleared
    have succeeded := eq_ok_of_toOption made
    have happened : state.happenings = [.update state, .frame state] := by
      rw [State.happenings, (Prod.mk.inj shows).1, (Prod.mk.inj shows).2]
      rfl
    have first : FirstPanic machine.observers state.happenings [.update state] (.frame state) 1
        "torn" := by
      rw [happened]
      refine ⟨⟨[], rfl⟩, ?_, ?_, tearing, rfl, rfl⟩
      · intro others before stands observer member
        rw [List.mem_singleton.mp (List.mem_of_getElem? stands)]
        obtain rfl | last := List.mem_cons.mp member
        · rfl
        · rw [List.mem_singleton.mp last]
          rfl
      · intro observer member
        rw [List.mem_singleton.mp member]
        rfl
    exact ⟨state, succeeded, first, (steps _ _ _ _ _ succeeded first).1⟩
  · have panicked : (session machine 1).outcome = .panicked "torn" := by decide +kernel
    obtain ⟨_, _, _, _, _, -, -, broken, told⟩ := sessions 1
    obtain ⟨earlier, event, position, first⟩ := (broken "torn").mp panicked
    obtain ⟨-, -, random, lost, -⟩ := told _ _ _ _ first
    exact ⟨panicked, random, lost⟩

end Emulator
end ChipEight
