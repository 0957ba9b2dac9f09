import ChipEight.Proofs.Attempt
import ChipEight.Proofs.Calm

/-! The log over any requests. A cycle logs its instruction before it tries it, so the log can be
written down from the machines on which cycles were tried, whoever had them: each has an
entry if there is an instruction to try, a warning if that is machine code to be passed over,
and on a worker the fault if it fails. Observers log as well, but only remarks. -/
namespace ChipEight

/-- Logged by the machine or whoever has it, and not by one of its observers. -/
def Record.isOwn : Record → Bool
  | remark .. => false
  | executing .. | machineCodeIgnored .. | romLoaded _ | started | stopped | halting _ => true

/-- Whatever it logs is a remark: the other kinds of record are not for observers to make. -/
def Observer.Plain (observer : Observer) : Prop :=
  ∀ heard event, ∀ record ∈ (observer.react heard event).records, record.isOwn = false

def Machine.Plain (machine : Machine) : Prop := ∀ observer ∈ machine.observers, observer.Plain

def Request.Plain : Request → Prop
  | subscribe observer => observer.Plain
  | load _ | step | start _ | work _ | stop => True

namespace Trace

def own (trace : Trace) : List Record := trace.records.filter Record.isOwn

@[simp] theorem own_append (first second : Trace) :
    own (first ++ second) = own first ++ own second := by
  simp [own]

theorem own_logged (records : List Record) :
    own (records.map .logged) = records.filter Record.isOwn := by
  have all : Trace.records (records.map .logged) = records := by
    rw [Trace.records, List.filterMap_map]
    exact List.filterMap_some
  rw [own, all]

end Trace

theorem Round.own_tell (event : Event) (position : Nat) {observers : List Observer}
    (plain : ∀ observer ∈ observers, observer.Plain) :
    (tell event position observers).trace.own = [] := by
  induction observers generalizing position with
  | nil => rfl
  | cons observer rest ih =>
    have remarks : Trace.own
        (.told position event :: (observer.reaction event).records.map .logged) = [] :=
      (Trace.own_logged _).trans
        (List.filter_eq_nil_iff.mpr fun record logged => by
          simp [plain observer List.mem_cons_self observer.heard event record logged])
    have later := ih (position + 1) fun other member => plain other (List.mem_cons_of_mem _ member)
    simp only [tell]
    split
    · exact remarks
    · rw [Trace.own_append, remarks, later]
      rfl

namespace Machine

theorem plain_of_heard {machine other : Machine}
    (same : machine.observers.map Observer.unheard = other.observers.map Observer.unheard)
    (plain : other.Plain) : machine.Plain := by
  intro observer member
  have heard := List.mem_map_of_mem (f := Observer.unheard) member
  rw [same] at heard
  obtain ⟨origin, present, alike⟩ := List.mem_map.mp heard
  have before : origin.unheard.Plain := plain origin present
  rw [alike] at before
  exact before

theorem plain_of_unheard_eq {machine other : Machine} (same : machine.unheard = other.unheard)
    (plain : other.Plain) : machine.Plain :=
  plain_of_heard (congrArg Machine.observers same) plain

theorem plain_begin {machine : Machine} (plain : machine.Plain) : machine.begin.Plain := by
  obtain ⟨pc, begin⟩ := machine.exists_begin_eq
  rw [begin]
  exact plain

theorem plain_cycle {machine : Machine} (plain : machine.Plain) : machine.cycle.machine.Plain :=
  plain_of_heard machine.observers_cycle plain

end Machine

/-- Whoever went along logged remarks at most, and does so from now on. -/
structure Step.Mute (step : Step) : Prop where
  own : step.trace.own = []
  plain : step.machine.Plain

theorem Step.Mute.andThen {step : Step} {next : Machine → Step} (mute : step.Mute)
    (later : ∀ machine : Machine, machine.Plain → (next machine).Mute) :
    (step.andThen next).Mute := by
  unfold Step.andThen
  split
  · refine ⟨?_, (later step.machine mute.plain).plain⟩
    rw [Trace.own_append, mute.own, (later step.machine mute.plain).own]
    rfl
  · exact mute

namespace Machine
variable {machine : Machine}

theorem mute_announce (plain : machine.Plain) (event : Event) : (machine.announce event).Mute :=
  ⟨Round.own_tell event 0 plain, plain_of_unheard_eq (unheard_announce machine event) plain⟩

private theorem mute_showFrame (plain : machine.Plain) : machine.showFrame.Mute := by
  unfold showFrame
  split
  · exact (mute_announce plain _).andThen fun shown still => ⟨rfl, still⟩
  · exact ⟨rfl, plain⟩

private theorem mute_tick (plain : machine.Plain) : machine.tick.Mute := by
  have ticked : Plain { machine with state := machine.state.tick } := plain
  unfold tick
  dsimp only
  split
  · exact ⟨rfl, ticked⟩
  · exact mute_announce ticked _

private theorem mute_notify (plain : machine.Plain) : machine.notify.Mute :=
  (mute_announce plain _).andThen fun _ told =>
    (mute_showFrame told).andThen fun _ shown => mute_tick shown

end Machine

def State.entry? (state : State) : Option Record :=
  match state.instruction with
  | .error _ => none
  | .ok instruction => some (.executing instruction state.v state.i)

namespace Machine

def warning? (machine : Machine) : Option Record :=
  match machine.state.instruction with
  | .error _ => none
  | .ok instruction =>
    if instruction.kind = .machineCode ∧ machine.config.machineCode = .ignore then
      some (.machineCodeIgnored instruction.nnn instruction.address)
    else none

def alarm? (machine : Machine) : Option Record :=
  match machine.cycle.outcome with
  | .failed fault => some (.halting fault)
  | .done | .panicked _ => none

/-- What the next cycle logs, whoever has the machine. -/
def entries (machine : Machine) : List Record :=
  machine.state.entry?.toList ++ machine.warning?.toList

/-- What a worker logs over the cycles that it tries, of which only the last can fail. -/
def report (tried : List Machine) : List Record :=
  tried.flatMap entries ++ (tried.getLast?.bind alarm?).toList

theorem report_cons {machine : Machine} (silent : machine.alarm? = none) (tried : List Machine) :
    report (machine :: tried) = machine.entries ++ report tried := by
  have last : (machine :: tried).getLast?.bind alarm? = tried.getLast?.bind alarm? := by
    rw [List.getLast?_cons]
    cases tried.getLast? with
    | none => exact silent
    | some later => rfl
  rw [report, report, last, List.flatMap_cons, List.append_assoc]

theorem report_singleton (machine : Machine) :
    report [machine] = machine.entries ++ machine.alarm?.toList := by
  rw [report, List.flatMap_singleton]
  rfl

theorem records_attempt (machine : Machine) : machine.attempt.records = machine.entries := by
  have polled : machine.poll.state.instruction = machine.state.instruction := rfl
  rw [attempt, State.attempt_eq, polled, entries, State.entry?, warning?]
  cases machine.state.instruction with
  | error fault => rfl
  | ok instruction =>
    have unmoved : machine.poll.state.passed.v = machine.state.v ∧
        machine.poll.state.passed.i = machine.state.i := ⟨rfl, rfl⟩
    simp only [Instruction.attempt, Instruction.records, Instruction.warnings, unmoved]
    cases machine.config.machineCode with
    | reject => simp
    | ignore => by_cases outside : instruction.kind = .machineCode <;> simp [outside]

theorem own_records (machine : Machine) :
    Trace.own (machine.attempt.records.map .logged) = machine.entries := by
  rw [Trace.own_logged, records_attempt, entries, State.entry?, warning?]
  cases machine.state.instruction with
  | error fault => rfl
  | ok instruction =>
    dsimp only
    split <;> rfl

variable {machine : Machine}

/-- The entries come before anything can fail, so they are there however the cycle ends. -/
theorem own_cycle (plain : machine.Plain) : machine.cycle.trace.own = machine.entries := by
  cases result : machine.attempt.result with
  | error fault =>
    rw [cycle_of_error result]
    exact machine.own_records
  | ok state =>
    have committed : (machine.commit state).Plain := plain
    rw [cycle_of_ok result, Trace.own_append, (mute_notify committed).own, List.append_nil]
    exact machine.own_records

theorem own_load (machine : Machine) (rom : List UInt8) :
    (machine.load rom).trace.own =
      if (machine.load rom).outcome = .done then [.romLoaded rom.length] else [] := by
  unfold load
  split
  · rfl
  · split <;> rfl

theorem own_halt (plain : machine.Plain) (fault : Fault) :
    (machine.halt fault).trace.own = [.halting fault] := by
  have told : ((machine.announce (.fault fault)).andThen
      fun machine => machine.announce (.stop machine.state)).Mute :=
    (mute_announce plain _).andThen fun _ still => mute_announce still _
  rw [halt, Step.andThen_assoc, log, Step.andThen_done, Trace.own_append, told.own]
  rfl

theorem own_run (plain : machine.Plain) (count : Nat) :
    (machine.run count).trace.own = report (machine.tries count) := by
  induction count generalizing machine with
  | zero => rfl
  | succ count ih =>
    have cycled := plain_cycle plain
    rw [run, tries, Trace.own_append, own_cycle plain]
    cases outcome : machine.cycle.outcome with
    | done =>
      have silent : machine.alarm? = none := by rw [alarm?, outcome]
      rw [report_cons silent]
      exact congrArg _ (ih cycled)
    | failed fault =>
      rw [report_singleton, alarm?, outcome]
      exact congrArg _ (own_halt cycled fault)
    | panicked cause =>
      rw [report_singleton, alarm?, outcome]
      rfl

end Machine

namespace Session
variable {session : Session}

theorem own_work (plain : session.machine.Plain) (count : Nat) :
    (session.work count).trace.own =
      session.trace.own ++ Machine.report (session.tries count) := by
  cases ending : session.ending with
  | some ended =>
    simp only [work, tries, ending]
    exact (List.append_nil _).symm
  | none =>
    simp only [work, tries, ending]
    rw [Trace.own_append, Machine.own_run plain]

theorem own_finish (plain : session.machine.Plain) :
    session.finish.trace.own = session.trace.own := by
  unfold finish
  split
  · rfl
  · rw [Trace.own_append, (Machine.mute_announce plain _).own, List.append_nil]

end Session

def Reply.visible (reply : Reply) : Trace := reply.worker.getD [] ++ reply.trace

namespace Emulator

/-- All that becomes visible while the requests are answered and the emulator is then given up. What
a worker has made visible comes out when it is stopped. -/
def visible (emulator : Emulator) : List Request → Trace
  | [] => emulator.discard
  | request :: rest =>
    (emulator.answer request).visible ++ (emulator.answer request).emulator.visible rest

def noted : Emulator → Request → List Record
  | atHand machine, .load rom =>
    if (machine.load rom).outcome = .done then [.romLoaded rom.length] else []
  | atHand machine, .step => machine.begin.entries
  | atHand _, .start none => [.started]
  | busy session, .work count => Machine.report (session.tries count)
  | busy _, .stop => [.stopped]
  | _, _ => []

def journal (emulator : Emulator) : List Request → List Record
  | [] => []
  | request :: rest => emulator.noted request ++ (emulator.answer request).emulator.journal rest

def Plain (emulator : Emulator) : Prop := emulator.Holds (fun _ => Machine.Plain) []

end Emulator

def Tacit (deeds : List Deed) : Prop := ∀ observer, .subscribed observer ∈ deeds → observer.Plain

theorem Machine.carried_plain : CarriedWhile Tacit fun _ => Plain where
  front tacit observer member := tacit observer (List.mem_append_left _ member)
  subscribed {_ machine observer} tacit plain := by
    intro other member
    obtain before | last := List.mem_append.mp member
    · exact plain other before
    · rw [List.mem_singleton.mp last]
      exact tacit observer (List.mem_append_right _ List.mem_cons_self)
  loaded _ _ plain := plain
  begun := plain_begin
  tried _ _ := plain_cycle
  heard := plain_of_unheard_eq

namespace Emulator

theorem Plain.answer {emulator : Emulator} (plain : emulator.Plain) {request : Request}
    (tacit : request.Plain) : (emulator.answer request).emulator.Plain := by
  have told : Tacit (emulator.deeds request) := by
    intro observer member
    rw [subscribed_of_mem_deeds member] at tacit
    exact tacit
  have before : emulator.Holds (fun deeds machine => Tacit deeds → machine.Plain) [] :=
    Holds.imp plain fun machine own _ => own
  exact (before.answer Machine.carried_plain.carried request).imp fun machine own => own told

/-- What is logged over a request comes out with the reply, or it joins what a worker has logged up
to then and comes out when that is stopped. -/
theorem own_answer {emulator : Emulator} (calm : emulator.Calm) (plain : emulator.Plain)
    {request : Request} (tacit : request.Plain) :
    emulator.discard.own ++ emulator.noted request =
      (emulator.answer request).visible.own ++ (emulator.answer request).emulator.discard.own := by
  have later := plain.answer tacit
  cases emulator with
  | lost random => exact calm.elim
  | busy session =>
    have own : (busy session).discard.own = session.trace.own := Session.own_finish plain.1
    rw [own]
    cases request with
    | work count =>
      have worked : (busy (session.work count)).discard.own = (session.work count).trace.own :=
        Session.own_finish later.1
      exact (Session.own_work plain.1 count).symm.trans worked.symm
    | stop =>
      have visible : ((busy session).answer .stop).visible =
          session.finish.trace ++ [.logged .stopped] := by
        rw [answer, stop_of_calm calm]
        rfl
      have handed : ((busy session).answer .stop).emulator.discard = [] := by
        rw [answer, stop_of_calm calm]
        rfl
      rw [visible, handed, Trace.own_append, Session.own_finish plain.1]
      exact (List.append_nil _).symm
    | subscribe | load | step | start => exact (List.append_nil _).trans own.symm
  | atHand machine =>
    cases request with
    | load rom =>
      have logged : ((atHand machine).answer (.load rom)).visible.own =
          (machine.load rom).trace.own := rfl
      rw [logged, machine.own_load]
      exact (List.append_nil _).symm
    | step =>
      have begun : machine.begin.Plain := Machine.plain_begin plain
      exact (Machine.own_cycle begun).symm.trans (List.append_nil _).symm
    | start refusal =>
      cases refusal with
      | some cause => rfl
      | none =>
        have started : (busy (Session.start machine)).discard.own =
            (machine.begin.announce (.start machine.begin.state)).trace.own :=
          Session.own_finish later.1
        have begun : machine.begin.Plain := Machine.plain_begin plain
        have silent := (Machine.mute_announce begun (.start machine.begin.state)).own
        exact congrArg ([.started] ++ ·) (started.trans silent).symm
    | subscribe | work | stop => rfl

theorem own_visible {emulator : Emulator} (calm : emulator.Calm) (plain : emulator.Plain)
    {requests : List Request} (quiet : ∀ request ∈ requests, request.Calm)
    (tacit : ∀ request ∈ requests, request.Plain) :
    emulator.discard.own ++ emulator.journal requests = (emulator.visible requests).own := by
  induction requests generalizing emulator with
  | nil => exact List.append_nil _
  | cons request rest ih =>
    have first : request ∈ request :: rest := List.mem_cons_self
    have later := ih (calm.answer (quiet request first)) (plain.answer (tacit request first))
      (fun other member => quiet other (List.mem_cons_of_mem _ member))
      fun other member => tacit other (List.mem_cons_of_mem _ member)
    rw [journal, visible, Trace.own_append, ← List.append_assoc,
      own_answer calm plain (tacit request first), List.append_assoc, later]

end Emulator
end ChipEight
