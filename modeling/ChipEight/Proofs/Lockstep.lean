import ChipEight.Proofs.Aside
import ChipEight.Proofs.Progress
import ChipEight.Proofs.Quiet

/-! Two machines side by side. They may differ in one of the things that they are given. As long as
no instruction looks at that, whatever is asked of both comes to the same. -/
namespace ChipEight

namespace Machine

def Spares (aside : Aside) (machine : Machine) : Prop :=
  ∀ opcode, machine.state.memory.word machine.state.pc.toNat = .ok opcode → ¬ aside.Concerns opcode

/-- Two machines that have all in common but what is put aside and what their observers have
heard. No observer panics any more. -/
structure Agree (aside : Aside) (first second : Machine) : Prop where
  state : aside.view first.state = aside.view second.state
  begun : first.begun = second.begun
  audience : first.observers.length = second.observers.length
  keys : aside ≠ .keys → first.keypad.upcoming = second.keypad.upcoming
  bytes : aside ≠ .bytes → first.random.upcoming = second.random.upcoming
  policy : aside ≠ .policy → first.config.machineCode = second.config.machineCode
  quiet : first.Quiet
  otherQuiet : second.Quiet

variable {aside : Aside} {first second : Machine}

theorem Spares.touches (spared : first.Spares aside) {instruction : Instruction}
    (found : first.state.instruction = .ok instruction) :
    aside.touches instruction.kind = false := by
  obtain ⟨opcode, word, known, -⟩ := State.word_of_instruction found
  rw [← Bool.not_eq_true]
  exact fun touched => spared opcode word (Aside.concerns_of_touches known touched)

theorem spares_nothing (machine : Machine) : machine.Spares .nothing :=
  fun _ _ concerned => concerned

theorem Agree.round (agree : first.Agree aside second) : first.round = second.round := by
  funext event
  rw [Machine.round, Machine.round, agree.audience]

theorem Agree.heard {later after : Machine} (agree : first.Agree aside second)
    (same : later.unheard = first.unheard) (otherSame : after.unheard = second.unheard)
    (quiet : later.Quiet) (otherQuiet : after.Quiet) : later.Agree aside after where
  state := by
    rw [state_of_unheard_eq same, state_of_unheard_eq otherSame]
    exact agree.state
  begun := by
    rw [begun_of_unheard_eq same, begun_of_unheard_eq otherSame]
    exact agree.begun
  audience := by
    rw [length_observers_of_unheard_eq same, length_observers_of_unheard_eq otherSame]
    exact agree.audience
  keys shared := by
    rw [unheard_congr same Machine.keypad fun _ => rfl,
      unheard_congr otherSame Machine.keypad fun _ => rfl]
    exact agree.keys shared
  bytes shared := by
    rw [unheard_congr same Machine.random fun _ => rfl,
      unheard_congr otherSame Machine.random fun _ => rfl]
    exact agree.bytes shared
  policy shared := by
    rw [unheard_congr same Machine.config fun _ => rfl,
      unheard_congr otherSame Machine.config fun _ => rfl]
    exact agree.policy shared
  quiet := quiet
  otherQuiet := otherQuiet

theorem Agree.begin (agree : first.Agree aside second) :
    first.begin.Agree aside second.begin := by
  cases begun : first.begun with
  | true =>
    rw [begin_of_begun begun, begin_of_begun (agree.begun.symm.trans begun)]
    exact agree
  | false =>
    rw [begin_of_not_begun begun, begin_of_not_begun (agree.begun.symm.trans begun)]
    refine ⟨?_, rfl, agree.audience, agree.keys, agree.bytes, agree.policy, agree.quiet,
      agree.otherQuiet⟩
    have moved :=
      congrArg (fun state : State => { state with pc := State.programStart }) agree.state
    exact (aside.view_pc first.state _).trans (moved.trans (aside.view_pc second.state _).symm)

theorem Agree.poll (agree : first.Agree aside second) : first.poll.Agree aside second.poll where
  state := by
    have state := agree.state
    cases aside with
    | keys => exact state
    | nothing | bytes | policy =>
      have same : first.state = second.state := state
      have keys : first.keypad.current = second.keypad.current :=
        congrFun (agree.keys (by simp)) 0
      rw [Machine.poll, Machine.poll, same, keys]
  begun := agree.begun
  audience := agree.audience
  keys shared := by
    funext polls
    have upcoming := congrFun (agree.keys shared) (polls + 1)
    rw [← Keypad.upcoming_polled, ← Keypad.upcoming_polled] at upcoming
    exact upcoming
  bytes := agree.bytes
  policy := agree.policy
  quiet := agree.quiet
  otherQuiet := agree.otherQuiet

theorem Agree.attempt (agree : first.Agree aside second) (spared : first.Spares aside) :
    aside.Matches first.attempt.result second.attempt.result ∧
      first.attempt.tookByte = second.attempt.tookByte :=
  Aside.matches_attempt agree.poll.state (fun _ found => spared.touches found) agree.policy
    fun shared => congrFun (agree.bytes shared) 0

theorem Agree.commit (agree : first.Agree aside second) {made other : State}
    (same : aside.view made = aside.view other)
    (took : first.attempt.tookByte = second.attempt.tookByte) :
    (first.commit made).Agree aside (second.commit other) where
  state := same
  begun := agree.begun
  audience := agree.audience
  keys := agree.poll.keys
  bytes shared := by
    rw [Machine.commit, Machine.commit, took]
    funext taken
    dsimp only
    split
    · rw [RandomSource.upcoming_advance, RandomSource.upcoming_advance, agree.bytes shared]
    · rw [agree.bytes shared]
  policy := agree.policy
  quiet := agree.quiet
  otherQuiet := agree.otherQuiet

end Machine

structure Step.Agree (aside : Aside) (first second : Step) : Prop where
  machine : first.machine.Agree aside second.machine
  outcome : first.outcome = second.outcome
  unbroken : ∀ cause, first.outcome ≠ .panicked cause
  events : aside.blur first.trace.events = aside.blur second.trace.events

namespace Machine
variable {aside : Aside} {first second : Machine}

theorem Agree.announce (agree : first.Agree aside second) {event other : Event}
    (same : event.map aside.view = other.map aside.view) :
    (first.announce event).Agree aside (second.announce other) := by
  obtain ⟨done, events, kept, quiet⟩ := tells_announce agree.quiet event
  obtain ⟨otherDone, otherEvents, otherKept, otherQuiet⟩ := tells_announce agree.otherQuiet other
  refine ⟨agree.heard kept otherKept quiet otherQuiet, done.trans otherDone.symm, ?_, ?_⟩
  · rw [done]
    nofun
  · rw [events, otherEvents, aside.blur_rounds, aside.blur_rounds, agree.round]
    exact congrArg (fun event => [event].flatMap second.round) same

theorem Agree.cycle (agree : first.Agree aside second) (spared : first.Spares aside) :
    first.cycle.Agree aside second.cycle := by
  obtain ⟨results, took⟩ := agree.attempt spared
  cases result : first.attempt.result with
  | error fault =>
    cases otherResult : second.attempt.result with
    | ok other =>
      rw [result, otherResult] at results
      contradiction
    | error cause =>
      rw [result, otherResult] at results
      obtain rfl : fault = cause := results
      rw [cycle_of_error result, cycle_of_error otherResult]
      refine ⟨agree.poll, rfl, nofun, ?_⟩
      rw [Trace.events_logged, Trace.events_logged]
  | ok made =>
    cases otherResult : second.attempt.result with
    | error cause =>
      rw [result, otherResult] at results
      contradiction
    | ok other =>
      rw [result, otherResult] at results
      obtain ⟨done, events, same, quiet⟩ := cycle_of_quiet agree.quiet result
      obtain ⟨otherDone, otherEvents, otherSame, otherQuiet⟩ :=
        cycle_of_quiet agree.otherQuiet otherResult
      have alike : aside.view made = aside.view other := results
      have settled : aside.view made.settled = aside.view other.settled := by
        rw [← aside.view_settled, alike, aside.view_settled]
      refine ⟨(agree.commit settled took).heard same otherSame quiet otherQuiet,
        done.trans otherDone.symm, ?_, ?_⟩
      · rw [done]
        nofun
      · rw [events, otherEvents, aside.blur_rounds, aside.blur_rounds, ← aside.view_happenings,
          ← aside.view_happenings, alike, agree.round]

end Machine

structure Session.Agree (aside : Aside) (first second : Session) : Prop where
  machine : first.machine.Agree aside second.machine
  ending : first.ending = second.ending
  unbroken : ∀ cause, first.ending ≠ some (.panicked cause)
  events : aside.blur first.trace.events = aside.blur second.trace.events

theorem Session.Agree.behind {aside : Aside} {first second : Session} {trace other : Trace}
    (agree : first.Agree aside second)
    (told : aside.blur trace.events = aside.blur other.events) :
    Session.Agree aside { first with trace := trace ++ first.trace }
      { second with trace := other ++ second.trace } where
  machine := agree.machine
  ending := agree.ending
  unbroken := agree.unbroken
  events := by
    rw [Trace.events_append, Trace.events_append, aside.blur_append, aside.blur_append, told,
      agree.events]

namespace Machine
variable {aside : Aside} {first second : Machine}

theorem Agree.halt (agree : first.Agree aside second) (fault : Fault) :
    (first.halt fault).Agree aside (second.halt fault) := by
  obtain ⟨ending, events, same, quiet⟩ := halt_of_quiet agree.quiet fault
  obtain ⟨otherEnding, otherEvents, otherSame, otherQuiet⟩ := halt_of_quiet agree.otherQuiet fault
  refine ⟨agree.heard same otherSame quiet otherQuiet, ending.trans otherEnding.symm, ?_, ?_⟩
  · rw [ending]
    exact fun cause panicked => Ending.noConfusion (Option.some.inj panicked)
  · rw [events, otherEvents, aside.blur_rounds, aside.blur_rounds, agree.round]
    exact congrArg (fun state => [Event.fault fault, .stop state].flatMap second.round) agree.state

theorem Agree.run (agree : first.Agree aside second) (count : Nat)
    (spared : ∀ tried ∈ first.tries count, tried.Spares aside) :
    (first.run count).Agree aside (second.run count) := by
  induction count generalizing first second with
  | zero => exact ⟨agree, rfl, nofun, rfl⟩
  | succ count ih =>
    have cycled := agree.cycle (spared first List.mem_cons_self)
    rw [Machine.run, Machine.run, ← cycled.outcome]
    cases outcome : first.cycle.outcome with
    | done =>
      have later : ∀ tried ∈ first.cycle.machine.tries count, tried.Spares aside := by
        intro tried member
        apply spared
        rw [tries, outcome]
        exact List.mem_cons_of_mem _ member
      exact (ih cycled.machine later).behind cycled.events
    | failed fault => exact (cycled.machine.halt fault).behind cycled.events
    | panicked cause => exact absurd outcome (cycled.unbroken cause)

theorem Agree.load (agree : first.Agree aside second) (rom : List UInt8) :
    (first.load rom).Agree aside (second.load rom) := by
  unfold Machine.load
  split
  · exact ⟨agree, rfl, nofun, rfl⟩
  · cases State.loaded rom with
    | error fault => exact ⟨agree, rfl, nofun, rfl⟩
    | ok state =>
      refine ⟨?_, rfl, nofun, rfl⟩
      exact ⟨rfl, rfl, agree.audience, agree.keys, agree.bytes, agree.policy, agree.quiet,
        agree.otherQuiet⟩

theorem Agree.subscribe (agree : first.Agree aside second) {observer : Observer}
    (calm : observer.Calm) :
    Agree aside { first with observers := first.observers ++ [observer] }
      { second with observers := second.observers ++ [observer] } where
  state := agree.state
  begun := agree.begun
  audience := by rw [List.length_append, List.length_append, agree.audience]
  keys := agree.keys
  bytes := agree.bytes
  policy := agree.policy
  quiet other member := (List.mem_append.mp member).elim (agree.quiet other)
    fun last => List.mem_singleton.mp last ▸ calm.quiet
  otherQuiet other member := (List.mem_append.mp member).elim (agree.otherQuiet other)
    fun last => List.mem_singleton.mp last ▸ calm.quiet

theorem Agree.start (agree : first.Agree aside second) :
    (Session.start first).Agree aside (Session.start second) := by
  have state : (Event.start first.begin.state).map aside.view =
      (Event.start second.begin.state).map aside.view := congrArg Event.start agree.begin.state
  have started := agree.begin.announce state
  have done := (tells_announce agree.begin.quiet (.start first.begin.state)).done
  unfold Session.start
  dsimp only
  rw [← started.outcome, done]
  exact ⟨started.machine, rfl, nofun, started.events⟩

end Machine

namespace Session
variable {aside : Aside} {first second : Session}

theorem Agree.work (agree : first.Agree aside second) (count : Nat)
    (spared : ∀ tried ∈ first.tries count, tried.Spares aside) :
    (first.work count).Agree aside (second.work count) := by
  unfold Session.work
  rw [← agree.ending]
  cases ending : first.ending with
  | some ended => exact agree
  | none =>
    have later : ∀ tried ∈ first.machine.tries count, tried.Spares aside := by
      intro tried member
      apply spared
      simp only [tries, ending]
      exact member
    exact (agree.machine.run count later).behind agree.events

theorem Agree.finish (agree : first.Agree aside second) :
    first.finish.Agree aside second.finish := by
  unfold Session.finish
  rw [← agree.ending]
  cases ending : first.ending with
  | some ended =>
    refine ⟨agree.machine, rfl, ?_, agree.events⟩
    cases ended with
    | faulted fault => nofun
    | panicked cause => exact absurd ending (agree.unbroken cause)
  | none =>
    have state : (Event.stop first.machine.state).map aside.view =
        (Event.stop second.machine.state).map aside.view :=
      congrArg Event.stop agree.machine.state
    obtain ⟨machine, outcome, unbroken, events⟩ := agree.machine.announce state
    refine ⟨machine, outcome, unbroken, ?_⟩
    rw [Trace.events_append, Trace.events_append, aside.blur_append, aside.blur_append, events,
      agree.events]

end Session

inductive Emulator.Agree (aside : Aside) : Emulator → Emulator → Prop where
  | atHand {first second : Machine} (agree : first.Agree aside second) :
      Agree aside (.atHand first) (.atHand second)
  | busy {first second : Session} (agree : first.Agree aside second) :
      Agree aside (.busy first) (.busy second)

structure Reply.Agree (aside : Aside) (first second : Reply) : Prop where
  emulator : first.emulator.Agree aside second.emulator
  outcome : first.outcome = second.outcome
  events : aside.blur first.events = aside.blur second.events

namespace Emulator
variable {aside : Aside} {first second : Emulator}

theorem Agree.answer (agree : first.Agree aside second) {request : Request} (calm : request.Calm)
    (spared : ∀ tried, .tried tried ∈ first.deeds request → tried.Spares aside) :
    (first.answer request).Agree aside (second.answer request) := by
  cases agree with
  | @busy first second agree =>
    cases request with
    | work count =>
      have later : ∀ tried ∈ first.tries count, tried.Spares aside :=
        fun tried member => spared tried (List.mem_map_of_mem member)
      exact ⟨.busy (agree.work count later), rfl, rfl⟩
    | stop =>
      obtain ⟨machine, outcome, unbroken, events⟩ := agree.finish
      have otherUnbroken : ∀ cause, second.finish.outcome ≠ .panicked cause := outcome ▸ unbroken
      rw [Emulator.answer, Emulator.answer, stop_of_unbroken unbroken,
        stop_of_unbroken otherUnbroken]
      refine ⟨.atHand machine, outcome, ?_⟩
      rw [Reply.events, Reply.events, aside.blur_append, aside.blur_append]
      exact congrArg (· ++ aside.blur (Trace.events [.logged .stopped])) events
    | subscribe | load | step | start => exact ⟨.busy agree, rfl, rfl⟩
  | @atHand first second agree =>
    cases request with
    | subscribe observer => exact ⟨.atHand (agree.subscribe calm), rfl, rfl⟩
    | load rom =>
      obtain ⟨machine, outcome, -, events⟩ := agree.load rom
      exact ⟨.atHand machine, outcome, events⟩
    | step =>
      have own : Deed.tried first.begin ∈ (Emulator.atHand first).deeds .step :=
        List.mem_cons_of_mem _ List.mem_cons_self
      obtain ⟨machine, outcome, -, events⟩ := agree.begin.cycle (spared _ own)
      exact ⟨.atHand machine, outcome, events⟩
    | start refusal =>
      cases refusal with
      | some cause => exact ⟨.atHand agree, rfl, rfl⟩
      | none => exact ⟨.busy agree.start, rfl, rfl⟩
    | work | stop => exact ⟨.atHand agree, rfl, rfl⟩

end Emulator

/-- What can be seen of an emulator once it has answered a request. -/
structure Sight where
  outcome : Outcome
  told : List (Nat × Event)
  /-- What a worker has told by then. -/
  unreported : List (Nat × Event)
  state? : Option State
  isRunning : Bool
  isHalted : Bool

def Sight.blur (aside : Aside) (sight : Sight) : Sight where
  outcome := sight.outcome
  told := aside.blur sight.told
  unreported := aside.blur sight.unreported
  state? := sight.state?.map aside.view
  isRunning := sight.isRunning
  isHalted := sight.isHalted

theorem Sight.blur_of_whole {aside : Aside} (whole : aside.view = id) (sight : Sight) :
    sight.blur aside = sight := by
  obtain ⟨outcome, events, unreported, state?, running, halted⟩ := sight
  simp only [blur, Aside.blur_of_whole whole, whole, Option.map_id, id]

def Reply.sight (reply : Reply) : Sight where
  outcome := reply.outcome
  told := reply.events
  unreported := reply.emulator.unreported
  state? := reply.emulator.machine?.map Machine.state
  isRunning := reply.emulator.isRunning
  isHalted := reply.emulator.isHalted

theorem Reply.Agree.sight {aside : Aside} {first second : Reply}
    (agree : first.Agree aside second) : first.sight.blur aside = second.sight.blur aside := by
  obtain ⟨emulator, outcome, trace, worker⟩ := first
  obtain ⟨otherEmulator, otherOutcome, otherTrace, otherWorker⟩ := second
  obtain ⟨emulators, outcomes, events⟩ := agree
  unfold Reply.sight Sight.blur
  rw [outcomes, events]
  cases emulators with
  | atHand agree =>
    simp only [Emulator.machine?, Option.map_some, agree.state, Emulator.unreported,
      Emulator.isRunning, Emulator.isHalted]
  | busy agree =>
    simp only [Emulator.machine?, Option.map_some, agree.machine.state, Emulator.unreported,
      Emulator.isRunning, Emulator.isHalted, agree.events, agree.ending]

namespace Emulator

def sights (emulator : Emulator) : List Request → List Sight
  | [] => []
  | request :: rest =>
    (emulator.answer request).sight :: (emulator.answer request).emulator.sights rest

theorem Agree.after {aside : Aside} {first second : Emulator} (agree : first.Agree aside second)
    {requests : List Request} (calm : ∀ request ∈ requests, request.Calm)
    (spared : ∀ tried, .tried tried ∈ first.history requests → tried.Spares aside) :
    (first.after requests).Agree aside (second.after requests) := by
  induction requests generalizing first second with
  | nil => exact agree
  | cons request rest ih =>
    have answered := agree.answer (calm request List.mem_cons_self)
      fun tried member => spared tried (List.mem_append_left _ member)
    exact ih answered.emulator (fun other member => calm other (List.mem_cons_of_mem _ member))
      fun tried member => spared tried (List.mem_append_right _ member)

theorem Agree.sights {aside : Aside} {first second : Emulator} (agree : first.Agree aside second)
    {requests : List Request} (calm : ∀ request ∈ requests, request.Calm)
    (spared : ∀ tried, .tried tried ∈ first.history requests → tried.Spares aside) :
    (first.sights requests).map (Sight.blur aside) =
      (second.sights requests).map (Sight.blur aside) := by
  induction requests generalizing first second with
  | nil => rfl
  | cons request rest ih =>
    have answered := agree.answer (calm request List.mem_cons_self)
      fun tried member => spared tried (List.mem_append_left _ member)
    rw [Emulator.sights, Emulator.sights, List.map_cons, List.map_cons, answered.sight]
    congr 1
    exact ih answered.emulator (fun other member => calm other (List.mem_cons_of_mem _ member))
      fun tried member => spared tried (List.mem_append_right _ member)

/-- If what is put aside cannot be seen, all that can be seen is the same. -/
theorem Agree.sights_eq {aside : Aside} {first second : Emulator}
    (agree : first.Agree aside second) (whole : aside.view = id) {requests : List Request}
    (calm : ∀ request ∈ requests, request.Calm)
    (spared : ∀ tried, .tried tried ∈ first.history requests → tried.Spares aside) :
    first.sights requests = second.sights requests := by
  have plain : Sight.blur aside = id := funext (Sight.blur_of_whole whole)
  have blurred := agree.sights calm spared
  rwa [plain, List.map_id, List.map_id] at blurred

/-- Keys and random bytes act only through the instructions that read them. While none is tried,
machines with the same state go on alike on other keys, but for the keys that they store,
and in the same way on other random bytes. -/
theorem inputs_act_where_read {first second : Machine} (state : first.state = second.state)
    (begun : first.begun = second.begun)
    (audience : first.observers.length = second.observers.length)
    (policy : first.config.machineCode = second.config.machineCode)
    (quiet : first.Quiet) (otherQuiet : second.Quiet) {requests : List Request}
    (calm : ∀ request ∈ requests, request.Calm) :
    (first.random.upcoming = second.random.upcoming →
      (∀ tried, .tried tried ∈ (atHand first).history requests → tried.Spares .keys) →
      ((atHand first).sights requests).map (Sight.blur .keys) =
        ((atHand second).sights requests).map (Sight.blur .keys)) ∧
    (first.keypad.upcoming = second.keypad.upcoming →
      (∀ tried, .tried tried ∈ (atHand first).history requests → tried.Spares .bytes) →
      (atHand first).sights requests = (atHand second).sights requests) := by
  refine ⟨?_, ?_⟩
  · intro bytes spared
    have agree : first.Agree .keys second :=
      ⟨congrArg State.keyless state, begun, audience, fun own => absurd rfl own, fun _ => bytes,
        fun _ => policy, quiet, otherQuiet⟩
    exact (Agree.atHand agree).sights calm spared
  · intro keys spared
    have agree : first.Agree .bytes second :=
      ⟨state, begun, audience, fun _ => keys, fun own => absurd rfl own, fun _ => policy, quiet,
        otherQuiet⟩
    exact (Agree.atHand agree).sights_eq rfl calm spared

/-- A register is set and then a return fails, on other keys or other random bytes as well. -/
theorem failing_return_reads_nothing :
    let loaded := ((Machine.create Config.default (.constant Keys.released) (.ofArray #[])).load
      [0x60, 0x05, 0x00, 0xEE]).machine
    let first := { loaded with observers := [.silent] }
    let held := { first with keypad := .ofList Keys.released [.ofMask 1, .ofMask 2] }
    let drawing := { first with random := .ofArray #[7] }
    let requests := [.step, .step]
    ((atHand first).sights requests).map (Sight.blur .keys) =
        ((atHand held).sights requests).map (Sight.blur .keys) ∧
      (atHand first).sights requests = (atHand drawing).sights requests := by
  intro loaded first held drawing requests
  have quiet : ∀ observer ∈ [Observer.silent], observer.Quiet := by
    simp [Observer.calm_silent.quiet]
  have calm : ∀ request ∈ requests, request.Calm := by simp [requests, Request.Calm]
  have words : ∀ tried, .tried tried ∈ (atHand first).history requests → ∀ opcode,
      tried.state.memory.word tried.state.pc.toNat = .ok opcode →
      opcode = 0x6005 ∨ opcode = 0x00EE := by
    intro tried member opcode word
    have listed : Deed.tried tried ∈
        [.begun, .tried first.begin, .begun, .tried first.step.machine.begin] := member
    have read := congrArg Except.toOption word
    simp only [List.mem_cons, Deed.tried.injEq, reduceCtorEq, false_or, List.not_mem_nil,
      or_false] at listed
    obtain same | same := listed
    · have fetched : (first.begin.state.memory.word first.begin.state.pc.toNat).toOption =
          some 0x6005 := by decide +kernel
      rw [same, fetched] at read
      exact .inl (Option.some.inj read).symm
    · have fetched : (first.step.machine.begin.state.memory.word
          first.step.machine.begin.state.pc.toNat).toOption = some 0x00EE := by decide +kernel
      rw [same, fetched] at read
      exact .inr (Option.some.inj read).symm
  obtain ⟨keyless, -⟩ :=
    @inputs_act_where_read first held rfl rfl rfl rfl quiet quiet requests calm
  obtain ⟨-, byteless⟩ :=
    @inputs_act_where_read first drawing rfl rfl rfl rfl quiet quiet requests calm
  refine ⟨keyless rfl ?_, byteless rfl ?_⟩
  · intro tried member opcode word
    obtain rfl | rfl := words tried member opcode word <;> simp [Aside.Concerns]
  · intro tried member opcode word
    obtain rfl | rfl := words tried member opcode word <;> simp [Aside.Concerns]

end Emulator
end ChipEight
