import ChipEight.Proofs.Announcements
import ChipEight.Proofs.Calls
import ChipEight.Proofs.Journal
import Mathlib.Data.List.Chain

/-! The entries of a run, one after the other. There is one for every cycle whose instruction could
be decoded, and it shows the machine as that cycle found it. While no cycle fails, each is found
as the one before has left it, unless another program has been loaded in between. -/
namespace ChipEight

def Record.isTrace (record : Record) : Bool := record.level == .trace

def Deed.tried? : Deed → Option Machine
  | tried machine => some machine
  | subscribed _ | loaded _ | begun => none

namespace Machine

theorem filter_entries (machine : Machine) :
    machine.entries.filter Record.isTrace = machine.state.entry?.toList := by
  rw [entries, State.entry?, warning?]
  cases machine.state.instruction with
  | error fault => rfl
  | ok instruction =>
    dsimp only
    split <;> rfl

private theorem filter_report (tried : List Machine) :
    (report tried).filter Record.isTrace = tried.filterMap fun machine => machine.state.entry? := by
  have alarm : (tried.getLast?.bind alarm?).toList.filter Record.isTrace = [] := by
    cases tried.getLast? with
    | none => rfl
    | some last =>
      simp only [Option.bind_some, alarm?]
      split <;> rfl
  rw [report, List.filter_append, alarm, List.append_nil, List.filter_flatMap,
    List.filterMap_eq_flatMap_toList]
  simp only [filter_entries]

end Machine

theorem State.instruction_eq_ok_iff {state : State} {instruction : Instruction} :
    state.instruction = .ok instruction ↔ ∃ opcode kind,
      state.memory.word state.pc.toNat = .ok opcode ∧ Kind.ofOpcode? opcode = some kind ∧
        instruction = { Operands.ofOpcode opcode with
          opcode, address := state.pc, segment := segmentOf opcode, kind } := by
  constructor
  · intro found
    obtain ⟨opcode, word, known, -⟩ := word_of_instruction found
    have same := found.symm.trans (instruction_eq_of_word word known)
    exact ⟨opcode, instruction.kind, word, known, Except.ok.inj same⟩
  · rintro ⟨opcode, kind, word, known, rfl⟩
    exact instruction_eq_of_word word known

namespace Machine

/-- What the next cycle logs, by the word under the counter. A cycle without an entry fails. -/
structure Recorded (machine : Machine) : Prop where
  entry : ∀ record, machine.state.entry? = some record ↔ ∃ opcode kind,
    machine.state.memory.word machine.state.pc.toNat = .ok opcode ∧
      Kind.ofOpcode? opcode = some kind ∧
      record = .executing
        { Operands.ofOpcode opcode with
          opcode, address := machine.state.pc, segment := segmentOf opcode, kind }
        machine.state.v machine.state.i
  warning : ∀ record, machine.warning? = some record ↔ ∃ opcode,
    machine.state.memory.word machine.state.pc.toNat = .ok opcode ∧
      Kind.ofOpcode? opcode = some .machineCode ∧ machine.config.machineCode = .ignore ∧
      record = .machineCodeIgnored (Operands.ofOpcode opcode).nnn machine.state.pc
  unwritten : machine.state.entry? = none → ∃ fault, machine.cycle.outcome = .failed fault

theorem recorded (machine : Machine) : machine.Recorded where
  entry record := by
    constructor
    · intro logged
      unfold State.entry? at logged
      split at logged
      · contradiction
      · next instruction found =>
        obtain ⟨opcode, kind, word, known, rfl⟩ := State.instruction_eq_ok_iff.mp found
        exact ⟨opcode, kind, word, known, (Option.some.inj logged).symm⟩
    · rintro ⟨opcode, kind, word, known, rfl⟩
      rw [State.entry?, State.instruction_eq_of_word word known]
  warning record := by
    constructor
    · intro logged
      unfold warning? at logged
      split at logged
      · contradiction
      · next instruction found =>
        split at logged
        · next passed =>
          obtain ⟨opcode, kind, word, known, rfl⟩ := State.instruction_eq_ok_iff.mp found
          obtain ⟨rfl, ignores⟩ := passed
          exact ⟨opcode, word, known, ignores, (Option.some.inj logged).symm⟩
        · contradiction
    · rintro ⟨opcode, word, known, ignores, rfl⟩
      rw [warning?, State.instruction_eq_of_word word known]
      exact if_pos ⟨rfl, ignores⟩
  unwritten missing := by
    unfold State.entry? at missing
    split at missing
    · next fault found =>
      have polled : machine.poll.state.instruction = .error fault := found
      have failed : machine.attempt.result = .error fault := by
        rw [attempt, State.attempt_eq, polled]
        rfl
      exact ⟨fault, congrArg Step.outcome (cycle_of_error failed)⟩
    · contradiction

/-- How the machine came from one cycle to the next: the instruction that the first one has logged
was carried out, or a program was loaded since and begins here. -/
inductive Leads (deeds : List Deed) (first second : Machine) : Prop where
  | executed {instruction : Instruction} {made : State}
      (logged : first.state.entry? =
        some (.executing instruction first.state.v first.state.i))
      (carriedOut : instruction.execute first.config.machineCode first.random.current
        first.poll.state.passed = .ok made)
      (left : second.state = made.settled) : Leads deeds first second
  | loaded {rom : List UInt8} {state : State} (member : .loaded rom ∈ deeds)
      (made : State.loaded rom = .ok state)
      (begins : second.state = { state with pc := State.programStart }) : Leads deeds first second

section
variable {deeds : List Deed} {first second machine other : Machine}

theorem Leads.congr (leads : first.Leads deeds second) (same : other.state = second.state) :
    first.Leads deeds other := by
  cases leads with
  | executed logged carriedOut left => exact .executed logged carriedOut (same.trans left)
  | loaded member made begins => exact .loaded member made (same.trans begins)

theorem Leads.concat (leads : first.Leads deeds second) (deed : Deed) :
    first.Leads (deeds ++ [deed]) second := by
  cases leads with
  | executed logged carriedOut left => exact .executed logged carriedOut left
  | loaded member made begins => exact .loaded (List.mem_append_left _ member) made begins

private theorem leads_of_ok {made : State} (succeeded : first.attempt.result = .ok made)
    (left : second.state = made.settled) : first.Leads deeds second := by
  obtain ⟨instruction, found, -⟩ := State.attempt_eq_ok succeeded
  have stored : first.state.instruction = .ok instruction := found
  have logged : first.state.entry? =
      some (.executing instruction first.state.v first.state.i) := by
    rw [State.entry?, stored]
  exact .executed logged ((result_of_instruction stored).symm.trans succeeded) left

structure Linked (deeds : List Deed) (machine : Machine) : Prop where
  calm : machine.Calm
  chain : (deeds.filterMap Deed.tried?).IsChain (Leads deeds)
  next : ∀ last ∈ (deeds.filterMap Deed.tried?).getLast?, last.Leads deeds machine.begin

structure Smooth (deeds : List Deed) : Prop where
  calm : ∀ observer, .subscribed observer ∈ deeds → observer.Calm
  unfailing : ∀ tried, .tried tried ∈ deeds → ∀ fault, tried.cycle.outcome ≠ .failed fault

theorem Linked.idle {deed : Deed} (linked : machine.Linked deeds) (idle : deed.tried? = none)
    (calm : other.Calm)
    (next : ∀ last : Machine, last.Leads deeds machine.begin →
      last.Leads (deeds ++ [deed]) other.begin) : other.Linked (deeds ++ [deed]) := by
  have same : (deeds ++ [deed]).filterMap Deed.tried? = deeds.filterMap Deed.tried? := by
    simp [idle]
  refine ⟨calm, ?_, ?_⟩
  · rw [same]
    exact linked.chain.imp fun _ _ leads => leads.concat deed
  · rw [same]
    exact fun last member => next last (linked.next last member)

theorem Linked.cycle (linked : machine.Linked deeds) (begun : machine.begun)
    (unfailing : ∀ fault, machine.cycle.outcome ≠ .failed fault) :
    machine.cycle.machine.Linked (deeds ++ [.tried machine]) := by
  have tried : (deeds ++ [Deed.tried machine]).filterMap Deed.tried? =
      deeds.filterMap Deed.tried? ++ [machine] := List.filterMap_append ..
  obtain ⟨made, succeeded⟩ : ∃ made, machine.attempt.result = .ok made := by
    cases result : machine.attempt.result with
    | ok made => exact ⟨made, rfl⟩
    | error fault => exact absurd (congrArg Step.outcome (cycle_of_error result)) (unfailing fault)
  refine ⟨linked.calm.cycle, ?_, ?_⟩
  · rw [tried]
    refine (linked.chain.imp fun _ _ leads => leads.concat _).append (.singleton machine) ?_
    intro last member found present
    obtain rfl : machine = found := by simpa using present
    have leads := linked.next last member
    rw [begin_of_begun begun] at leads
    exact leads.concat _
  · rw [tried, List.getLast?_concat]
    intro last present
    obtain rfl : machine = last := by simpa using present
    have settled := state_cycle_of_calm linked.calm succeeded
    rw [begin_of_begun (machine.begun_cycle.trans begun)]
    exact leads_of_ok succeeded settled

theorem carried_linked : CarriedWhile Smooth Linked where
  front smooth :=
    ⟨fun observer member => smooth.calm observer (List.mem_append_left _ member),
      fun tried member => smooth.unfailing tried (List.mem_append_left _ member)⟩
  subscribed {_ machine observer} smooth linked := by
    have own := smooth.calm observer (List.mem_append_right _ List.mem_cons_self)
    have begun : (machine.withObservers (machine.observers ++ [observer])).begin.state =
        machine.begin.state := by
      rw [begin_withObservers]
      rfl
    exact linked.idle rfl (linked.calm.subscribe own)
      fun last leads => (leads.congr begun).concat _
  loaded _ made linked := by
    refine linked.idle rfl linked.calm fun last _ => ?_
    exact .loaded (List.mem_append_right _ List.mem_cons_self) made rfl
  begun linked := by
    refine linked.idle rfl (calm_begin.mpr linked.calm) fun last leads => ?_
    rw [begin_begin]
    exact leads.concat _
  tried smooth begun linked :=
    linked.cycle begun (smooth.unfailing _ (List.mem_append_right _ List.mem_cons_self))
  heard same linked := by
    have begun := state_of_unheard_eq (begin_of_unheard_eq same)
    exact ⟨calm_of_unheard_eq same linked.calm, linked.chain,
      fun last member => (linked.next last member).congr begun⟩

end
end Machine

namespace Emulator

def attempts (emulator : Emulator) (requests : List Request) : List Machine :=
  (emulator.history requests).filterMap Deed.tried?

private theorem filter_noted (emulator : Emulator) (request : Request) :
    (emulator.noted request).filter Record.isTrace =
      ((emulator.deeds request).filterMap Deed.tried?).filterMap
        fun tried => tried.state.entry? := by
  cases emulator with
  | lost random => cases request <;> rfl
  | busy session =>
    cases request with
    | work count =>
      have tried : ((session.tries count).map Deed.tried).filterMap Deed.tried? =
          session.tries count := by
        rw [List.filterMap_map]
        exact List.filterMap_some
      rw [noted, deeds, tried, Machine.filter_report]
    | subscribe | load | step | start | stop => rfl
  | atHand machine =>
    cases request with
    | load rom =>
      rw [noted, deeds]
      split <;> rfl
    | step =>
      rw [noted, Machine.filter_entries, List.filterMap_eq_flatMap_toList]
      exact (List.append_nil _).symm
    | start refusal => cases refusal <;> rfl
    | subscribe | work | stop => rfl

private theorem filter_journal (emulator : Emulator) (requests : List Request) :
    (emulator.journal requests).filter Record.isTrace =
      (emulator.attempts requests).filterMap fun tried => tried.state.entry? := by
  induction requests generalizing emulator with
  | nil => rfl
  | cons request rest ih =>
    rw [journal, List.filter_append, filter_noted, ih, attempts, attempts, history,
      List.filterMap_append, List.filterMap_append]

private theorem mem_attempts {emulator : Emulator} {requests : List Request} {tried : Machine} :
    tried ∈ emulator.attempts requests ↔ .tried tried ∈ emulator.history requests := by
  rw [attempts, List.mem_filterMap]
  constructor
  · rintro ⟨deed, member, same⟩
    cases deed with
    | tried machine =>
      cases same
      exact member
    | subscribed | loaded | begun => contradiction
  · exact fun member => ⟨.tried tried, member, rfl⟩

/-- What is logged over any requests is what their cycles are to log, and next to it only what was
loaded, started and stopped. There is an entry for every cycle that has found an instruction, in
order, and it shows the registers as they were before. In a run that never fails that is every
cycle, and each entry shows what the instruction of the one before has left, or the beginning of
another program. -/
theorem log_follows_cycles {machine : Machine} (calm : machine.Calm) (plain : machine.Plain)
    {requests : List Request} (quiet : ∀ request ∈ requests, request.Calm)
    (tacit : ∀ request ∈ requests, request.Plain) :
    let log := ((atHand machine).visible requests).own
    let attempts := (atHand machine).attempts requests
    log = (atHand machine).journal requests ∧
    (∀ tried ∈ attempts, tried.Recorded) ∧
    log.filter Record.isTrace = attempts.filterMap (fun tried => tried.state.entry?) ∧
    ((∀ tried ∈ attempts, ∀ fault, tried.cycle.outcome ≠ .failed fault) →
      (log.filter Record.isTrace).map some = attempts.map (fun tried => tried.state.entry?) ∧
      attempts.IsChain (Machine.Leads ((atHand machine).history requests))) := by
  intro log attempts
  have journal : log = (atHand machine).journal requests :=
    ((atHand machine).own_visible calm plain quiet tacit).symm
  have entries : log.filter Record.isTrace =
      attempts.filterMap (fun tried => tried.state.entry?) := by
    rw [journal]
    exact (atHand machine).filter_journal requests
  refine ⟨journal, fun tried _ => tried.recorded, entries, fun unfailing => ⟨?_, ?_⟩⟩
  · have written : ∀ entry ∈ attempts.map (fun tried => tried.state.entry?), entry.isSome := by
      intro entry member
      obtain ⟨tried, present, rfl⟩ := List.mem_map.mp member
      refine Option.isSome_iff_ne_none.mpr fun missing => ?_
      obtain ⟨fault, failed⟩ := tried.recorded.unwritten missing
      exact unfailing tried present fault failed
    rw [entries, List.map_filterMap_some_eq_filter_map_isSome]
    exact List.filter_eq_self.mpr written
  · have smooth : Machine.Smooth ((atHand machine).history requests) :=
      ⟨fun _ => calm_of_subscribed quiet,
        fun tried member => unfailing tried (mem_attempts.mpr member)⟩
    have now : (atHand machine).Holds
        (fun deeds machine => Machine.Smooth deeds → machine.Linked deeds) [] :=
      fun _ => ⟨calm, .nil, nofun⟩
    obtain ⟨final, linked⟩ := (now.after Machine.carried_linked.carried requests).exists_machine
    exact (linked smooth).chain

/-- A step passes over machine code, and a session then sets a register and jumps to where it is. The
observer's remark is left out. -/
theorem log_after_machine_code :
    let talker : Observer := { react := fun _ _ => { records := [.remark .trace "told"] } }
    let loaded := ((Machine.create Config.default (.constant Keys.released) (.ofArray #[])).load
      [0x01, 0x23, 0x61, 0x07, 0x12, 0x04]).machine
    let machine := { loaded with observers := [talker] }
    let requests := [.step, .start none, .work 2, .stop]
    let entry (opcode address : UInt16) (kind : Kind) (v : Registers) : Record :=
      .executing { Operands.ofOpcode opcode with
        opcode, address, segment := segmentOf opcode, kind } v 0
    ((atHand machine).visible requests).own = [
        entry 0x0123 0x200 .machineCode Registers.zero, .machineCodeIgnored 0x123 0x200, .started,
        entry 0x6107 0x202 .setByte Registers.zero,
        entry 0x1204 0x204 .jump (Registers.zero.set 1 7), .stopped] ∧
      ((atHand machine).attempts requests).IsChain
        (Machine.Leads ((atHand machine).history requests)) := by
  intro talker loaded machine requests entry
  have calm : machine.Calm := by
    intro observer member
    rw [List.mem_singleton.mp member]
    exact fun _ _ => rfl
  have plain : machine.Plain := by
    intro observer member
    rw [List.mem_singleton.mp member]
    intro heard event record logged
    rw [List.mem_singleton.mp logged]
    rfl
  have quiet : ∀ request ∈ requests, request.Calm := by simp [requests, Request.Calm]
  have tacit : ∀ request ∈ requests, request.Plain := by simp [requests, Request.Plain]
  have done : ∀ tried ∈ (atHand machine).attempts requests, tried.cycle.outcome = .done := by
    decide +kernel
  obtain ⟨journal, -, -, linked⟩ := log_follows_cycles calm plain quiet tacit
  refine ⟨journal.trans (by decide +kernel), (linked fun tried member fault => ?_).2⟩
  rw [done tried member]
  exact Outcome.noConfusion

end Emulator
end ChipEight
