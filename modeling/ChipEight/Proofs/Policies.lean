import ChipEight.Proofs.Lockstep

namespace ChipEight

namespace Deed

inductive Agree (aside : Aside) : Deed → Deed → Prop where
  | subscribed (observer : Observer) : Agree aside (.subscribed observer) (.subscribed observer)
  | loaded (rom : List UInt8) : Agree aside (.loaded rom) (.loaded rom)
  | begun : Agree aside .begun .begun
  | tried {first second : Machine} (agree : first.Agree aside second) :
      Agree aside (.tried first) (.tried second)

def Spares (aside : Aside) (deed : Deed) : Prop :=
  ∀ machine, deed = .tried machine → machine.Spares aside

end Deed

/-- Two histories agree, deed by deed, up to the first cycle whose instruction looks at what is put
aside. That cycle is still tried on machines that agree; what follows it is left open. -/
inductive Alongside (aside : Aside) : List Deed → List Deed → Prop where
  | nil : Alongside aside [] []
  | cons {deed other : Deed} {rest later : List Deed} (agree : deed.Agree aside other)
      (onward : deed.Spares aside → Alongside aside rest later) :
      Alongside aside (deed :: rest) (other :: later)

namespace Alongside
variable {aside : Aside} {first second rest later : List Deed}

theorem append (front : Alongside aside first second)
    (back : (∀ deed ∈ first, deed.Spares aside) → Alongside aside rest later) :
    Alongside aside (first ++ rest) (second ++ later) := by
  induction front with
  | nil => exact back (by simp)
  | cons agree onward ih =>
    apply Alongside.cons agree
    intro spared
    apply ih spared
    intro others
    exact back (List.forall_mem_cons.mpr ⟨spared, others⟩)

theorem counterpart {tried : Machine}
    (along : Alongside aside (first ++ .tried tried :: rest) second)
    (spared : ∀ deed ∈ first, deed.Spares aside) :
    ∃ past other later, second = past ++ .tried other :: later ∧ past.length = first.length ∧
      tried.Agree aside other := by
  induction first generalizing second with
  | nil =>
    cases along with
    | cons agree onward =>
      cases agree with
      | tried agree => exact ⟨[], _, _, rfl, rfl, agree⟩
  | cons deed others ih =>
    obtain ⟨own, further⟩ := List.forall_mem_cons.mp spared
    cases along with
    | @cons _ same _ following agree onward =>
      obtain ⟨past, other, later, rfl, length, agree⟩ := ih (onward own) further
      exact ⟨same :: past, other, later, rfl, congrArg (· + 1) length, agree⟩

end Alongside

theorem Machine.Agree.symm {aside : Aside} {first second : Machine}
    (agree : first.Agree aside second) : second.Agree aside first where
  state := agree.state.symm
  begun := agree.begun.symm
  audience := agree.audience.symm
  keys shared := (agree.keys shared).symm
  bytes shared := (agree.bytes shared).symm
  policy shared := (agree.policy shared).symm
  quiet := agree.otherQuiet
  otherQuiet := agree.quiet

theorem Machine.Agree.tries {aside : Aside} {first second : Machine}
    (agree : first.Agree aside second) (count : Nat) :
    Alongside aside ((first.tries count).map .tried) ((second.tries count).map .tried) := by
  induction count generalizing first second with
  | zero => exact .nil
  | succ count ih =>
    simp only [Machine.tries, List.map_cons]
    apply Alongside.cons (.tried agree)
    intro spared
    have cycled := agree.cycle (spared first rfl)
    rw [← cycled.outcome]
    cases first.cycle.outcome with
    | done => exact ih cycled.machine
    | failed | panicked => exact .nil

theorem Session.Agree.tries {aside : Aside} {first second : Session}
    (agree : first.Agree aside second) (count : Nat) :
    Alongside aside ((first.tries count).map .tried) ((second.tries count).map .tried) := by
  unfold Session.tries
  rw [← agree.ending]
  cases first.ending with
  | some ended => exact .nil
  | none => exact agree.machine.tries count

namespace Emulator
variable {aside : Aside} {first second : Emulator}

theorem Agree.deeds (agree : first.Agree aside second) (request : Request) :
    Alongside aside (first.deeds request) (second.deeds request) := by
  cases agree with
  | busy agree =>
    cases request with
    | work count => exact agree.tries count
    | subscribe | load | step | start | stop => exact .nil
  | atHand agree =>
    cases request with
    | subscribe observer => exact .cons (.subscribed observer) fun _ => .nil
    | load rom =>
      simp only [Emulator.deeds, (agree.load rom).outcome]
      split
      · exact .cons (.loaded rom) fun _ => .nil
      · exact .nil
    | step => exact .cons .begun fun _ => .cons (.tried agree.begin) fun _ => .nil
    | start refusal =>
      cases refusal with
      | some cause => exact .nil
      | none => exact .cons .begun fun _ => .nil
    | work | stop => exact .nil

theorem Agree.history (agree : first.Agree aside second) {requests : List Request}
    (calm : ∀ request ∈ requests, request.Calm) :
    Alongside aside (first.history requests) (second.history requests) := by
  induction requests generalizing first second with
  | nil => exact .nil
  | cons request rest ih =>
    obtain ⟨own, others⟩ := List.forall_mem_cons.mp calm
    rw [Emulator.history, Emulator.history]
    apply (agree.deeds request).append
    intro spared
    have answered := agree.answer own fun tried member => spared _ member tried rfl
    exact ih answered.emulator others

end Emulator

theorem Kind.ofOpcode?_eq_machineCode (opcode : UInt16) :
    ofOpcode? opcode = some machineCode ↔ Aside.policy.Concerns opcode := by
  constructor
  · intro known
    exact Aside.concerns_of_touches known rfl
  · rintro ⟨leading, notClear, notReturn⟩
    rw [ofOpcode?_eq_some_iff]
    simp only [covers, pattern, Pattern.fits, Digit.fits, digitAt]
    simp [notClear, notReturn]
    omega

namespace Machine
variable {machine lenient strict : Machine} {opcode : UInt16}

def CallsOut (machine : Machine) (opcode : UInt16) : Prop :=
  machine.state.memory.word machine.state.pc.toNat = .ok opcode ∧ Aside.policy.Concerns opcode

theorem CallsOut.instruction (calls : machine.CallsOut opcode) :
    machine.state.instruction = .ok { Operands.ofOpcode opcode with
      opcode, address := machine.state.pc, segment := segmentOf opcode, kind := .machineCode } :=
  State.instruction_eq_of_word calls.1 ((Kind.ofOpcode?_eq_machineCode opcode).mpr calls.2)

theorem CallsOut.rejected (calls : machine.CallsOut opcode)
    (rejects : machine.config.machineCode = .reject) :
    machine.attempt.result = .error (.unsupported opcode machine.state.pc) := by
  rw [result_of_instruction calls.instruction, rejects]
  rfl

theorem CallsOut.ignored (calls : machine.CallsOut opcode)
    (ignores : machine.config.machineCode = .ignore) :
    machine.attempt.result = .ok machine.poll.state.passed := by
  rw [result_of_instruction calls.instruction, ignores]
  rfl

theorem CallsOut.tookByte (calls : machine.CallsOut opcode) :
    machine.attempt.tookByte = false := by
  have found : machine.poll.state.instruction = machine.state.instruction := rfl
  rw [attempt, Attempt.takesByte_of_instruction (found.trans calls.instruction)]
  rfl

/-- What the next cycle comes to on a lenient machine and on a strict one in the same state. -/
structure Sides (lenient strict : Machine) : Prop where
  state : lenient.state = strict.state
  alike : lenient.Spares .policy →
    lenient.cycle.outcome = strict.cycle.outcome ∧
    lenient.cycle.machine.state = strict.cycle.machine.state ∧
    lenient.cycle.trace.events = strict.cycle.trace.events
  rejected : ∀ opcode, strict.CallsOut opcode →
    strict.cycle.outcome = .failed (.unsupported opcode strict.state.pc) ∧
    strict.cycle.machine = { strict with
      state := { strict.state with keys := strict.keypad.current }
      keypad := strict.keypad.polled } ∧
    strict.cycle.trace.events = []
  ignored : ∀ opcode, lenient.CallsOut opcode →
    lenient.cycle.outcome = .done ∧
    lenient.cycle.machine.state =
      State.tick { lenient.state with
        pc := lenient.state.pc + 2, keys := lenient.keypad.current, drawFlag := false } ∧
    lenient.cycle.machine.keypad = lenient.keypad.polled ∧
    lenient.cycle.machine.random = lenient.random

theorem Agree.sides (agree : lenient.Agree .policy strict)
    (ignores : lenient.config.machineCode = .ignore)
    (rejects : strict.config.machineCode = .reject) : lenient.Sides strict where
  state := agree.state
  alike spared := by
    obtain ⟨machine, outcome, -, events⟩ := agree.cycle spared
    rw [Aside.blur_of_whole rfl, Aside.blur_of_whole rfl] at events
    exact ⟨outcome, machine.state, events⟩
  rejected opcode calls := by
    have failed := calls.rejected rejects
    refine ⟨?_, ?_, events_cycle_of_error failed⟩
    · rw [cycle_of_error failed]
    · rw [cycle_of_error failed]
      rfl
  ignored opcode calls := by
    obtain ⟨done, -, same, -⟩ := cycle_of_quiet agree.quiet (calls.ignored ignores)
    refine ⟨done, ?_, lenient.keypad_cycle, ?_⟩
    · rw [state_of_unheard_eq same]
      rfl
    · rw [unheard_congr same Machine.random fun _ => rfl, Machine.commit, calls.tookByte]
      rfl

private theorem spares_of_supported (rejects : strict.config.machineCode = .reject)
    (supported : ∀ opcode pc, strict.cycle.outcome ≠ .failed (.unsupported opcode pc)) :
    strict.Spares .policy := by
  intro opcode word concerned
  have calls : strict.CallsOut opcode := ⟨word, concerned⟩
  apply supported opcode strict.state.pc
  rw [cycle_of_error (calls.rejected rejects)]

end Machine

namespace Emulator

theorem config_of_tried {machine tried : Machine} {requests : List Request}
    {before rest : List Deed}
    (split : (atHand machine).history requests = before ++ .tried tried :: rest) :
    tried.config = machine.config := by
  have stands : (atHand machine).StandsAt requests before tried := .inl ⟨rest, split⟩
  have now : (atHand machine).Holds (fun _ other => other.config = machine.config) [] := rfl
  exact stands.holds (Machine.carried_config machine.config) now

/-- A lenient and a strict machine with the same state and the same inputs go on alike as long as
the lenient one comes across no machine code. The first cycle that does is tried on both in the same
state, with everything alike up to there: the strict machine refuses it with the opcode and the
address, and the lenient one passes over it. So whatever a strict machine does without such a
refusal, a lenient one does too. -/
theorem policies_part_at_machine_code {lenient strict : Machine}
    (state : lenient.state = strict.state) (begun : lenient.begun = strict.begun)
    (audience : lenient.observers.length = strict.observers.length)
    (keys : lenient.keypad.upcoming = strict.keypad.upcoming)
    (bytes : lenient.random.upcoming = strict.random.upcoming)
    (ignores : lenient.config.machineCode = .ignore)
    (rejects : strict.config.machineCode = .reject)
    (quiet : lenient.Quiet) (otherQuiet : strict.Quiet) {requests : List Request}
    (calm : ∀ request ∈ requests, request.Calm) :
    ((∀ tried, .tried tried ∈ (atHand lenient).history requests → tried.Spares .policy) →
      (atHand lenient).sights requests = (atHand strict).sights requests) ∧
    (∀ before tried rest, (atHand lenient).history requests = before ++ .tried tried :: rest →
      (∀ earlier, .tried earlier ∈ before → earlier.Spares .policy) →
      ∃ past other later,
        (atHand strict).history requests = past ++ .tried other :: later ∧
        past.length = before.length ∧ tried.Sides other) ∧
    ((∀ tried, .tried tried ∈ (atHand strict).history requests → ∀ opcode pc,
        tried.cycle.outcome ≠ .failed (.unsupported opcode pc)) →
      (atHand strict).sights requests = (atHand lenient).sights requests) := by
  have agree : lenient.Agree .policy strict :=
    ⟨state, begun, audience, fun _ => keys, fun _ => bytes, fun own => absurd rfl own, quiet,
      otherQuiet⟩
  refine ⟨?_, ?_, ?_⟩
  · intro spared
    exact (Agree.atHand agree).sights_eq rfl calm spared
  · intro before tried rest split spared
    have along := (Agree.atHand agree).history calm
    rw [split] at along
    have sparedDeeds : ∀ deed ∈ before, deed.Spares .policy := by
      rintro deed member machine rfl
      exact spared machine member
    obtain ⟨past, other, later, otherSplit, length, agree⟩ := along.counterpart sparedDeeds
    refine ⟨past, other, later, otherSplit, length, agree.sides ?_ ?_⟩
    · rw [config_of_tried split, ignores]
    · rw [config_of_tried otherSplit, rejects]
  · intro supported
    apply (Agree.atHand agree.symm).sights_eq rfl calm
    intro tried member
    obtain ⟨before, rest, split⟩ := List.append_of_mem member
    apply Machine.spares_of_supported _ (supported tried member)
    rw [config_of_tried split, rejects]

theorem machine_code_after_one_step :
    let loaded := ((Machine.create Config.default (.constant Keys.released) (.ofArray #[])).load
      [0x60, 0x05, 0x01, 0x23]).machine
    let lenient := { loaded with observers := [.silent] }
    let strict := { lenient with config := ⟨Config.defaultFrameRate, .reject⟩ }
    (atHand strict).sights [.step] = (atHand lenient).sights [.step] ∧
      lenient.step.machine.begin.cycle.outcome = .done ∧
      ∃ other, .tried other ∈ (atHand strict).history [.step, .step] ∧
        other.cycle.outcome = .failed (.unsupported 0x0123 0x202) := by
  intro loaded lenient strict
  have quiet : ∀ observer ∈ [Observer.silent], observer.Quiet := by
    simp [Observer.calm_silent.quiet]
  obtain ⟨-, -, supported⟩ :=
    @policies_part_at_machine_code lenient strict rfl rfl rfl rfl rfl rfl rfl quiet quiet [.step]
      (by simp [Request.Calm])
  obtain ⟨-, parted, -⟩ :=
    @policies_part_at_machine_code lenient strict rfl rfl rfl rfl rfl rfl rfl quiet quiet
      [.step, .step] (by simp [Request.Calm])
  let tried := lenient.step.machine.begin
  have fetched : (lenient.begin.state.memory.word lenient.begin.state.pc.toNat).toOption =
      some 0x6005 := by decide +kernel
  have reached : (tried.state.memory.word tried.state.pc.toNat).toOption = some 0x0123 := by
    decide +kernel
  have calls : tried.CallsOut 0x0123 := ⟨eq_ok_of_toOption reached, by simp [Aside.Concerns]⟩
  have spared : ∀ earlier, .tried earlier ∈ [Deed.begun, .tried lenient.begin, .begun] →
      earlier.Spares .policy := by
    intro earlier member opcode word
    have same : earlier = lenient.begin := by simpa using member
    have read := congrArg Except.toOption word
    rw [same, fetched] at read
    rw [← Option.some.inj read]
    simp [Aside.Concerns]
  obtain ⟨past, other, later, split, -, sides⟩ :=
    parted [.begun, .tried lenient.begin, .begun] tried [] rfl spared
  have otherCalls : other.CallsOut 0x0123 := by
    rw [Machine.CallsOut, ← sides.state]
    exact calls
  have pc : other.state.pc = 0x202 := by
    rw [← sides.state]
    decide +kernel
  refine ⟨supported ?_, (sides.ignored _ calls).1, other, ?_, ?_⟩
  · intro earlier member opcode pc
    have same : earlier = strict.begin := by
      simpa [history, deeds] using member
    have done : strict.begin.cycle.outcome = .done := by decide +kernel
    rw [same, done]
    intro failed
    cases failed
  · rw [split]
    exact List.mem_append_right _ List.mem_cons_self
  · rw [(sides.rejected _ otherCalls).1, pc]

end Emulator
end ChipEight
