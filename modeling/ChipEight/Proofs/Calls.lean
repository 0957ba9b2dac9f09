import ChipEight.Proofs.Patterns
import ChipEight.Proofs.Soundness

/-! The stack as a list of return addresses. Over any history the addresses under the pointer are
those of the calls that are still open, so a return goes back to the call that opened the
level it leaves, whatever stale addresses lie above. -/
namespace ChipEight

namespace Kind

theorem ofOpcode?_eq_call (opcode : UInt16) :
    ofOpcode? opcode = some call ↔ opcode.toNat / 4096 = 2 := by
  have bound := opcode.toNat_lt
  rw [ofOpcode?_eq_some_iff]
  simp [covers, pattern, Pattern.fits, Digit.fits, digitAt]
  omega

theorem ofOpcode?_eq_returnCall (opcode : UInt16) :
    ofOpcode? opcode = some returnCall ↔ opcode = 0x00EE := by
  have bound := opcode.toNat_lt
  rw [ofOpcode?_eq_some_iff, ← UInt16.toNat_inj]
  simp [covers, pattern, Pattern.fits, Digit.fits, digitAt]
  omega

end Kind

namespace State

theorem instruction_eq_of_word {state : State} {opcode : UInt16} {kind : Kind}
    (word : state.memory.word state.pc.toNat = .ok opcode)
    (known : Kind.ofOpcode? opcode = some kind) :
    state.instruction = .ok { Operands.ofOpcode opcode with
      opcode, address := state.pc, segment := segmentOf opcode, kind } := by
  have decoded : Instruction.decode opcode state.pc =
      .ok { Operands.ofOpcode opcode with
        opcode, address := state.pc, segment := segmentOf opcode, kind } := by
    rw [Instruction.decode, known]
  rw [State.instruction, word]
  exact decoded

theorem instruction_of_word {state : State} {opcode : UInt16} {kind : Kind}
    (word : state.memory.word state.pc.toNat = .ok opcode)
    (known : Kind.ofOpcode? opcode = some kind) :
    ∃ instruction, state.instruction = .ok instruction ∧ instruction.kind = kind ∧
      instruction.nnn.toNat = opcode.toNat % 4096 :=
  ⟨_, instruction_eq_of_word word known, rfl, Operands.toNat_nnn_ofOpcode opcode⟩

theorem word_of_instruction {state : State} {instruction : Instruction}
    (found : state.instruction = .ok instruction) :
    ∃ opcode, state.memory.word state.pc.toNat = .ok opcode ∧
      Kind.ofOpcode? opcode = some instruction.kind ∧
      (Operands.ofOpcode opcode).x = instruction.x := by
  obtain ⟨opcode, word, decoded⟩ := bind_eq_ok found
  obtain ⟨known, operands, -⟩ := Instruction.decode_eq_ok decoded
  exact ⟨opcode, word, known, congrArg Operands.x operands.symm⟩

private theorem call_succeeds_iff (state : State) (caller target : UInt16) :
    (∃ after, state.call caller target = .ok after) ↔ state.stack.pointer.toNat < 15 := by
  constructor
  · rintro ⟨after, called⟩
    obtain ⟨stack, pushed, -⟩ := call_eq_ok called
    obtain ⟨room, -⟩ := CallStack.push?_eq_some pushed
    exact room
  · intro room
    unfold call
    rw [CallStack.push?_of_lt room]
    exact ⟨_, rfl⟩

private theorem returnTo_succeeds_iff {state : State} (sound : state.stack.Sound)
    (caller : UInt16) :
    (∃ after, state.returnTo caller = .ok after) ↔ state.stack.pointer ≠ 0 := by
  constructor
  · rintro ⟨after, returned⟩
    exact (returnTo_eq_ok returned).1
  · intro occupied
    obtain ⟨h, top⟩ := sound.top?_eq
    unfold returnTo
    rw [if_neg occupied, top]
    exact ⟨_, rfl⟩

end State

/-- The kind of instruction that the next cycle commits, if it commits one. -/
def Machine.performed? (machine : Machine) : Option Kind :=
  match machine.state.instruction, machine.attempt.result with
  | .ok instruction, .ok _ => some instruction.kind
  | _, _ => none

/-- The return addresses of the calls that are open after a deed, the most recent last. -/
def Deed.calls (deed : Deed) (before : List UInt16) : List UInt16 :=
  match deed with
  | loaded _ => []
  | tried machine =>
    match machine.performed? with
    | some .call => before ++ [machine.state.pc + 2]
    | some .returnCall => before.dropLast
    | _ => before
  | subscribed _ | begun => before

def openCalls (history : List Deed) : List UInt16 :=
  history.foldl (fun calls deed => deed.calls calls) []

theorem openCalls_concat (history : List Deed) (deed : Deed) :
    openCalls (history ++ [deed]) = deed.calls (openCalls history) :=
  List.foldl_append ..

theorem Deed.calls_of_level {machine : Machine} {kind : Kind}
    (performed : machine.performed? = some kind) (level : kind.usesStack = false)
    (before : List UInt16) : (tried machine).calls before = before := by
  rw [calls, performed]
  cases kind <;> first | rfl | contradiction

namespace Machine

theorem performed?_of_error {machine : Machine} {fault : Fault}
    (failed : machine.attempt.result = .error fault) : machine.performed? = none := by
  unfold performed?
  rw [failed]
  cases machine.state.instruction <;> rfl

theorem performed?_of_ok {machine : Machine} {state : State}
    (succeeded : machine.attempt.result = .ok state) :
    ∃ instruction, machine.state.instruction = .ok instruction ∧
      machine.performed? = some instruction.kind ∧
      instruction.Effect machine.poll.state.passed state := by
  obtain ⟨instruction, found, performed⟩ := State.attempt_eq_ok succeeded
  have stored : machine.state.instruction = .ok instruction := found
  refine ⟨instruction, stored, ?_, Instruction.effect_perform performed⟩
  unfold performed?
  rw [stored, succeeded]

theorem committed_of_ok {machine : Machine} {state : State}
    (succeeded : machine.attempt.result = .ok state) :
    machine.cycle.machine.state.stack = state.stack ∧
      machine.cycle.machine.state.pc = state.pc := by
  obtain same | same := state_cycle_of_ok succeeded
  · rw [same]
    exact ⟨rfl, rfl⟩
  · rw [same]
    exact ⟨rfl, rfl⟩

theorem v_cycle_of_ok {machine : Machine} {state : State}
    (succeeded : machine.attempt.result = .ok state) :
    machine.cycle.machine.state.v = state.v := by
  obtain same | same := state_cycle_of_ok succeeded
  · rw [same]
  · rw [same]
    rfl

theorem stack_cycle_of_error {machine : Machine} {fault : Fault}
    (failed : machine.attempt.result = .error fault) :
    machine.cycle.machine.state.stack = machine.state.stack := by
  rw [cycle_of_error failed]
  rfl

theorem entries_cycle {machine : Machine} (sound : machine.state.stack.Sound) :
    machine.cycle.machine.state.stack.entries =
      (Deed.tried machine).calls machine.state.stack.entries := by
  cases result : machine.attempt.result with
  | error fault =>
    rw [stack_cycle_of_error result, Deed.calls, performed?_of_error result]
  | ok state =>
    obtain ⟨instruction, -, performed, effect⟩ := performed?_of_ok result
    rw [(committed_of_ok result).1]
    cases effect with
    | called kind stack pushed =>
      rw [Deed.calls, performed, kind]
      exact CallStack.entries_push pushed
    | returned kind occupied pc found =>
      rw [Deed.calls, performed, kind]
      exact CallStack.entries_drop sound.pointer_le occupied
    | moved level | computed level => exact (Deed.calls_of_level performed level _).symm
    | cleared kind | drawn kind =>
      exact (Deed.calls_of_level performed (by rw [kind]; rfl) _).symm

theorem Reached.entries {history : List Deed} {machine : Machine}
    (reached : machine.Reached history) :
    machine.state.stack.entries = openCalls history := by
  induction reached with
  | created => rfl
  | subscribed _ _ ih =>
    rw [openCalls_concat, ← ih]
    rfl
  | loaded _ loaded =>
    obtain ⟨memory, rfl⟩ := State.loaded_eq_ok loaded
    rw [openCalls_concat]
    rfl
  | @begun history machine _ ih =>
    rw [openCalls_concat, Deed.calls, ← ih]
    unfold begin
    split
    · rfl
    · rfl
  | tried reached _ ih =>
    rw [openCalls_concat, ← ih]
    exact entries_cycle reached.sound.stack
  | heard _ same ih =>
    rw [state_of_unheard_eq same]
    exact ih

def Succeeds (machine : Machine) : Prop := ∃ state, machine.attempt.result = .ok state

/-- What the next cycle does to the stack while the given calls are open. -/
structure StackRule (machine : Machine) (calls : List UInt16) : Prop where
  call : ∀ opcode, machine.state.memory.word machine.state.pc.toNat = .ok opcode →
    opcode.toNat / 4096 = 2 →
    (machine.Succeeds ↔ calls.length < 15) ∧
      (machine.Succeeds →
        machine.cycle.machine.state.stack.entries = calls ++ [machine.state.pc + 2] ∧
        machine.cycle.machine.state.pc.toNat = opcode.toNat % 4096 ∧
        ∀ slot : Fin 16, slot.val ≠ calls.length + 1 →
          machine.cycle.machine.state.stack.slots.get slot = machine.state.stack.slots.get slot)
  returnCall : machine.state.memory.word machine.state.pc.toNat = .ok 0x00EE →
    (machine.Succeeds ↔ calls ≠ []) ∧
      (machine.Succeeds →
        machine.cycle.machine.state.stack.entries = calls.dropLast ∧
        calls.getLast? = some machine.cycle.machine.state.pc ∧
        machine.cycle.machine.state.stack.slots = machine.state.stack.slots)
  other : ∀ opcode, machine.state.memory.word machine.state.pc.toNat = .ok opcode →
    opcode.toNat / 4096 ≠ 2 → opcode ≠ 0x00EE →
    machine.cycle.machine.state.stack = machine.state.stack
  failed : ¬ machine.Succeeds → machine.cycle.machine.state.stack = machine.state.stack

theorem result_of_instruction {machine : Machine} {instruction : Instruction}
    (found : machine.state.instruction = .ok instruction) :
    machine.attempt.result =
      instruction.execute machine.config.machineCode machine.random.current
        machine.poll.state.passed := by
  have stored : machine.poll.state.instruction = .ok instruction := found
  rw [attempt, State.attempt_eq, stored]
  rfl

theorem result_of_kind {machine : Machine} {instruction : Instruction}
    (found : machine.state.instruction = .ok instruction)
    (program : instruction.kind ≠ .machineCode) :
    machine.attempt.result =
      instruction.perform machine.random.current machine.poll.state.passed := by
  rw [result_of_instruction found]
  exact if_neg fun refused => program refused.1

private theorem result_of_call {machine : Machine} {opcode : UInt16}
    (word : machine.state.memory.word machine.state.pc.toNat = .ok opcode)
    (leading : opcode.toNat / 4096 = 2) :
    ∃ target : UInt16, target.toNat = opcode.toNat % 4096 ∧ ∃ caller,
      machine.attempt.result = machine.poll.state.passed.call caller target := by
  obtain ⟨instruction, found, kind, target⟩ :=
    State.instruction_of_word word ((Kind.ofOpcode?_eq_call opcode).mpr leading)
  refine ⟨instruction.nnn, target, instruction.address, ?_⟩
  rw [result_of_kind found (by rw [kind]; nofun), Instruction.perform]
  simp only [kind]

private theorem result_of_returnCall {machine : Machine}
    (word : machine.state.memory.word machine.state.pc.toNat = .ok 0x00EE) :
    ∃ caller, machine.attempt.result = machine.poll.state.passed.returnTo caller := by
  obtain ⟨instruction, found, kind, -⟩ :=
    State.instruction_of_word word ((Kind.ofOpcode?_eq_returnCall 0x00EE).mpr rfl)
  refine ⟨instruction.address, ?_⟩
  rw [result_of_kind found (by rw [kind]; nofun), Instruction.perform]
  simp only [kind]

private theorem stack_cycle_of_level {machine : Machine} {opcode : UInt16}
    (word : machine.state.memory.word machine.state.pc.toNat = .ok opcode)
    (noCall : opcode.toNat / 4096 ≠ 2) (noReturn : opcode ≠ 0x00EE) :
    machine.cycle.machine.state.stack = machine.state.stack := by
  cases result : machine.attempt.result with
  | error fault => exact stack_cycle_of_error result
  | ok state =>
    obtain ⟨instruction, found, -, effect⟩ := performed?_of_ok result
    rw [(committed_of_ok result).1]
    rw [State.instruction, word] at found
    obtain ⟨known, -⟩ := Instruction.decode_eq_ok found
    cases effect with
    | called kind stack pushed =>
      rw [kind] at known
      exact absurd ((Kind.ofOpcode?_eq_call opcode).mp known) noCall
    | returned kind occupied pc top =>
      rw [kind] at known
      exact absurd ((Kind.ofOpcode?_eq_returnCall opcode).mp known) noReturn
    | moved | cleared | drawn | computed => rfl

theorem stackRule {machine : Machine} (sound : machine.state.stack.Sound) :
    machine.StackRule machine.state.stack.entries where
  call := by
    intro opcode word leading
    obtain ⟨target, narrow, caller, result⟩ := result_of_call word leading
    rw [CallStack.length_entries sound.pointer_le, Succeeds, result]
    refine ⟨State.call_succeeds_iff .., ?_⟩
    rintro ⟨state, succeeded⟩
    obtain ⟨stack, pc⟩ := committed_of_ok (result.trans succeeded)
    obtain ⟨pushed, push, rfl⟩ := State.call_eq_ok succeeded
    obtain ⟨room, same⟩ := CallStack.push?_eq_some push
    rw [stack, pc]
    refine ⟨CallStack.entries_push push, narrow, ?_⟩
    intro slot other
    rw [same]
    exact Vector.getElem_set_ne (Nat.succ_lt_succ room) slot.isLt (Ne.symm other)
  returnCall := by
    intro word
    obtain ⟨caller, result⟩ := result_of_returnCall word
    rw [Succeeds, result]
    have soundPassed : machine.poll.state.passed.stack.Sound := sound
    refine ⟨?_, ?_⟩
    · rw [Ne, CallStack.entries_eq_nil sound.pointer_le]
      exact State.returnTo_succeeds_iff soundPassed caller
    · rintro ⟨state, succeeded⟩
      obtain ⟨stack, pc⟩ := committed_of_ok (result.trans succeeded)
      obtain ⟨occupied, address, top, rfl⟩ := State.returnTo_eq_ok succeeded
      rw [stack, pc]
      refine ⟨CallStack.entries_drop sound.pointer_le occupied, ?_, rfl⟩
      exact (CallStack.top?_eq_getLast? sound.pointer_le occupied).symm.trans top
  other := by
    intro opcode word noCall noReturn
    exact stack_cycle_of_level word noCall noReturn
  failed := by
    intro failure
    cases result : machine.attempt.result with
    | error fault => exact stack_cycle_of_error result
    | ok state => exact absurd ⟨state, result⟩ failure

end Machine

theorem Deed.calls_cases (deed : Deed) (before : List UInt16) :
    (∃ count, deed.calls before = before.take count) ∨
      ∃ machine, deed = .tried machine ∧ machine.performed? = some .call ∧
        deed.calls before = before ++ [machine.state.pc + 2] := by
  cases deed with
  | loaded rom => exact .inl ⟨0, rfl⟩
  | subscribed | begun => exact .inl ⟨before.length, (List.take_length).symm⟩
  | tried machine =>
    rw [calls]
    split
    · next performed => exact .inr ⟨machine, rfl, performed, rfl⟩
    · exact .inl ⟨before.length - 1, List.dropLast_eq_take⟩
    · exact .inl ⟨before.length, (List.take_length).symm⟩

def Deepens (before : List Deed) (deed : Deed) (depth : Nat) : Prop :=
  (openCalls before).length = depth ∧ (openCalls (before ++ [deed])).length = depth + 1

/-- The last cycle that took the number of open calls from `depth` to one more was tried on
`caller`. -/
def LastCall (history : List Deed) (depth : Nat) (caller : Machine) : Prop :=
  ∃ before between, history = before ++ .tried caller :: between ∧
    Deepens before (.tried caller) depth ∧
    ∀ middle deed rest, between = middle ++ deed :: rest →
      ¬ Deepens (before ++ .tried caller :: middle) deed depth

theorem LastCall.concat {history : List Deed} {depth : Nat} {caller : Machine}
    (last : LastCall history depth caller) (deed : Deed)
    (inside : depth < (openCalls history).length) : LastCall (history ++ [deed]) depth caller := by
  obtain ⟨before, between, rfl, deepens, none⟩ := last
  refine ⟨before, between ++ [deed], by rw [List.append_assoc, List.cons_append], deepens, ?_⟩
  intro middle other rest same
  obtain ⟨rfl, -⟩ | ⟨earlier, -, rfl⟩ := concat_eq_append_cons same
  · rintro ⟨length, -⟩
    omega
  · exact none middle other earlier rfl

def Matched (history : List Deed) : Prop :=
  ∀ depth (h : depth < (openCalls history).length), ∃ caller, LastCall history depth caller ∧
    caller.performed? = some .call ∧ (openCalls history)[depth] = caller.state.pc + 2

theorem Matched.concat {history : List Deed} (matched : Matched history) (deed : Deed) :
    Matched (history ++ [deed]) := by
  intro depth h
  have concat := openCalls_concat history deed
  simp only [concat] at h ⊢
  obtain ⟨count, kept⟩ | ⟨caller, rfl, performed, opened⟩ := deed.calls_cases (openCalls history)
  -- A deed that opens no call leaves some of the calls open, all of them matched before.
  · simp only [kept] at h ⊢
    have inside : depth < (openCalls history).length :=
      Nat.lt_of_lt_of_le h (List.length_take_le' ..)
    obtain ⟨caller, last, performed, address⟩ := matched depth inside
    exact ⟨caller, last.concat deed inside, performed, (List.getElem_take ..).trans address⟩
  · simp only [opened] at h ⊢
    by_cases inside : depth < (openCalls history).length
    · obtain ⟨other, last, called, address⟩ := matched depth inside
      refine ⟨other, last.concat _ inside, called, ?_⟩
      rw [List.getElem_append_left inside, address]
    · have top : (openCalls history).length = depth := by
        rw [List.length_append, List.length_singleton] at h
        omega
      refine ⟨caller, ⟨history, [], rfl, ⟨top, ?_⟩, ?_⟩, performed, ?_⟩
      · rw [concat, opened, List.length_append, top, List.length_singleton]
      · intro middle other rest same
        exact absurd same (by simp)
      · simp only [← top, List.getElem_concat_length]

theorem Machine.Reached.matched {history : List Deed} {machine : Machine}
    (reached : machine.Reached history) : Matched history := by
  induction reached with
  | created =>
    intro depth h
    contradiction
  | heard _ _ ih => exact ih
  | subscribed _ _ ih | loaded _ _ ih | begun _ ih | tried _ _ ih => exact ih.concat _

theorem Machine.Reached.stackRule {history : List Deed} {machine : Machine}
    (reached : machine.Reached history) : machine.StackRule (openCalls history) := by
  rw [← reached.entries]
  exact Machine.stackRule reached.sound.stack

/-- A return goes back behind the call that last led to the depth it leaves. -/
theorem Machine.Reached.resumes {before : List Deed} {machine : Machine} {depth : Nat}
    (reached : machine.Reached before) (deep : (openCalls before).length = depth + 1)
    (word : machine.state.memory.word machine.state.pc.toNat = .ok 0x00EE) :
    ∃ caller, LastCall before depth caller ∧ caller.performed? = some .call ∧
      machine.cycle.machine.state.pc = caller.state.pc + 2 := by
  have inside : depth < (openCalls before).length := by omega
  obtain ⟨caller, last, performed, address⟩ := reached.matched depth inside
  refine ⟨caller, last, performed, ?_⟩
  obtain ⟨success, effect⟩ := reached.stackRule.returnCall word
  have nonempty : openCalls before ≠ [] := List.ne_nil_of_length_pos (by omega)
  obtain ⟨-, top, -⟩ := effect (success.mpr nonempty)
  have final : (openCalls before)[depth]? = some machine.cycle.machine.state.pc := by
    rw [← top, List.getLast?_eq_getElem?, deep]
    rfl
  rw [List.getElem?_eq_getElem inside] at final
  exact (Option.some.inj final).symm.trans address

/-- Over any requests the stack is the list of the open calls: at every point, in every cycle,
and for every return. -/
theorem Emulator.stack_refines_calls (config : Config) (keypad : Keypad) (random : RandomSource)
    (requests : List Request) :
    let history := (create config keypad random).history requests
    (∀ machine, ((create config keypad random).after requests).machine? = some machine →
      machine.state.stack.entries = openCalls history ∧
      (openCalls history).length = machine.state.stack.pointer.toNat ∧
      machine.state.stack.pointer.toNat ≤ 15 ∧ machine.state.stack.slots.head = 0) ∧
    ∀ before machine rest, history = before ++ .tried machine :: rest →
      machine.StackRule (openCalls before) ∧
      machine.cycle.machine.state.stack.entries = openCalls (before ++ [.tried machine]) ∧
      machine.cycle.machine.state.stack.slots.head = 0 ∧
      ∀ depth, (openCalls before).length = depth + 1 →
        machine.state.memory.word machine.state.pc.toNat = .ok 0x00EE →
        ∃ caller, LastCall before depth caller ∧ caller.performed? = some .call ∧
          machine.cycle.machine.state.pc = caller.state.pc + 2 := by
  intro history
  have follows := follows_create config keypad random requests
  refine ⟨?_, ?_⟩
  · intro machine present
    have reached := follows.reached present
    have stack := reached.sound.stack
    refine ⟨reached.entries, ?_, stack.pointer_le, stack.bottom⟩
    rw [← reached.entries, CallStack.length_entries stack.pointer_le]
  · intro before machine rest same
    obtain ⟨final, ended⟩ := follows.exists_reached
    have split : final.Reached (before ++ .tried machine :: rest) := same ▸ ended
    obtain ⟨reached, begun⟩ := split.of_tried
    have cycled := reached.tried begun
    exact ⟨reached.stackRule, cycled.entries, cycled.sound.stack.bottom,
      fun depth deep word => reached.resumes deep word⟩

/-- Two calls, one inside the other, and the returns from both. The slot of the inner one keeps its
address when it is no longer open. -/
theorem Emulator.nested_calls_return :
    let rom : List UInt8 :=
      [0x22, 0x06, 0x00, 0x00, 0x00, 0x00, 0x22, 0x0A, 0x00, 0xEE, 0x00, 0xEE]
    let emulator := create Config.default (.constant Keys.released) (.ofArray #[])
    let stands (steps : Nat) (calls : List UInt16) (pc : UInt16) : Prop :=
      ∃ machine,
        (emulator.after (.load rom :: List.replicate steps .step)).machine? = some machine ∧
        machine.state.stack.entries = calls ∧ machine.state.stack.slots[2] = 0x208 ∧
        machine.state.pc = pc
    stands 2 [0x202, 0x208] 0x20A ∧ stands 3 [0x202] 0x208 ∧ stands 4 [] 0x202 := by
  intro rom emulator stands
  have refines (steps : Nat) {machine : Machine}
      (present : (emulator.after (.load rom :: List.replicate steps .step)).machine? =
        some machine) :
      machine.state.stack.entries =
        openCalls (emulator.history (.load rom :: List.replicate steps .step)) :=
    ((stack_refines_calls Config.default (.constant Keys.released) (.ofArray #[]) _).1
      machine present).1
  refine ⟨⟨_, rfl, (refines 2 rfl).trans ?_, ?_⟩, ⟨_, rfl, (refines 3 rfl).trans ?_, ?_⟩,
    ⟨_, rfl, (refines 4 rfl).trans ?_, ?_⟩⟩ <;> decide +kernel

end ChipEight
