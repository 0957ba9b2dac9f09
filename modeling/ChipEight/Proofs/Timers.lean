import ChipEight.Proofs.Announcements
import ChipEight.Proofs.Calls
import ChipEight.Proofs.Fields
import ChipEight.Proofs.Progress

namespace ChipEight

inductive Timer where
  | delay
  | sound

namespace Timer

def read : Timer → State → UInt8
  | delay, state => state.delayTimer
  | sound, state => state.soundTimer

def setter : Timer → Kind
  | delay => .setDelay
  | sound => .setSound

def field : Timer → Field
  | delay => .delayTimer
  | sound => .soundTimer

private theorem setter_of_changes (timer : Timer) {kind : Kind}
    (changed : timer.field ∈ kind.changes) :
    kind = timer.setter := by
  revert changed
  cases timer <;> cases kind <;> decide

def code : Timer → Nat
  | delay => 0x15
  | sound => 0x18

theorem toNat_read_settled (timer : Timer) (state : State) :
    (timer.read state.settled).toNat = (timer.read state).toNat - 1 := by
  cases timer with
  | delay => exact State.toNat_delayTimer_tick state.shown
  | sound => exact State.toNat_soundTimer_tick state.shown

theorem ofOpcode?_eq_setter (timer : Timer) (opcode : UInt16) :
    Kind.ofOpcode? opcode = some timer.setter ↔
      opcode.toNat / 4096 = 15 ∧ opcode.toNat % 256 = timer.code := by
  cases timer with
  | delay => exact Kind.ofOpcode?_eq_some_of_low opcode .setDelay rfl rfl rfl nofun
  | sound => exact Kind.ofOpcode?_eq_some_of_low opcode .setSound rfl rfl rfl nofun

end Timer

theorem Instruction.read_perform {instruction : Instruction} {byte : UInt8} {state after : State}
    (performed : instruction.perform byte state = .ok after) (timer : Timer) :
    timer.read after =
      if instruction.kind = timer.setter then state.v.get instruction.x else timer.read state := by
  split
  · next kind =>
    rw [perform, kind] at performed
    cases timer <;> cases performed <;> rfl
  · next other =>
    have kept : timer.field ∉ instruction.kind.changes :=
      fun changed => other (timer.setter_of_changes changed)
    have same := same_perform performed kept
    cases timer <;> exact same

namespace Machine
variable {machine : Machine}

/-- The next instruction is the one of segment `F` with this low byte, on this register. -/
def Fetches (machine : Machine) (code : Nat) (x : Fin 16) : Prop :=
  ∃ opcode, machine.state.memory.word machine.state.pc.toNat = .ok opcode ∧
    opcode.toNat / 4096 = 15 ∧ opcode.toNat % 256 = code ∧ (Operands.ofOpcode opcode).x = x

def sets? (machine : Machine) (timer : Timer) : Option UInt8 :=
  match machine.state.instruction with
  | .ok instruction =>
    if instruction.kind = timer.setter then some (machine.state.v.get instruction.x) else none
  | .error _ => none

theorem sets?_eq_some_iff {timer : Timer} {value : UInt8} :
    machine.sets? timer = some value ↔
      ∃ x, machine.Fetches timer.code x ∧ machine.state.v.get x = value := by
  constructor
  · intro sets
    unfold sets? at sets
    split at sets
    · next instruction found =>
      obtain ⟨opcode, word, known, x⟩ := State.word_of_instruction found
      split at sets
      · next kind =>
        rw [kind] at known
        obtain ⟨leading, low⟩ := (timer.ofOpcode?_eq_setter opcode).mp known
        exact ⟨instruction.x, ⟨opcode, word, leading, low, x⟩, Option.some.inj sets⟩
      · contradiction
    · contradiction
  · rintro ⟨x, ⟨opcode, word, leading, low, rfl⟩, rfl⟩
    have known := (timer.ofOpcode?_eq_setter opcode).mpr ⟨leading, low⟩
    rw [sets?, State.instruction_eq_of_word word known]
    exact if_pos rfl

theorem exists_ok_of_sets {timer : Timer} {value : UInt8}
    (sets : machine.sets? timer = some value) : ∃ state, machine.attempt.result = .ok state := by
  obtain ⟨x, ⟨opcode, word, leading, low, -⟩, -⟩ := sets?_eq_some_iff.mp sets
  have known := (timer.ofOpcode?_eq_setter opcode).mpr ⟨leading, low⟩
  have found := State.instruction_eq_of_word word known
  cases timer with
  | delay => exact ⟨_, result_of_kind found nofun⟩
  | sound => exact ⟨_, result_of_kind found nofun⟩

private theorem read_of_ok {state : State} (succeeded : machine.attempt.result = .ok state)
    (timer : Timer) :
    timer.read state = (machine.sets? timer).getD (timer.read machine.state) := by
  obtain ⟨instruction, found, performed⟩ := State.attempt_eq_ok succeeded
  have stored : machine.state.instruction = .ok instruction := found
  have kept : timer.read machine.poll.state.passed = timer.read machine.state := by
    cases timer <;> rfl
  rw [Instruction.read_perform performed timer, sets?, stored, kept]
  dsimp only
  split <;> rfl

theorem v_cycle_of_readDelay {x : Fin 16} (fetches : machine.Fetches 0x07 x) :
    machine.cycle.machine.state.v =
      machine.state.v.set x.val machine.state.delayTimer (digit_lt x) := by
  obtain ⟨opcode, word, leading, low, rfl⟩ := fetches
  have known : Kind.ofOpcode? opcode = some .readDelay :=
    (Kind.ofOpcode?_eq_some_of_low opcode .readDelay rfl rfl rfl nofun).mpr ⟨leading, low⟩
  have found := State.instruction_eq_of_word word known
  have result := result_of_kind found nofun
  exact v_cycle_of_ok result

end Machine

namespace Deed

def succeeds : Deed → Bool
  | tried machine => machine.cycle.outcome = .done
  | subscribed _ | loaded _ | begun => false

def sets? (timer : Timer) : Deed → Option UInt8
  | tried machine => machine.sets? timer
  | subscribed _ | loaded _ | begun => none

end Deed

/-- The numbers below `value`, from the highest down to one, or only so many of them. -/
def countdown (value count : Nat) : List Nat := (List.range' 1 (value - 1)).reverse.take count

theorem countdown_succ (value count : Nat) :
    countdown value (count + 1) =
      (if value - 1 = 0 then [] else [value - 1]) ++ countdown (value - 1) count := by
  unfold countdown
  cases below : value - 1 with
  | zero => simp
  | succ fewer =>
    rw [List.range'_1_concat, List.reverse_append, Nat.add_comm 1]
    rfl

theorem countdown_of_le {value count : Nat} (enough : value ≤ count) :
    countdown value count = (List.range' 1 (value - 1)).reverse := by
  apply List.take_of_length_le
  rw [List.length_reverse, List.length_range']
  omega

namespace Timer
variable {timer : Timer} {value : Nat} {deed : Deed} {deeds : List Deed}

def Untouched (timer : Timer) (deeds : List Deed) : Prop := ∀ deed ∈ deeds, deed.sets? timer = none

/-- What a deed makes of the timer. A cycle may set it and then counts it down, if it succeeds. -/
def next (timer : Timer) (value : Nat) (deed : Deed) : Nat :=
  if deed.succeeds then (deed.sets? timer).elim value UInt8.toNat - 1 else value

def after (timer : Timer) (value : Nat) (deeds : List Deed) : Nat := deeds.foldl timer.next value

theorem after_concat (timer : Timer) (value : Nat) (deeds : List Deed) (deed : Deed) :
    timer.after value (deeds ++ [deed]) = timer.next (timer.after value deeds) deed :=
  List.foldl_append ..

theorem next_of_none (unset : deed.sets? timer = none) :
    timer.next value deed = value - if deed.succeeds then 1 else 0 := by
  rw [next, unset]
  split <;> rfl

theorem after_of_untouched (untouched : timer.Untouched deeds) :
    timer.after value deeds = value - deeds.countP Deed.succeeds := by
  induction deeds generalizing value with
  | nil => rfl
  | cons deed rest ih =>
    have restUntouched : timer.Untouched rest :=
      fun other member => untouched other (List.mem_cons_of_mem _ member)
    rw [after, List.foldl_cons, ← after, ih restUntouched,
      next_of_none (untouched deed List.mem_cons_self), List.countP_cons]
    omega

theorem after_of_set {start : UInt8} (set : deed.sets? timer = some start)
    (succeeded : deed.succeeds = true) (untouched : timer.Untouched deeds) :
    timer.after value (deed :: deeds) = start.toNat - (deeds.countP Deed.succeeds + 1) := by
  have next : timer.next value deed = start.toNat - 1 := by
    rw [Timer.next, if_pos succeeded, set]
    rfl
  rw [after, List.foldl_cons, ← after, next, after_of_untouched untouched]
  omega

def chimes : Nat → List Deed → List Nat
  | _, [] => []
  | value, deed :: rest =>
    let next := sound.next value deed
    (if deed.succeeds ∧ next ≠ 0 then [next] else []) ++ chimes next rest

theorem chimes_concat (value : Nat) (deeds : List Deed) (deed : Deed) :
    chimes value (deeds ++ [deed]) =
      chimes value deeds ++ chimes (sound.after value deeds) [deed] := by
  induction deeds generalizing value with
  | nil => rfl
  | cons other rest ih =>
    have split := ih (sound.next value other)
    rw [List.cons_append, chimes, split, ← List.append_assoc]
    rfl

private theorem chimes_of_untouched (untouched : sound.Untouched deeds) :
    chimes value deeds = countdown value (deeds.countP Deed.succeeds) := by
  induction deeds generalizing value with
  | nil => rfl
  | cons deed rest ih =>
    have restUntouched : sound.Untouched rest :=
      fun other member => untouched other (List.mem_cons_of_mem _ member)
    rw [chimes, next_of_none (untouched deed List.mem_cons_self), List.countP_cons,
      ih restUntouched]
    cases deed.succeeds with
    | false => simp
    | true => simp [countdown_succ]

theorem chimes_of_set {start : UInt8} (set : deed.sets? sound = some start)
    (succeeded : deed.succeeds = true) (untouched : sound.Untouched deeds) :
    chimes value (deed :: deeds) = countdown start.toNat (deeds.countP Deed.succeeds + 1) := by
  have next : sound.next value deed = start.toNat - 1 := by
    rw [Timer.next, if_pos succeeded, set]
    rfl
  rw [chimes, next, chimes_of_untouched untouched, countdown_succ]
  simp [succeeded]

end Timer

def Event.chime? : Event → Option Nat
  | sound state => some state.soundTimer.toNat
  | start _ | update _ | frame _ | fault _ | stop _ => none

def sounds (events : List (Nat × Event)) (position : Nat) : List Nat :=
  (received events position).filterMap Event.chime?

theorem sounds_append (first second : List (Nat × Event)) (position : Nat) :
    sounds (first ++ second) position = sounds first position ++ sounds second position := by
  rw [sounds, received_append, List.filterMap_append]
  rfl

theorem sounds_progress (events : List (Nat × Event)) (position : Nat) :
    sounds (progress events) position = sounds events position := by
  simp only [sounds, received, progress, List.filterMap_filterMap, List.filterMap_filter]
  congr 1
  funext told
  obtain ⟨receiver, event⟩ := told
  by_cases own : receiver = position <;> cases event <;> simp [own, Event.isProgress, Event.chime?]

theorem State.chimes_happenings (state : State) :
    state.happenings.filterMap Event.chime? =
      if state.settled.soundTimer.toNat = 0 then [] else [state.settled.soundTimer.toNat] := by
  have silent : state.settled.soundTimer = 0 ↔ state.settled.soundTimer.toNat = 0 := by
    rw [← UInt8.toNat_inj]
    rfl
  rw [happenings, List.filterMap_cons_none rfl, List.filterMap_append]
  simp only [silent]
  split <;> split <;> rfl

namespace Machine
variable {machine : Machine}

theorem succeeds_of_error {fault : Fault} (failed : machine.attempt.result = .error fault) :
    (Deed.tried machine).succeeds = false := by
  rw [Deed.succeeds, cycle_of_error failed]
  rfl

theorem succeeds_of_ok {state : State} (calm : machine.Calm)
    (succeeded : machine.attempt.result = .ok state) :
    (Deed.tried machine).succeeds = true := by
  rw [Deed.succeeds, (cycle_of_calm calm succeeded).1]
  rfl

theorem read_cycle (calm : machine.Calm) (timer : Timer) :
    (timer.read machine.cycle.machine.state).toNat =
      timer.next (timer.read machine.state).toNat (.tried machine) := by
  rw [Timer.next]
  cases result : machine.attempt.result with
  | error fault =>
    rw [succeeds_of_error result, cycle_of_error result]
    cases timer <;> rfl
  | ok state =>
    rw [succeeds_of_ok calm result, if_pos rfl, state_cycle_of_calm calm result,
      timer.toNat_read_settled, read_of_ok result, Deed.sets?]
    cases machine.sets? timer <;> rfl

theorem sounds_cycle (calm : machine.Calm) {position : Nat}
    (present : position < machine.observers.length) :
    sounds machine.cycle.trace.events position =
      Timer.chimes machine.state.soundTimer.toNat [.tried machine] := by
  have value := read_cycle calm .sound
  cases result : machine.attempt.result with
  | error fault =>
    rw [events_cycle_of_error result, Timer.chimes, succeeds_of_error result, if_neg nofun]
    rfl
  | ok state =>
    rw [state_cycle_of_calm calm result] at value
    have shown : state.settled.soundTimer.toNat =
        Timer.sound.next machine.state.soundTimer.toNat (.tried machine) := value
    rw [(cycle_of_calm calm result).2.2, sounds, received_rounds _ _ present,
      state.chimes_happenings, Timer.chimes, succeeds_of_ok calm result, shown]
    simp [Timer.chimes]

end Machine
end ChipEight
