import ChipEight.Proofs.Announcements
import ChipEight.Proofs.Calls
import ChipEight.Proofs.Cuts

/-! What a cycle does about its picture. The flag of a state is up while somebody may not have seen
its picture. Only drawing raises it, every other instruction carries it over, and a round of
frames lowers it only after everybody has been told. -/
namespace ChipEight

def frames (events : List (Nat × Event)) : List (Nat × Event) :=
  events.filter fun told => told.2.frame?.isSome

/-- The picture in the last frame that an observer received; it starts with a dark screen. -/
def lastShown (events : List (Nat × Event)) (position : Nat) : Frame :=
  ((received events position).filterMap Event.frame?).getLast?.getD Frame.blank

theorem frames_append (first second : List (Nat × Event)) :
    frames (first ++ second) = frames first ++ frames second :=
  List.filter_append ..

@[simp] theorem frames_logged (records : List Record) :
    frames (Trace.events (records.map .logged)) = [] := by
  rw [Trace.events_logged]
  rfl

theorem frames_progress (events : List (Nat × Event)) :
    frames (progress events) = frames events := by
  rw [frames, progress, List.filter_filter, frames]
  congr 1
  funext told
  obtain ⟨position, event⟩ := told
  cases event <;> rfl

theorem received_frames (events : List (Nat × Event)) (position : Nat) :
    (received (frames events) position).filterMap Event.frame? =
      (received events position).filterMap Event.frame? := by
  simp only [received, frames, List.filterMap_filterMap, List.filterMap_filter]
  congr 1
  funext told
  obtain ⟨receiver, event⟩ := told
  by_cases own : receiver = position <;> cases event <;> simp [own, Event.frame?]

theorem lastShown_congr {events other : List (Nat × Event)} (same : frames events = frames other)
    (position : Nat) : lastShown events position = lastShown other position := by
  rw [lastShown, ← received_frames, same, received_frames, lastShown]

private theorem lastShown_append_of_dark {events new : List (Nat × Event)} (dark : frames new = [])
    (position : Nat) : lastShown (events ++ new) position = lastShown events position := by
  apply lastShown_congr
  rw [frames_append, dark, List.append_nil]

private theorem lastShown_append_round {events new : List (Nat × Event)} {machine : Machine}
    {state : State} {position : Nat} (shown : frames new = machine.round (.frame state))
    (present : position < machine.observers.length) :
    lastShown (events ++ new) position = state.frame := by
  have last : (received new position).filterMap Event.frame? = [state.frame] := by
    rw [← received_frames, shown, machine.received_round _ present]
    rfl
  rw [lastShown, received_append, List.filterMap_append, last, List.getLast?_concat]
  rfl

theorem Step.prefix_andThen (step : Step) (next : Machine → Step) :
    step.trace.events <+: (step.andThen next).trace.events := by
  unfold andThen
  split
  · rw [Trace.events_append]
    exact List.prefix_append ..
  · exact List.prefix_rfl

namespace Machine

private theorem frames_round (machine : Machine) (state : State) :
    frames (machine.round (.frame state)) = machine.round (.frame state) := by
  refine List.filter_eq_self.mpr fun told member => ?_
  obtain ⟨position, -, rfl⟩ := List.mem_map.mp member
  rfl

/-- What `step` does about the picture of `machine`. Either there is nothing to show, or the round
breaks off and the picture is still owed, or everybody is shown it. -/
inductive Displays (machine : Machine) (step : Step) : Prop where
  | idle (lowered : machine.state.drawFlag = false) (still : step.machine.state.drawFlag = false)
      (dark : frames step.trace.events = [])
  | owed (raised : machine.state.drawFlag = true) (still : step.machine.state.drawFlag = true)
      (broken : ∃ cause, step.outcome = .panicked cause)
  | shown (raised : machine.state.drawFlag = true) (fallen : step.machine.state.drawFlag = false)
      (everybody : frames step.trace.events = machine.round (.frame machine.state))

theorem Displays.congr {machine other : Machine} {step later : Step}
    (displays : machine.Displays step) (state : other.state = machine.state)
    (round : other.round = machine.round)
    (flag : later.machine.state.drawFlag = step.machine.state.drawFlag)
    (broken : ∀ cause, step.outcome = .panicked cause → later.outcome = .panicked cause)
    (same : frames later.trace.events = frames step.trace.events) : other.Displays later := by
  cases displays with
  | idle lowered still dark => exact .idle (state ▸ lowered) (flag.trans still) (same.trans dark)
  | owed raised still panicked =>
    obtain ⟨cause, panicked⟩ := panicked
    exact .owed (state ▸ raised) (flag.trans still) ⟨cause, broken cause panicked⟩
  | shown raised fallen everybody =>
    refine .shown (state ▸ raised) (flag.trans fallen) ?_
    rw [same, everybody, round, state]

private theorem showFrame_displays (machine : Machine) : machine.Displays machine.showFrame := by
  have same := state_of_unheard_eq (unheard_announce machine (.frame machine.state))
  unfold showFrame
  cases flag : machine.state.drawFlag with
  | false => exact .idle flag flag rfl
  | true =>
    rw [if_pos rfl]
    obtain done | ⟨cause, panicked⟩ := outcome_announce machine (.frame machine.state)
    · rw [Step.andThen_of_done done]
      refine .shown flag rfl ?_
      rw [Trace.events_append, events_announce_of_done done, frames_append, frames_round]
      exact List.append_nil _
    · rw [Step.andThen_of_panicked panicked]
      refine .owed flag ?_ ⟨cause, panicked⟩
      rw [same, flag]

private theorem tick_shows_nothing (machine : Machine) :
    machine.tick.machine.state.drawFlag = machine.state.drawFlag ∧
      frames machine.tick.trace.events = [] := by
  obtain ⟨ticked, -⟩ := machine.tick_cases
  refine ⟨?_, ?_⟩
  · rw [state_of_unheard_eq ticked]
    rfl
  · unfold tick
    dsimp only
    split
    · rfl
    · exact filter_announce _ (fun event => event.frame?.isSome) rfl

theorem Displays.andThen_tick {machine : Machine} {step : Step} (displays : machine.Displays step) :
    machine.Displays (step.andThen tick) := by
  obtain ⟨flag, dark⟩ := step.machine.tick_shows_nothing
  obtain ⟨middle, outcome, trace⟩ := step
  cases outcome with
  | failed fault => exact displays
  | panicked cause => exact displays
  | done =>
    refine displays.congr rfl rfl flag nofun ?_
    rw [Step.andThen_done, Trace.events_append, frames_append, dark, List.append_nil]

private theorem notify_displays (machine : Machine) : machine.Displays machine.notify := by
  have same := unheard_announce machine (.update machine.state)
  have state := state_of_unheard_eq same
  have dark : frames (machine.announce (.update machine.state)).trace.events = [] :=
    machine.filter_announce (fun event => event.frame?.isSome) rfl
  unfold notify
  obtain done | ⟨cause, panicked⟩ := outcome_announce machine (.update machine.state)
  · have later :=
      (showFrame_displays (machine.announce (.update machine.state)).machine).andThen_tick
    rw [Step.andThen_of_done done]
    refine later.congr state.symm (round_of_unheard_eq same).symm rfl (fun _ => id) ?_
    rw [Trace.events_append, frames_append, dark, List.nil_append]
  · rw [Step.andThen_of_panicked panicked]
    cases flag : machine.state.drawFlag with
    | false => exact .idle flag ((congrArg State.drawFlag state).trans flag) dark
    | true => exact .owed flag ((congrArg State.drawFlag state).trans flag) ⟨cause, panicked⟩

end Machine

def Kind.draws : Kind → Bool
  | clearScreen | drawSprite => true
  | _ => false

theorem Kind.exists_draws_iff (opcode : UInt16) :
    (∃ kind, ofOpcode? opcode = some kind ∧ kind.draws = true) ↔
      opcode = 0x00E0 ∨ opcode.toNat / 4096 = 13 := by
  have bound := opcode.toNat_lt
  have cleared : ofOpcode? opcode = some clearScreen ↔ opcode = 0x00E0 := by
    rw [ofOpcode?_eq_some_iff, ← UInt16.toNat_inj]
    simp [covers, pattern, Pattern.fits, Digit.fits, digitAt]
    omega
  have drawn : ofOpcode? opcode = some drawSprite ↔ opcode.toNat / 4096 = 13 := by
    rw [ofOpcode?_eq_some_iff]
    simp [covers, pattern, Pattern.fits, Digit.fits, digitAt]
    omega
  rw [← cleared, ← drawn]
  constructor
  · rintro ⟨kind, known, draws⟩
    cases kind <;> first | contradiction | exact .inl known | exact .inr known
  · rintro (known | known) <;> exact ⟨_, known, rfl⟩

namespace Instruction
variable {instruction : Instruction} {state after : State}

private theorem drawFlag_of_draws {byte : UInt8} (draws : instruction.kind.draws = true)
    (performed : instruction.perform byte state = .ok after) : after.drawFlag = true := by
  unfold perform at performed
  cases kind : instruction.kind <;> rw [kind] at draws performed <;> try contradiction
  case clearScreen =>
    cases performed
    rfl
  case drawSprite =>
    obtain ⟨rows, -, rfl⟩ := State.drawSprite_eq_ok performed
    rfl

theorem Effect.keeps_picture (effect : instruction.Effect state after)
    (level : instruction.kind.draws = false) :
    after.frame = state.frame ∧ after.drawFlag = state.drawFlag := by
  cases effect with
  | cleared kind | drawn kind =>
    rw [kind] at level
    contradiction
  | called | returned | moved | computed => exact ⟨rfl, rfl⟩

end Instruction

namespace Machine
variable {machine : Machine} {made : State}

def draws (machine : Machine) : Bool := machine.performed?.any Kind.draws

theorem draws_iff (machine : Machine) : machine.draws = true ↔ machine.Succeeds ∧
    ∃ opcode, machine.state.memory.word machine.state.pc.toNat = .ok opcode ∧
      (opcode = 0x00E0 ∨ opcode.toNat / 4096 = 13) := by
  constructor
  · intro draws
    cases result : machine.attempt.result with
    | error fault =>
      rw [Machine.draws, performed?_of_error result] at draws
      contradiction
    | ok made =>
      obtain ⟨instruction, found, kind, -⟩ := performed?_of_ok result
      rw [Machine.draws, kind] at draws
      obtain ⟨opcode, word, known, -⟩ := State.word_of_instruction found
      exact ⟨⟨made, result⟩, opcode, word, (Kind.exists_draws_iff opcode).mp ⟨_, known, draws⟩⟩
  · rintro ⟨⟨made, result⟩, opcode, word, own⟩
    obtain ⟨kind, known, draws⟩ := (Kind.exists_draws_iff opcode).mpr own
    obtain ⟨instruction, found, performed, -⟩ := performed?_of_ok result
    obtain ⟨other, decoded, same, -⟩ := State.instruction_of_word word known
    obtain rfl : instruction = other := Except.ok.inj (found.symm.trans decoded)
    rw [Machine.draws, performed, same]
    exact draws

def drawn (machine : Machine) : List (Nat × Event) :=
  match machine.attempt.result with
  | .ok made => if machine.draws then machine.round (.frame made) else []
  | .error _ => []

theorem drawFlag_of_ok (succeeded : machine.attempt.result = .ok made) :
    made.drawFlag = (machine.draws || machine.state.drawFlag) := by
  obtain ⟨instruction, found, kind, effect⟩ := performed?_of_ok succeeded
  obtain ⟨other, stored, performed⟩ := State.attempt_eq_ok succeeded
  obtain rfl : instruction = other := Except.ok.inj (found.symm.trans stored)
  rw [draws, kind, Option.any_some]
  cases draws : instruction.kind.draws with
  | true => exact Instruction.drawFlag_of_draws draws performed
  | false => exact (effect.keeps_picture draws).2

theorem frame_of_ok (succeeded : machine.attempt.result = .ok made)
    (level : machine.draws = false) : made.frame = machine.state.frame := by
  obtain ⟨instruction, -, kind, effect⟩ := performed?_of_ok succeeded
  rw [draws, kind] at level
  exact (effect.keeps_picture level).1

theorem cycle_displays (succeeded : machine.attempt.result = .ok made) :
    (machine.commit made).Displays machine.cycle := by
  rw [cycle_of_ok succeeded]
  refine (machine.commit made).notify_displays.congr rfl rfl rfl (fun _ => id) ?_
  rw [Trace.events_append, frames_append, frames_logged, List.nil_append]

theorem frame_cycle (succeeded : machine.attempt.result = .ok made) :
    machine.cycle.machine.state.frame = made.frame := by
  obtain same | same := state_cycle_of_ok succeeded
  · rw [same]
  · rw [same]
    rfl

/-- Nobody in the audience has missed a picture for good: it is still owed, or it is the last one
that was shown to them. -/
structure NoneMissed (audience : Nat) (events : List (Nat × Event)) (machine : Machine) : Prop where
  present : audience ≤ machine.observers.length
  seen : ∀ position < audience,
    machine.state.drawFlag = true ∨ lastShown events position = machine.state.frame

theorem NoneMissed.congr {audience : Nat} {events : List (Nat × Event)} {other : Machine}
    (before : machine.NoneMissed audience events) (frame : other.state.frame = machine.state.frame)
    (flag : other.state.drawFlag = machine.state.drawFlag)
    (present : machine.observers.length ≤ other.observers.length) :
    other.NoneMissed audience events := by
  refine ⟨Nat.le_trans before.present present, ?_⟩
  rw [frame, flag]
  exact before.seen

theorem NoneMissed.cycle {audience : Nat} {events : List (Nat × Event)}
    (before : machine.NoneMissed audience events) :
    machine.cycle.machine.NoneMissed audience (events ++ machine.cycle.trace.events) := by
  refine ⟨machine.length_observers_cycle.symm ▸ before.present, ?_⟩
  intro position member
  cases result : machine.attempt.result with
  | error fault =>
    rw [events_cycle_of_error result, List.append_nil, cycle_of_error result]
    exact before.seen position member
  | ok made =>
    rw [frame_cycle result]
    cases cycle_displays result with
    | idle lowered still dark =>
      have lowered : made.drawFlag = false := lowered
      rw [drawFlag_of_ok result, Bool.or_eq_false_iff] at lowered
      obtain ⟨level, flag⟩ := lowered
      right
      rw [lastShown_append_of_dark dark, frame_of_ok result level]
      exact (before.seen position member).resolve_left (by rw [flag]; exact Bool.false_ne_true)
    | owed raised still broken => exact .inl still
    | shown raised fallen everybody =>
      exact .inr (lastShown_append_round everybody (Nat.lt_of_lt_of_le member before.present))

/-- While no flag is up and no observer panics, a cycle shows what it draws. -/
theorem cycle_of_unbroken (lowered : machine.state.drawFlag = false)
    (unbroken : ∀ cause, machine.cycle.outcome ≠ .panicked cause) :
    machine.cycle.machine.state.drawFlag = false ∧
      frames machine.cycle.trace.events = machine.drawn := by
  unfold drawn
  cases result : machine.attempt.result with
  | error fault =>
    rw [events_cycle_of_error result, cycle_of_error result]
    exact ⟨lowered, rfl⟩
  | ok made =>
    have flag : made.drawFlag = machine.draws := by
      rw [drawFlag_of_ok result, lowered, Bool.or_false]
    rw [← flag]
    cases cycle_displays result with
    | idle lowered still dark =>
      have lowered : made.drawFlag = false := lowered
      rw [lowered]
      exact ⟨still, dark⟩
    | owed raised still broken =>
      obtain ⟨cause, panicked⟩ := broken
      exact absurd panicked (unbroken cause)
    | shown raised fallen everybody =>
      have raised : made.drawFlag = true := raised
      rw [raised]
      exact ⟨fallen, everybody⟩

structure Reports (machine : Machine) (made : State) : Prop where
  succeeded : machine.attempt.result = .ok made
  told : ((machine.commit made).announce (.update made)).outcome = .done

/-- A flag that is up stays up until a cycle reports. -/
theorem raised_cycle (raised : machine.state.drawFlag = true)
    (silent : ∀ made, ¬ machine.Reports made) : machine.cycle.machine.state.drawFlag = true := by
  cases result : machine.attempt.result with
  | error fault =>
    rw [cycle_of_error result]
    exact raised
  | ok made =>
    obtain done | ⟨cause, panicked⟩ :=
      outcome_announce (machine.commit made) (.update made)
    · exact absurd ⟨result, done⟩ (silent made)
    · have same := state_of_unheard_eq (unheard_announce (machine.commit made) (.update made))
      have broken : (machine.commit made).notify = (machine.commit made).announce (.update made) :=
        Step.andThen_of_panicked panicked _
      rw [cycle_of_ok result, broken, same]
      exact (drawFlag_of_ok result).trans (by rw [raised, Bool.or_true])

/-- The round of the update, and then as much of the round of the frame as observers let through. -/
def showing (machine : Machine) (made : State) : List (Nat × Event) :=
  machine.round (.update made) ++
    (((machine.commit made).announce (.update made)).machine.announce (.frame made)).trace.events

theorem Reports.shows (reports : machine.Reports made) (raised : machine.state.drawFlag = true) :
    machine.showing made <+: machine.cycle.trace.events := by
  have told : ((machine.commit made).announce (.update made)).trace.events =
      machine.round (.update made) := events_announce_of_done reports.told
  have same := state_of_unheard_eq (unheard_announce (machine.commit made) (.update made))
  have notify : (machine.commit made).notify =
      ((machine.commit made).announce (.update made)).andThen fun told =>
        told.showFrame.andThen tick := rfl
  rw [cycle_of_ok reports.succeeded, Trace.events_append, Trace.events_logged, List.nil_append,
    notify, Step.andThen_of_done reports.told, Trace.events_append, told, showing]
  generalize ((machine.commit made).announce (.update made)).machine = updated at same
  have flag : updated.state.drawFlag = true := by
    rw [same]
    exact (drawFlag_of_ok reports.succeeded).trans (by rw [raised, Bool.or_true])
  have state : updated.state = made := same
  rw [List.prefix_append_right_inj, showFrame, if_pos flag, state]
  exact (Step.prefix_andThen _ _).trans (Step.prefix_andThen _ _)

theorem begin_keeps (machine : Machine) :
    machine.begin.observers = machine.observers ∧
      machine.begin.state.frame = machine.state.frame ∧
      machine.begin.state.drawFlag = machine.state.drawFlag := by
  obtain ⟨pc, begin⟩ := machine.exists_begin_eq
  rw [begin]
  exact ⟨rfl, rfl, rfl⟩

end Machine
end ChipEight
