import ChipEight.Proofs.Timers

namespace ChipEight

structure Undisturbed (deeds : List Deed) : Prop where
  calm : ∀ observer, .subscribed observer ∈ deeds → observer.Calm
  kept : ∀ rom, .loaded rom ∉ deeds

theorem Undisturbed.front {front back : List Deed} (undisturbed : Undisturbed (front ++ back)) :
    Undisturbed front where
  calm observer member := undisturbed.calm observer (List.mem_append_left _ member)
  kept rom member := undisturbed.kept rom (List.mem_append_left _ member)

theorem Undisturbed.back {front back : List Deed} (undisturbed : Undisturbed (front ++ back)) :
    Undisturbed back where
  calm observer member := undisturbed.calm observer (List.mem_append_right _ member)
  kept rom member := undisturbed.kept rom (List.mem_append_right _ member)

namespace Machine
variable {start machine : Machine} {deeds : List Deed}

/-- What the deeds have made of the timers since `start`, and what everybody who was there has been
told of it. -/
structure Elapsed (start : Machine) (deeds : List Deed) (machine : Machine) : Prop where
  calm : machine.Calm
  present : start.observers.length ≤ machine.observers.length
  value : ∀ timer : Timer, (timer.read machine.state).toNat =
    timer.after (timer.read start.state).toNat deeds
  sounds : ∀ position < start.observers.length, sounds (deeds.flatMap Deed.told) position =
    Timer.chimes start.state.soundTimer.toNat deeds

theorem Elapsed.refl (calm : start.Calm) : start.Elapsed [] start where
  calm := calm
  present := Nat.le_refl _
  value _ := rfl
  sounds _ _ := rfl

theorem Elapsed.same {other : Machine} {deed : Deed} (elapsed : start.Elapsed deeds machine)
    (calm : other.Calm) (present : machine.observers.length ≤ other.observers.length)
    (same : ∀ timer : Timer, timer.read other.state = timer.read machine.state)
    (idle : deed.succeeds = false) (silent : deed.told = []) :
    start.Elapsed (deeds ++ [deed]) other where
  calm := calm
  present := Nat.le_trans elapsed.present present
  value timer := by
    rw [same, elapsed.value, Timer.after_concat, Timer.next, idle]
    rfl
  sounds position member := by
    have quiet : [deed].flatMap Deed.told = [] := by rw [List.flatMap_singleton, silent]
    rw [List.flatMap_append, quiet, List.append_nil, elapsed.sounds position member,
      Timer.chimes_concat, Timer.chimes, idle]
    exact (List.append_nil _).symm

theorem Elapsed.cycle (elapsed : start.Elapsed deeds machine) :
    start.Elapsed (deeds ++ [.tried machine]) machine.cycle.machine where
  calm := elapsed.calm.cycle
  present := machine.length_observers_cycle.symm ▸ elapsed.present
  value timer := by
    rw [read_cycle elapsed.calm, elapsed.value, Timer.after_concat]
  sounds position member := by
    have present : position < machine.observers.length := Nat.lt_of_lt_of_le member elapsed.present
    have value : machine.state.soundTimer.toNat =
        Timer.sound.after start.state.soundTimer.toNat deeds := elapsed.value .sound
    have told : [Deed.tried machine].flatMap Deed.told = machine.cycle.trace.events :=
      List.flatMap_singleton ..
    rw [List.flatMap_append, told, sounds_append, elapsed.sounds position member,
      sounds_cycle elapsed.calm present, value, Timer.chimes_concat]

theorem carried_elapsed (start : Machine) :
    Carried fun deeds machine => start.Calm → Undisturbed deeds → start.Elapsed deeds machine where
  subscribed {_ machine} observer earlier calm undisturbed := by
    have elapsed := earlier calm undisturbed.front
    have own := undisturbed.calm observer (List.mem_append_right _ List.mem_cons_self)
    exact elapsed.same (elapsed.calm.subscribe own) (List.length_append ▸ Nat.le_add_right ..)
      (fun _ => rfl) rfl rfl
  loaded _ _ _ undisturbed :=
    absurd (List.mem_append_right _ List.mem_cons_self) (undisturbed.kept _)
  begun {_ machine} earlier calm undisturbed := by
    have elapsed := earlier calm undisturbed.front
    obtain ⟨pc, begin⟩ := machine.exists_begin_eq
    rw [begin]
    exact elapsed.same elapsed.calm (Nat.le_refl _) (fun timer => by cases timer <;> rfl) rfl rfl
  tried _ earlier calm undisturbed := (earlier calm undisturbed.front).cycle
  heard same earlier calm undisturbed := by
    have elapsed := earlier calm undisturbed
    refine ⟨calm_of_unheard_eq same elapsed.calm, ?_, ?_, elapsed.sounds⟩
    · rw [length_observers_of_unheard_eq same]
      exact elapsed.present
    · rw [state_of_unheard_eq same]
      exact elapsed.value

structure Clocked (machine : Machine) : Prop where
  sets : ∀ (timer : Timer) (value : UInt8), machine.sets? timer = some value ↔
    ∃ x, machine.Fetches timer.code x ∧ machine.state.v.get x = value
  set : ∀ (timer : Timer) (value : UInt8), machine.sets? timer = some value →
    machine.cycle.outcome = .done
  counts : machine.cycle.outcome = .done → ∀ timer : Timer,
    (timer.read machine.cycle.machine.state).toNat =
      ((machine.sets? timer).getD (timer.read machine.state)).toNat - 1
  chimes : machine.cycle.outcome = .done → ∀ position < machine.observers.length,
    ChipEight.sounds machine.cycle.trace.events position =
      let shown := machine.cycle.machine.state.soundTimer.toNat
      if shown = 0 then [] else [shown]
  loads : ∀ x, machine.Fetches 0x07 x → machine.cycle.machine.state.v =
    machine.state.v.set x.val machine.state.delayTimer (digit_lt x)
  fails : machine.cycle.outcome ≠ .done → (∃ fault, machine.cycle.outcome = .failed fault) ∧
    (∀ timer : Timer, timer.read machine.cycle.machine.state = timer.read machine.state) ∧
    machine.cycle.trace.events = []

theorem Calm.clocked (calm : machine.Calm) : machine.Clocked where
  sets _ _ := sets?_eq_some_iff
  set timer value sets := by
    obtain ⟨state, succeeded⟩ := exists_ok_of_sets sets
    exact (cycle_of_calm calm succeeded).1
  counts done timer := by
    have succeeds : (Deed.tried machine).succeeds = true := decide_eq_true done
    rw [read_cycle calm, Timer.next, if_pos succeeds, Deed.sets?]
    cases machine.sets? timer <;> rfl
  chimes done position present := by
    have succeeds : (Deed.tried machine).succeeds = true := decide_eq_true done
    have value : Timer.sound.next machine.state.soundTimer.toNat (.tried machine) =
        machine.cycle.machine.state.soundTimer.toNat := (read_cycle calm .sound).symm
    rw [sounds_cycle calm present, Timer.chimes, value]
    simp [Timer.chimes, succeeds]
  loads _ fetches := v_cycle_of_readDelay fetches
  fails broken := by
    cases result : machine.attempt.result with
    | ok state => exact absurd (cycle_of_calm calm result).1 broken
    | error fault =>
      refine ⟨⟨fault, ?_⟩, ?_, events_cycle_of_error result⟩
      · rw [cycle_of_error result]
      · intro timer
        rw [cycle_of_error result]
        cases timer <;> rfl

/-- What has become of the timers up to `current` since the cycle that was tried on `earlier`. If
that one set a timer it counts among those that have succeeded since. -/
structure TimersSince (earlier : Machine) (between : List Deed) (current : Machine) : Prop where
  left : ∀ timer : Timer, timer.Untouched (.tried earlier :: between) →
    (timer.read current.state).toNat =
      (timer.read earlier.state).toNat - (.tried earlier :: between).countP Deed.succeeds
  set : ∀ (timer : Timer) (value : UInt8), earlier.sets? timer = some value →
    timer.Untouched between →
    (timer.read current.state).toNat = value.toNat - (between.countP Deed.succeeds + 1)
  loads : ∀ value : UInt8, earlier.sets? .delay = some value → Timer.delay.Untouched between →
    ∀ x, current.Fetches 0x07 x → (current.cycle.machine.state.v.get x).toNat =
      value.toNat - (between.countP Deed.succeeds + 1)
  sounds : ∀ value : UInt8, earlier.sets? .sound = some value → Timer.sound.Untouched between →
    ∀ position < earlier.observers.length,
      ChipEight.sounds ((.tried earlier :: between).flatMap Deed.told) position =
        countdown value.toNat (between.countP Deed.succeeds + 1)
  silent : ∀ value : UInt8, earlier.sets? .sound = some value → Timer.sound.Untouched between →
    value.toNat ≤ between.countP Deed.succeeds + 1 → ∀ position < earlier.observers.length,
      ChipEight.sounds ((.tried earlier :: between).flatMap Deed.told) position =
        (List.range' 1 (value.toNat - 1)).reverse

theorem Elapsed.timersSince {earlier current : Machine} {between : List Deed}
    (calm : earlier.Calm) (elapsed : earlier.Elapsed (.tried earlier :: between) current) :
    earlier.TimersSince between current := by
  have succeeds : ∀ {timer : Timer} {value : UInt8}, earlier.sets? timer = some value →
      (Deed.tried earlier).succeeds = true :=
    fun sets => decide_eq_true (calm.clocked.set _ _ sets)
  have set : ∀ (timer : Timer) (value : UInt8), earlier.sets? timer = some value →
      timer.Untouched between →
      (timer.read current.state).toNat = value.toNat - (between.countP Deed.succeeds + 1) := by
    intro timer value sets untouched
    have own : (Deed.tried earlier).sets? timer = some value := sets
    rw [elapsed.value, Timer.after_of_set own (succeeds sets) untouched]
  have sounds : ∀ value : UInt8, earlier.sets? .sound = some value →
      Timer.sound.Untouched between → ∀ position < earlier.observers.length,
        ChipEight.sounds ((.tried earlier :: between).flatMap Deed.told) position =
          countdown value.toNat (between.countP Deed.succeeds + 1) := by
    intro value sets untouched position present
    have own : (Deed.tried earlier).sets? .sound = some value := sets
    rw [elapsed.sounds position present, Timer.chimes_of_set own (succeeds sets) untouched]
  refine ⟨?_, set, ?_, sounds, ?_⟩
  · intro timer untouched
    rw [elapsed.value, Timer.after_of_untouched untouched]
  · intro value sets untouched x fetches
    have loaded : current.cycle.machine.state.v.get x = current.state.delayTimer := by
      rw [v_cycle_of_readDelay fetches]
      exact Vector.getElem_set_self _
    rw [loaded]
    exact set .delay value sets untouched
  · intro value sets untouched enough position present
    rw [sounds value sets untouched position present, countdown_of_le enough]

end Machine

namespace Emulator

/-- While no program is loaded and nobody panics, every timer is what it was, or was last set to,
less the cycles that have succeeded since, wherever in the requests the machine stands. What
observers receive of sounds is what these cycles tell them. -/
theorem timers_count_down {machine : Machine} (calm : machine.Calm) {requests : List Request}
    (quiet : ∀ request ∈ requests, request.Calm)
    (kept : ∀ rom, .loaded rom ∉ (atHand machine).history requests) :
    (∀ front current, (atHand machine).StandsAt requests front current →
      current.Clocked ∧
      (∀ timer : Timer, timer.Untouched front → (timer.read current.state).toNat =
        (timer.read machine.state).toNat - front.countP Deed.succeeds) ∧
      ∀ early earlier between, front = early ++ .tried earlier :: between →
        earlier.TimersSince between current) ∧
    ∀ position,
      sounds ((atHand machine).told requests ++ ((atHand machine).after requests).unreported)
          position =
        sounds (((atHand machine).history requests).flatMap Deed.told) position := by
  have undisturbed : Undisturbed ((atHand machine).history requests) :=
    ⟨fun _ => calm_of_subscribed quiet, kept⟩
  have elapsed : ∀ {front current back}, (atHand machine).StandsAt requests front current →
      (atHand machine).history requests = front ++ back → machine.Elapsed front current := by
    intro front current back stands split
    have now : (atHand machine).Holds
        (fun deeds other => machine.Calm → Undisturbed deeds → machine.Elapsed deeds other) [] :=
      fun calm _ => .refl calm
    rw [split] at undisturbed
    exact stands.holds (Machine.carried_elapsed machine) now calm undisturbed.front
  refine ⟨?_, ?_⟩
  · intro front current stands
    obtain ⟨back, split⟩ := stands.exists_append
    have whole := elapsed stands split
    refine ⟨whole.calm.clocked, ?_, ?_⟩
    · intro timer untouched
      rw [whole.value, Timer.after_of_untouched untouched]
    · rintro early earlier between rfl
      rw [List.append_assoc, List.cons_append] at split
      have calmEarlier := (elapsed (.inl ⟨_, split⟩) split).calm
      have now : (atHand machine).Holds (fun history other => ∀ early earlier between,
          history = early ++ .tried earlier :: between → earlier.Calm →
          Undisturbed (.tried earlier :: between) →
          earlier.Elapsed (.tried earlier :: between) other) [] := by
        intro early earlier between same
        simp at same
      have since := stands.holds
        (Machine.carried_since (fun _ calm _ => .refl calm) Machine.carried_elapsed) now
      rw [split, ← List.cons_append, ← List.append_assoc] at undisturbed
      exact (since early earlier between rfl calmEarlier undisturbed.front.back).timersSince
        calmEarlier
  · intro position
    rw [told_history, sounds_progress]

theorem timers_after_three_steps :
    let loaded := ((Machine.create Config.default (.constant Keys.released) (.ofArray #[])).load
      [0x60, 0x03, 0xF0, 0x18, 0x12, 0x04]).machine
    let machine := { loaded with observers := [.silent] }
    let requests := [.step, .step, .step]
    ∀ current, ((atHand machine).after requests).machine? = some current →
      current.state.soundTimer.toNat = 3 - 2 ∧
      sounds ((atHand machine).told requests ++ ((atHand machine).after requests).unreported) 0 =
        [2, 1] := by
  intro loaded machine requests current present
  have calm : machine.Calm := by
    intro observer member
    rw [List.mem_singleton.mp member]
    exact Observer.calm_silent
  have quiet : ∀ request ∈ requests, request.Calm := by simp [requests, Request.Calm]
  have kept : ∀ rom, .loaded rom ∉ (atHand machine).history requests := by
    intro rom member
    simp [history, deeds, requests, answer, step] at member
  obtain ⟨stands, told⟩ := timers_count_down calm quiet kept
  let setter := machine.step.machine.begin
  let early : List Deed := [.begun, .tried machine.begin, .begun]
  let between : List Deed := [.begun, .tried machine.step.machine.step.machine.begin]
  have split : (atHand machine).history requests = early ++ .tried setter :: between := rfl
  have untouched : Timer.sound.Untouched between := by
    intro deed member
    obtain rfl | last := List.mem_cons.mp member
    · rfl
    · rw [List.mem_singleton.mp last]
      decide +kernel
  have one : between.countP Deed.succeeds = 1 := by decide +kernel
  have before : sounds (early.flatMap Deed.told) 0 = [] := by decide +kernel
  have set : setter.sets? .sound = some 3 := by decide +kernel
  obtain ⟨-, -, since⟩ := stands _ current (.inr ⟨split, present⟩)
  have elapsed := since early setter between rfl
  have value := elapsed.set .sound 3 set untouched
  have shown := elapsed.sounds 3 set untouched 0 (by decide +kernel)
  rw [one] at value shown
  refine ⟨value, ?_⟩
  rw [told 0, split, List.flatMap_append, sounds_append, before, shown]
  rfl

end Emulator
end ChipEight
