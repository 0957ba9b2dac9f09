import ChipEight.Proofs.Hazards
import ChipEight.Proofs.Inputs
import ChipEight.Proofs.Timers.Elapsed

namespace ChipEight

theorem Keys.firstHeld?_of_held {keys : Keys} (held : ∃ key, keys.get key = true) :
    ∃ key, keys.firstHeld? = some key ∧ keys.get key = true ∧
      ∀ lower < key, keys.get lower = false := by
  cases first : keys.firstHeld? with
  | none =>
    obtain ⟨key, held⟩ := held
    have released := (State.firstHeld?_eq_none_iff keys).mp first key.val key.isLt
    exact absurd held (Bool.eq_false_iff.mp released)
  | some key =>
    obtain ⟨held, position, bound, here, before⟩ := List.find?_eq_some_iff_getElem.mp first
    refine ⟨key, rfl, held, ?_⟩
    intro lower below
    rw [← here, List.getElem_finRange, Fin.lt_def] at below
    have skipped := before lower.val below
    rw [List.getElem_finRange] at skipped
    exact Bool.not_eq_true' _ ▸ skipped

namespace State
variable {start state : State} {ticks : Nat}

/-- The state has come of `start` by waiting, its timers counted down so many times. -/
structure Waits (start : State) (ticks : Nat) (state : State) : Prop where
  memory : state.memory = start.memory
  registers : state.v = start.v
  index : state.i = start.i
  counter : state.pc = start.pc
  stack : state.stack = start.stack
  frame : state.frame = start.frame
  timers : ∀ timer : Timer, (timer.read state).toNat = (timer.read start).toNat - ticks

theorem Waits.refl (start : State) : start.Waits 0 start :=
  ⟨rfl, rfl, rfl, rfl, rfl, rfl, fun _ => rfl⟩

theorem Waits.setKeys (waits : start.Waits ticks state) (keys : Keys) :
    start.Waits ticks (state.setKeys keys) where
  memory := waits.memory
  registers := waits.registers
  index := waits.index
  counter := waits.counter
  stack := waits.stack
  frame := waits.frame
  timers timer := by
    rw [← waits.timers]
    cases timer <;> rfl

theorem Waits.settled (waits : start.Waits ticks state) :
    start.Waits (ticks + 1) state.settled where
  memory := waits.memory
  registers := waits.registers
  index := waits.index
  counter := waits.counter
  stack := waits.stack
  frame := waits.frame
  timers timer := by rw [timer.toNat_read_settled, waits.timers, Nat.sub_sub]

end State

namespace Machine
variable {start machine : Machine} {x : Fin 16} {ticks : Nat}

theorem Fetches.of_waits {code : Nat} (fetches : start.Fetches code x)
    (waits : start.state.Waits ticks machine.state) : machine.Fetches code x := by
  unfold Fetches
  rw [waits.memory, waits.counter]
  exact fetches

theorem result_of_awaitKey (fetches : machine.Fetches 0x0A x) :
    machine.state.pc.toNat + 2 ≤ 4096 ∧
      machine.attempt.result = machine.poll.state.passed.awaitKey x := by
  obtain ⟨opcode, word, leading, low, rfl⟩ := fetches
  have known : Kind.ofOpcode? opcode = some .awaitKey :=
    (Kind.ofOpcode?_eq_some_of_low opcode .awaitKey rfl rfl rfl nofun).mpr ⟨leading, low⟩
  have found := State.instruction_eq_of_word word known
  exact ⟨(State.instruction_eq_ok found).1, result_of_kind found nofun⟩

theorem result_of_released (fetches : machine.Fetches 0x0A x)
    (released : machine.keypad.current.firstHeld? = none) :
    machine.attempt.result =
      if machine.state.pc = 0 then .error (.programCounterUnderflow 2)
      else .ok machine.poll.state := by
  obtain ⟨inside, result⟩ := result_of_awaitKey fetches
  have keys : machine.poll.state.passed.keys.firstHeld? = none := released
  have passed : machine.poll.state.passed.pc.toNat = machine.state.pc.toNat + 2 :=
    State.toNat_pc_passed inside
  rw [result, State.awaitKey, keys]
  dsimp only
  rw [State.rewind, passed]
  split
  · next room =>
    have moved : machine.state.pc ≠ 0 := by
      rintro origin
      rw [origin] at room
      contradiction
    have back : machine.poll.state.passed.pc - 2 = machine.poll.state.pc :=
      UInt16.add_sub_cancel ..
    rw [if_neg moved, back]
    rfl
  · next low =>
    have origin : machine.state.pc = 0 := by
      rw [← UInt16.toNat_inj]
      show machine.state.pc.toNat = 0
      omega
    have two : machine.poll.state.passed.pc = 2 := by
      show machine.state.pc + 2 = 2
      rw [origin]
      rfl
    rw [if_pos origin, two]

private theorem result_of_pressed {key : Fin 16} (fetches : machine.Fetches 0x0A x)
    (held : machine.keypad.current.firstHeld? = some key) :
    machine.attempt.result =
      .ok (machine.poll.state.passed.setRegister x (UInt8.ofNat key.val)) := by
  have keys : machine.poll.state.passed.keys.firstHeld? = some key := held
  rw [(result_of_awaitKey fetches).2, State.awaitKey, keys]
  rfl

/-- A cycle that finds no key held is done all the same. It tells everybody of the state and counts
the timers down. -/
theorem Calm.cycle_of_released (calm : machine.Calm) (fetches : machine.Fetches 0x0A x)
    (released : machine.keypad.current.firstHeld? = none) (moved : machine.state.pc ≠ 0) :
    machine.cycle.outcome = .done ∧
      machine.cycle.trace.events = machine.poll.state.happenings.flatMap machine.round ∧
      machine.cycle.machine.state = machine.poll.state.settled := by
  have succeeded := result_of_released fetches released
  rw [if_neg moved] at succeeded
  obtain ⟨done, same, events⟩ := cycle_of_calm calm succeeded
  exact ⟨done, events, state_of_unheard_eq same⟩

theorem cycle_of_stuck (fetches : machine.Fetches 0x0A x)
    (released : machine.keypad.current.firstHeld? = none) (origin : machine.state.pc = 0) :
    machine.cycle.outcome = .failed (.programCounterUnderflow 2) ∧
      machine.cycle.trace.events = [] ∧ machine.cycle.machine = machine.poll := by
  have failed := result_of_released fetches released
  rw [if_pos origin] at failed
  refine ⟨?_, events_cycle_of_error failed, ?_⟩
  · rw [cycle_of_error failed]
  · rw [cycle_of_error failed]

theorem Calm.cycle_of_pressed {key : Fin 16} (calm : machine.Calm)
    (fetches : machine.Fetches 0x0A x)
    (held : machine.keypad.current.firstHeld? = some key) :
    machine.cycle.outcome = .done ∧
      machine.cycle.machine.state.v =
        machine.state.v.set x.val (UInt8.ofNat key.val) (digit_lt x) ∧
      machine.cycle.machine.state.pc.toNat = machine.state.pc.toNat + 2 := by
  obtain ⟨done, same, -⟩ := cycle_of_calm calm (result_of_pressed fetches held)
  have state : machine.cycle.machine.state =
      (machine.poll.state.passed.setRegister x (UInt8.ofNat key.val)).settled :=
    state_of_unheard_eq same
  rw [state]
  exact ⟨done, rfl, State.toNat_pc_passed (result_of_awaitKey fetches).1⟩

def waited (start : Machine) (cycles : Nat) : Nat := if start.state.pc = 0 then 0 else cycles

structure Waiting (start : Machine) (deeds : List Deed) (machine : Machine) : Prop where
  calm : machine.Calm
  begun : machine.begun = true
  accounted : machine.Accounted start.keypad start.random deeds
  waits : start.state.Waits (start.waited (deeds.countP Deed.isTry)) machine.state

variable {deeds : List Deed} {empty : Nat}

theorem Waiting.refl (calm : start.Calm) (begun : start.begun = true) : start.Waiting [] start where
  calm := calm
  begun := begun
  accounted := ⟨rfl, rfl, rfl, rfl⟩
  waits := by
    have fresh : start.waited 0 = 0 := ite_self 0
    rw [List.countP_nil, fresh]
    exact .refl start.state

theorem Waiting.cycle (waiting : start.Waiting deeds machine) (fetches : start.Fetches 0x0A x)
    (released : (start.keypad.upcoming (deeds.countP Deed.isTry)).firstHeld? = none) :
    start.Waiting (deeds ++ [.tried machine]) machine.cycle.machine where
  calm := waiting.calm.cycle
  begun := machine.begun_cycle.trans waiting.begun
  accounted := waiting.accounted.cycle
  waits := by
    have own := fetches.of_waits waiting.waits
    rw [← waiting.accounted.current_eq] at released
    have polled := waiting.waits.setKeys machine.keypad.current
    have one : (deeds ++ [Deed.tried machine]).countP Deed.isTry = deeds.countP Deed.isTry + 1 :=
      List.countP_append
    rw [one]
    -- At address zero the cycle fails, and the timers stand still.
    unfold waited at polled ⊢
    split at polled
    · next origin =>
      obtain ⟨-, -, same⟩ := cycle_of_stuck own released (waiting.waits.counter.trans origin)
      rw [if_pos origin, same]
      exact polled
    · next moved =>
      have off : machine.state.pc ≠ 0 := by rwa [waiting.waits.counter]
      obtain ⟨-, -, same⟩ := waiting.calm.cycle_of_released own released off
      rw [if_neg moved, same]
      exact polled.settled

theorem carried_waiting (fetches : start.Fetches 0x0A x)
    (released : ∀ polls < empty, (start.keypad.upcoming polls).firstHeld? = none) :
    CarriedWhile (fun deeds => Undisturbed deeds ∧ deeds.countP Deed.isTry ≤ empty)
      start.Waiting where
  front lasts := by
    obtain ⟨undisturbed, few⟩ := lasts
    rw [List.countP_append] at few
    exact ⟨undisturbed.front, by omega⟩
  subscribed {_ _ observer} lasts waiting := by
    have own := lasts.1.calm observer (List.mem_append_right _ List.mem_cons_self)
    refine ⟨waiting.calm.subscribe own, waiting.begun, waiting.accounted.same rfl rfl rfl rfl, ?_⟩
    rw [List.countP_append]
    exact waiting.waits
  loaded lasts := absurd lasts.1.kept (not_unloaded_concat _ _)
  begun waiting := by
    rw [begin_of_begun waiting.begun]
    refine ⟨waiting.calm, waiting.begun, waiting.accounted.same rfl rfl rfl rfl, ?_⟩
    rw [List.countP_append]
    exact waiting.waits
  tried {deeds _} lasts _ waiting := by
    obtain ⟨-, few⟩ := lasts
    rw [List.countP_append] at few
    exact waiting.cycle fetches (released _ few)
  heard same waiting := by
    refine ⟨calm_of_unheard_eq same waiting.calm, ?_, ?_, ?_⟩
    · rw [begun_of_unheard_eq same, waiting.begun]
    · exact (carried_accounted _ _).heard same waiting.accounted
    · rw [state_of_unheard_eq same]
      exact waiting.waits

end Machine

namespace Emulator
variable {start : Machine} {x : Fin 16} {empty : Nat}

private theorem after_steps (start : Machine) (count : Nat) :
    ∃ current, (atHand start).after (List.replicate count .step) = atHand current ∧
      Unloaded ((atHand start).history (List.replicate count .step)) ∧
      ((atHand start).history (List.replicate count .step)).countP Deed.isTry = count := by
  induction count generalizing start with
  | zero => exact ⟨start, rfl, nofun, rfl⟩
  | succ count ih =>
    obtain ⟨current, same, unloaded, tries⟩ := ih start.step.machine
    have first : (atHand start).history (List.replicate (count + 1) .step) =
        [.begun, .tried start.begin] ++
          (atHand start.step.machine).history (List.replicate count .step) := rfl
    refine ⟨current, same, ?_, ?_⟩
    · intro rom member
      rw [first] at member
      exact unloaded rom (by simpa using member)
    · rw [first, List.countP_append, tries]
      exact Nat.add_comm ..

private theorem waiting_of_standsAt (begun : start.begun = true) (calm : start.Calm)
    (fetches : start.Fetches 0x0A x)
    (released : ∀ polls < empty, (start.keypad.upcoming polls).firstHeld? = none)
    {requests : List Request} (quiet : ∀ request ∈ requests, request.Calm) {front : List Deed}
    {current : Machine} (stands : (atHand start).StandsAt requests front current)
    (unloaded : Unloaded front) (few : front.countP Deed.isTry ≤ empty) :
    start.Waiting front current := by
  have now : (atHand start).Holds
      (fun deeds machine => Undisturbed deeds ∧ deeds.countP Deed.isTry ≤ empty →
        start.Waiting deeds machine) [] := fun _ => .refl calm begun
  obtain ⟨back, split⟩ := stands.exists_append
  have undisturbed : Undisturbed front := by
    refine ⟨?_, unloaded⟩
    intro observer member
    have subscribed : .subscribed observer ∈ (atHand start).history requests := by
      rw [split]
      exact List.mem_append_left _ member
    exact calm_of_subscribed quiet subscribed
  exact stands.holds (Machine.carried_waiting fetches released).carried now ⟨undisturbed, few⟩

/-- A machine that waits for a key does so in every cycle in which no key is held, whatever else is
asked for in between. Then nothing but the timers moves, or at address zero not even they. The
first cycle in which a key is held stores the lowest such key and goes on. -/
theorem waiting_ends_with_held_key (begun : start.begun = true) (calm : start.Calm)
    (fetches : start.Fetches 0x0A x)
    (released : ∀ polls < empty, ∀ key, (start.keypad.upcoming polls).get key = false)
    (held : ∃ key, (start.keypad.upcoming empty).get key = true) :
    (∀ count, ∃ front current, (atHand start).StandsAt (List.replicate count .step) front current ∧
      Unloaded front ∧ front.countP Deed.isTry = count) ∧
    ∀ requests front current, (∀ request ∈ requests, request.Calm) →
      (atHand start).StandsAt requests front current → Unloaded front →
      let count := front.countP Deed.isTry
      let keys := start.keypad.upcoming count
      let cycled := current.cycle
      (count < empty → start.state.pc ≠ 0 →
        cycled.outcome = .done ∧
        (∃ rest, cycled.trace.events =
          (.update { current.state with keys } :: rest).flatMap current.round) ∧
        start.state.Waits (count + 1) cycled.machine.state) ∧
      (count < empty → start.state.pc = 0 →
        start.state.Waits 0 current.state ∧
        cycled.outcome = .failed (.programCounterUnderflow 2) ∧ cycled.trace.events = [] ∧
        cycled.machine = { current with
          state := { current.state with keys }, keypad := current.keypad.polled }) ∧
      (count = empty →
        cycled.outcome = .done ∧
        ∃ key, keys.get key = true ∧ (∀ lower < key, keys.get lower = false) ∧
          cycled.machine.state.v.get x = UInt8.ofNat key.val ∧
          (∀ register, register ≠ x →
            cycled.machine.state.v.get register = start.state.v.get register) ∧
          cycled.machine.state.pc.toNat = start.state.pc.toNat + 2) := by
  have unheld : ∀ polls < empty, (start.keypad.upcoming polls).firstHeld? = none := by
    intro polls early
    rw [State.firstHeld?_eq_none_iff]
    intro key h
    exact released polls early ⟨key, h⟩
  refine ⟨?_, ?_⟩
  · intro count
    obtain ⟨current, same, unloaded, tries⟩ := after_steps start count
    exact ⟨_, current, .inr ⟨rfl, by rw [same]; rfl⟩, unloaded, tries⟩
  · intro requests front current quiet stands unloaded count keys cycled
    have waiting : count ≤ empty → start.Waiting front current :=
      waiting_of_standsAt begun calm fetches unheld quiet stands unloaded
    refine ⟨?_, ?_, ?_⟩
    · intro early moved
      have waiting := waiting (Nat.le_of_lt early)
      have polled : current.keypad.current = keys := waiting.accounted.current_eq
      have next := (waiting.cycle fetches (unheld count early)).waits
      rw [List.countP_append, Machine.waited, if_neg moved] at next
      have off : current.state.pc ≠ 0 := by rwa [waiting.waits.counter]
      obtain ⟨done, events, -⟩ := waiting.calm.cycle_of_released
        (fetches.of_waits waiting.waits) (polled ▸ unheld count early) off
      rw [← polled]
      exact ⟨done, ⟨_, events⟩, next⟩
    · intro early origin
      have waiting := waiting (Nat.le_of_lt early)
      have polled : current.keypad.current = keys := waiting.accounted.current_eq
      have waits := waiting.waits
      rw [Machine.waited, if_pos origin] at waits
      rw [← polled]
      exact ⟨waits, Machine.cycle_of_stuck (fetches.of_waits waits) (polled ▸ unheld count early)
        (waits.counter.trans origin)⟩
    · intro last
      have waiting := waiting (Nat.le_of_eq last)
      have polled : current.keypad.current = keys := waiting.accounted.current_eq
      have due : ∃ key, keys.get key = true := by
        have same : keys = start.keypad.upcoming empty := congrArg start.keypad.upcoming last
        rwa [same]
      obtain ⟨key, first, pressed, lowest⟩ := Keys.firstHeld?_of_held due
      rw [← polled] at first
      obtain ⟨done, v, pc⟩ :=
        waiting.calm.cycle_of_pressed (fetches.of_waits waiting.waits) first
      refine ⟨done, key, pressed, lowest, ?_, ?_, ?_⟩
      · rw [v, Registers.get_set, if_pos rfl]
      · intro register other
        rw [v, Registers.get_set, if_neg other, waiting.waits.registers]
      · rw [pc, waiting.waits.counter]

theorem waiting_for_third_snapshot :
    let keypad := Keypad.ofList Keys.released [Keys.released, Keys.released, Keys.ofMask 0x280]
    let fresh := Machine.create Config.default keypad (.ofArray #[])
    let start := (fresh.load [0xF3, 0x0A]).machine.begin
    let bottom := { start with
      state := { start.state with memory := Memory.zero.overlay 0 [0xF3, 0x0A], pc := 0 } }
    (start.cycle.outcome = .done ∧
      ∀ current, ((atHand start).after [.step, .step]).machine? = some current →
        current.cycle.outcome = .done ∧ current.cycle.machine.state.v.get 3 = 7 ∧
          current.cycle.machine.state.pc.toNat = 0x202) ∧
    bottom.cycle.outcome = .failed (.programCounterUnderflow 2) := by
  intro keypad fresh start bottom
  have calm : ∀ machine : Machine, machine.observers = [] → machine.Calm := by
    intro machine nobody observer member
    rw [nobody] at member
    contradiction
  have released : ∀ polls < 2, ∀ key, (keypad.upcoming polls).get key = false := by
    intro polls early key
    have empty : keypad.upcoming polls = Keys.released := by
      obtain _ | _ | polls := polls
      · rfl
      · rfl
      · contradiction
    rw [empty]
    exact Vector.getElem_replicate ..
  have bits : ∀ key : Fin 16, (keypad.upcoming 2).get key = Nat.testBit 0x280 key.val :=
    fun key => Vector.getElem_ofFn key.isLt
  have held : ∃ key, (keypad.upcoming 2).get key = true := ⟨7, bits 7⟩
  have word : (start.state.memory.word start.state.pc.toNat).toOption = some 0xF30A := by
    decide +kernel
  have low : (bottom.state.memory.word bottom.state.pc.toNat).toOption = some 0xF30A := by
    decide +kernel
  have fetches : start.Fetches 0x0A 3 := ⟨_, eq_ok_of_toOption word, rfl, rfl, rfl⟩
  have bottomFetches : bottom.Fetches 0x0A 3 := ⟨_, eq_ok_of_toOption low, rfl, rfl, rfl⟩
  obtain ⟨-, waits⟩ := waiting_ends_with_held_key rfl (calm start rfl) fetches released held
  obtain ⟨-, sticks⟩ := waiting_ends_with_held_key rfl (calm bottom rfl) bottomFetches released
    held
  refine ⟨⟨?_, ?_⟩, ?_⟩
  · obtain ⟨blocks, -⟩ := waits [] [] start (by simp) (.inr ⟨rfl, rfl⟩) (by simp [Unloaded])
    exact (blocks (by decide) (by decide)).1
  · intro current present
    obtain ⟨-, -, ends⟩ := waits [.step, .step]
      [.begun, .tried start, .begun, .tried start.cycle.machine.begin] current
      (by simp [Request.Calm]) (.inr ⟨rfl, present⟩) (by simp [Unloaded])
    obtain ⟨done, key, pressed, lowest, stored, -, pc⟩ := ends rfl
    have seven : key = 7 := by
      apply Fin.le_antisymm
      · rw [← Fin.not_lt]
        intro above
        have free := lowest 7 above
        contradiction
      · rw [← Fin.not_lt]
        intro below
        have free : ∀ bit < 7, Nat.testBit 0x280 bit = false := by decide
        have own : Nat.testBit 0x280 key.val = true := (bits key).symm.trans pressed
        rw [free key.val below] at own
        contradiction
    rw [seven] at stored
    exact ⟨done, stored, pc⟩
  · obtain ⟨-, fails, -⟩ := sticks [] [] bottom (by simp) (.inr ⟨rfl, rfl⟩) (by simp [Unloaded])
    exact (fails (by decide) rfl).2.1

end Emulator
end ChipEight
