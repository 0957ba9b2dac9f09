import ChipEight.Proofs.Faults
import ChipEight.Proofs.Lockstep

namespace ChipEight

namespace Machine

/-- The machine once it has begun. Only a first beginning moves the counter, to the start of the
program. -/
def launched (machine : Machine) (already : Bool) : Machine :=
  { machine with
    state := { machine.state with pc := if already then machine.state.pc else State.programStart }
    begun := true }

structure Begins (machine : Machine) (already : Bool) : Prop where
  flag : machine.begun = already
  step : machine.step = (machine.launched already).cycle
  start : (Session.start machine).machine.unheard = (machine.launched already).unheard
  told : (Session.start machine).trace.events =
    machine.round (.start (machine.launched already).state)

theorem Quiet.begins {machine : Machine} (quiet : machine.Quiet) {already : Bool}
    (flag : machine.begun = already) : machine.Begins already := by
  have begin : machine.begin = machine.launched already := by
    obtain ⟨state, keypad, random, observers, config, begun⟩ := machine
    subst flag
    cases begun <;> rfl
  have told : (Session.start machine).trace.events = _ :=
    (tells_announce (quiet_begin quiet) (.start machine.begin.state)).events
  rw [List.flatMap_singleton, round_begin] at told
  refine ⟨flag, congrArg cycle begin, ?_, ?_⟩
  · rw [Session.unheard_start, begin]
  · rw [told, begin]

theorem agree_loaded {first second : Machine} {rom : List UInt8}
    (loaded : (first.load rom).outcome = .done) (otherLoaded : (second.load rom).outcome = .done)
    (audience : first.observers.length = second.observers.length)
    (keys : first.keypad.upcoming = second.keypad.upcoming)
    (bytes : first.random.upcoming = second.random.upcoming)
    (policy : first.config.machineCode = second.config.machineCode)
    (quiet : first.Quiet) (otherQuiet : second.Quiet) :
    (first.load rom).machine.Agree .nothing (second.load rom).machine := by
  obtain ⟨state, made, -, after⟩ | ⟨⟨fault, failed⟩, -⟩ := first.load_cases rom
  · obtain ⟨other, otherMade, -, otherAfter⟩ | ⟨⟨fault, failed⟩, -⟩ := second.load_cases rom
    · obtain rfl : state = other := Except.ok.inj (made.symm.trans otherMade)
      rw [after, otherAfter]
      exact ⟨rfl, rfl, audience, fun _ => keys, fun _ => bytes, fun _ => policy, quiet, otherQuiet⟩
    · rw [otherLoaded] at failed
      contradiction
  · rw [loaded] at failed
    contradiction

end Machine

namespace Emulator

theorem begun_of_fresh {start machine : Machine} {requests : List Request}
    (fresh : start.begun = false) (present : (atHand start).after requests = atHand machine) :
    machine.begun = hasBegun ((atHand start).history requests) := by
  have now : (atHand start).Holds
      (fun history machine => machine.begun = hasBegun history) [] := fresh
  have later := now.after Machine.carried_begun requests
  rw [present] at later
  exact later

theorem begun_of_loaded {loader machine : Machine} {rom : List UInt8} {requests : List Request}
    (loaded : (loader.load rom).outcome = .done)
    (present : (atHand (loader.load rom).machine).after requests = atHand machine) :
    machine.begun = hasBegun ((atHand (loader.load rom).machine).history requests) := by
  apply begun_of_fresh _ present
  obtain ⟨state, -, -, after⟩ | ⟨⟨fault, failed⟩, -⟩ := loader.load_cases rom
  · rw [after]
  · rw [loaded] at failed
    contradiction

/-- Machines that load the same program and go on with the same keys and random bytes cannot be
told apart any more, whatever they went through before. Each is sent to the start of the program by
the first step or session after that, and by no other until a program is loaded again. -/
theorem loading_erases_history {first second : Machine} {rom : List UInt8}
    (loaded : (first.load rom).outcome = .done) (otherLoaded : (second.load rom).outcome = .done)
    (audience : first.observers.length = second.observers.length)
    (keys : first.keypad.upcoming = second.keypad.upcoming)
    (bytes : first.random.upcoming = second.random.upcoming)
    (policy : first.config.machineCode = second.config.machineCode)
    (quiet : first.Quiet) (otherQuiet : second.Quiet) {requests : List Request}
    (calm : ∀ request ∈ requests, request.Calm) :
    (atHand (first.load rom).machine).sights requests =
        (atHand (second.load rom).machine).sights requests ∧
      ∀ loader, loader = first ∨ loader = second → ∀ machine,
        (atHand (loader.load rom).machine).after requests = atHand machine →
        machine.Begins (hasBegun ((atHand (loader.load rom).machine).history requests)) := by
  have agree := Agree.atHand
    (Machine.agree_loaded loaded otherLoaded audience keys bytes policy quiet otherQuiet)
  have spared : ∀ tried, .tried tried ∈ (atHand (first.load rom).machine).history requests →
      tried.Spares .nothing := fun tried _ => tried.spares_nothing
  have later := agree.after calm spared
  refine ⟨agree.sights_eq rfl calm spared, ?_⟩
  rintro loader (rfl | rfl) machine present
  · have begun := begun_of_loaded loaded present
    rw [present] at later
    generalize (atHand (second.load rom).machine).after requests = other at later
    cases later with
    | atHand agree => exact agree.quiet.begins begun
  · have begun := begun_of_loaded otherLoaded present
    rw [present] at later
    generalize (atHand (first.load rom).machine).after requests = other at later
    cases later with
    | atHand agree => exact agree.otherQuiet.begins begun

/-- The observer of the first machine has panicked in a cycle, that of the second has not. -/
theorem loading_after_panic :
    let startled : Observer :=
      { react := fun heard _ => { panic := if heard = 0 then some "startled" else none } }
    let fresh := Machine.create Config.default (.constant Keys.released) (.ofArray #[])
    let first := (Machine.step { fresh with observers := [startled] }).machine
    let second := { fresh with observers := [startled.told] }
    let rom := [0x60, 0x05, 0x00, 0xEE]
    let requests := [.step, .start none, .work 2, .stop]
    first.begun = true ∧ second.begun = false ∧
      (atHand (first.load rom).machine).sights requests =
        (atHand (second.load rom).machine).sights requests := by
  intro startled fresh first second rom requests
  have calm : ∀ request ∈ requests, request.Calm := by simp [requests, Request.Calm]
  have unstartled : ∀ observer : Observer, observer.react = startled.react →
      observer.heard = 1 → observer.Quiet := by
    intro observer react once heard later event
    rw [react]
    exact if_neg (by omega)
  have quiet : first.Quiet := by
    intro observer member
    have listed := List.mem_map_of_mem (f := Observer.unheard) member
    have observers : first.observers.map Observer.unheard = [startled.unheard] :=
      Machine.observers_cycle _
    rw [observers] at listed
    have heard : first.observers.all (fun observer => observer.heard == 1) = true := by
      decide +kernel
    have same : observer.unheard = startled.unheard := List.mem_singleton.mp listed
    have react : observer.unheard.react = startled.unheard.react := by rw [same]
    exact unstartled observer react (eq_of_beq (List.all_eq_true.mp heard observer member))
  have otherQuiet : second.Quiet := by
    intro observer member
    rw [List.mem_singleton.mp member]
    exact unstartled _ rfl rfl
  have keypad : first.keypad = (Keypad.constant Keys.released).polled := Machine.keypad_cycle _
  have random : first.random = .ofArray #[] :=
    (Machine.random_cycle _).trans (if_neg (by decide +kernel))
  have keys : first.keypad.upcoming = second.keypad.upcoming := by
    rw [keypad]
    rfl
  have bytes : first.random.upcoming = second.random.upcoming := by
    rw [random]
    rfl
  obtain ⟨sights, -⟩ := @loading_erases_history first second rom (by decide +kernel)
    (by decide +kernel) (by decide +kernel) keys bytes (by decide +kernel) quiet otherQuiet
    requests calm
  exact ⟨by decide +kernel, rfl, sights⟩

end Emulator
end ChipEight
