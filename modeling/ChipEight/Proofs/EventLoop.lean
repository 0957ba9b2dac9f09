import ChipEight.Host.EventLoop
import ChipEight.Proofs.Forwarding
import ChipEight.Proofs.Rendering
import ChipEight.Proofs.Scaling

/-! What the loop around the window makes of a worker's frames. It leaves frames out but never the
newest, and nothing that a program does on the machine can make it panic. -/
namespace ChipEight

theorem Display.Window.exists_render? (window : Window) {frame : Frame} (binary : frame.Binary) :
    ∃ image, window.render? frame = some image := by
  have made := rgb?_eq_some_iff.mpr ⟨binary, rfl⟩
  have room : 31 * rowBytes + 192 ≤ (Array.replicate 6144 (0 : UInt8)).size := by
    rw [Array.size_replicate]
    decide
  obtain ⟨texture, uploaded, -⟩ := exists_upload? made (by decide) room
  refine ⟨window.stretch texture, ?_⟩
  rw [render?, made]
  simp only [Option.bind_eq_bind, Option.bind_some, uploaded]

namespace Host
open Display

def Exit.Orderly (exit : Exit) : Prop := ∀ cause, exit ≠ .panicked cause

theorem Exit.orderly_refused (refusal : Refusal) : (refused refusal).Orderly :=
  fun _ same => Exit.noConfusion same

theorem Exit.orderly_failed (error : LaunchError) : (failed error).Orderly :=
  fun _ same => Exit.noConfusion same

namespace Console

/-- A worker has the machine. It does not panic, and all that it has shown is sound. -/
structure WorkedBy (console : Console) (session : Session) : Prop where
  busy : console.emulator = .busy session
  calm : session.Calm
  sound : (Emulator.busy session).Holds (fun _ machine => machine.state.Sound) []
  shown : ShowsSound session.trace.events

variable {console : Console} {session : Session}

theorem WorkedBy.sent_eq (worked : console.WorkedBy session) :
    console.sent = (session.trace.stream windowPosition).filterMap Event.frame? := by
  rw [sent, worked.busy]
  exact congrArg Channel.frames (Channel.after_of_open rfl _)

theorem WorkedBy.binary (worked : console.WorkedBy session) {frame : Frame}
    (member : frame ∈ console.sent) : frame.Binary := by
  rw [worked.sent_eq] at member
  obtain ⟨event, heard, shows⟩ := List.mem_filterMap.mp member
  obtain ⟨⟨receiver, told⟩, present, own⟩ := List.mem_filterMap.mp heard
  obtain ⟨-, same⟩ := Option.ite_none_right_eq_some.mp own
  obtain rfl : told = event := Option.some.inj same
  have sound : told.Sound := worked.shown _ present
  cases told with
  | frame state =>
    obtain rfl : state.frame = frame := Option.some.inj shows
    exact State.Sound.frame sound
  | start | update | sound | fault | stop => contradiction

def WorksOn (before after : Console) : Prop :=
  (∃ session, after.WorkedBy session) ∧ before.sent <+: after.sent

theorem WorkedBy.worksOn_work (worked : console.WorkedBy session) (cycles : Nat) :
    console.WorksOn (console.work cycles) := by
  have later : (console.work cycles).WorkedBy (session.work cycles) :=
    { busy := by rw [work, worked.busy]; rfl
      calm := worked.calm.work cycles
      sound := (worked.sound.work Machine.carried_sound cycles).blind []
      shown := Session.showsSound_work worked.sound.1 worked.shown cycles }
  refine ⟨⟨_, later⟩, ?_⟩
  rw [worked.sent_eq, later.sent_eq, Session.work]
  split
  · exact List.prefix_rfl
  · rw [Trace.stream_append, List.filterMap_append]
    exact List.prefix_append ..

theorem WorkedBy.worksOn_notice (worked : console.WorkedBy session) (event : WindowEvent) :
    console.WorksOn (console.notice event) := by
  cases event with
  | quit | other => exact ⟨⟨session, worked⟩, List.prefix_rfl⟩
  | key event =>
    have later : (console.handle event).WorkedBy
        { session with machine := { session.machine with
          keypad := { session.machine.keypad with
            snapshot := fun _ => event.apply console.held } } } :=
      { busy := by rw [handle, worked.busy]; rfl
        calm := ⟨worked.calm.machine, worked.calm.unbroken⟩
        sound := worked.sound
        shown := worked.shown }
    have same : (console.handle event).sent = console.sent :=
      later.sent_eq.trans worked.sent_eq.symm
    exact ⟨⟨_, later⟩, same ▸ List.prefix_rfl⟩

theorem WorksOn.trans {middle after : Console} (first : console.WorksOn middle)
    (second : middle.WorksOn after) : console.WorksOn after :=
  ⟨second.1, first.2.trans second.2⟩

theorem WorkedBy.worksOn_poll (worked : console.WorkedBy session)
    (events : List (WindowEvent × Nat)) : console.WorksOn (console.poll events).1 := by
  induction events generalizing console session with
  | nil => exact ⟨⟨session, worked⟩, List.prefix_rfl⟩
  | cons first rest ih =>
    obtain ⟨event, cycles⟩ := first
    rw [poll]
    split
    · exact worked.worksOn_work cycles
    · have noticed := worked.worksOn_notice event
      obtain ⟨heard, hearing⟩ := noticed.1
      have busy := hearing.worksOn_work cycles
      obtain ⟨going, later⟩ := busy.1
      exact (noticed.trans busy).trans (ih later)

theorem WorkedBy.orderly_close (worked : console.WorkedBy session) : console.close.Orderly := by
  intro cause
  rw [close, worked.busy, Emulator.stop_of_calm worked.calm]
  obtain done | ⟨fault, failed⟩ := worked.calm.outcome_finish
  · simp [done]
  · rw [failed]
    cases fault <;> simp

end Console

namespace Watch
variable {watch : Watch}

/-- The newest of the frames taken is the one drawn last, and the others drawn are among them. -/
structure Current (watch : Watch) : Prop where
  worked : ∃ session, watch.console.WorkedBy session
  taken_le : watch.taken ≤ watch.console.sent.length
  drawn : watch.drawn.Sublist (watch.console.sent.take watch.taken)
  newest : watch.drawn.getLast? = (watch.console.sent.take watch.taken).getLast?

theorem Current.goOn (current : watch.Current) {console : Console}
    (works : watch.console.WorksOn console) : Current { watch with console } := by
  obtain ⟨worked, more, sent⟩ := works
  have taken : console.sent.take watch.taken = watch.console.sent.take watch.taken := by
    rw [← sent, List.take_append_of_le_length current.taken_le]
  refine ⟨worked, ?_, ?_, ?_⟩
  · rw [← sent, List.length_append]
    exact Nat.le_add_right_of_le current.taken_le
  · exact taken.symm ▸ current.drawn
  · exact taken.symm ▸ current.newest

def Ends (next : Except Exit Watch) : Prop :=
  (∃ after, next = .ok after ∧ after.Current) ∨ ∃ exit, next = .error exit ∧ exit.Orderly

theorem Current.draw (current : watch.Current) (refusal : Option String) :
    Ends (watch.draw refusal) := by
  unfold Watch.draw
  dsimp only
  split
  · exact .inl ⟨watch, rfl, current⟩
  next first later pending =>
    have split : watch.console.sent =
        watch.console.sent.take watch.taken ++ first :: later := by
      rw [← pending, List.take_append_drop]
    have last : (first :: later).getLast? = some (later.getLast?.getD first) :=
      List.getLast?_cons
    have member : later.getLast?.getD first ∈ first :: later := List.mem_of_getLast? last
    obtain ⟨session, worked⟩ := current.worked
    have sent : later.getLast?.getD first ∈ watch.console.sent := by
      rw [split]
      exact List.mem_append_right _ member
    obtain ⟨image, rendered⟩ := watch.window.exists_render? (worked.binary sent)
    rw [rendered]
    cases refusal with
    | some reason => exact .inr ⟨_, rfl, Exit.orderly_failed _⟩
    | none =>
      refine .inl ⟨_, rfl, ⟨session, worked⟩, Nat.le_refl _, ?_, ?_⟩
      · dsimp only
        rw [List.take_length, split]
        exact current.drawn.append (List.singleton_sublist.mpr member)
      · dsimp only
        rw [List.take_length, split, List.getLast?_append, List.getLast?_append, last]
        rfl

theorem Current.turn (current : watch.Current) (turn : Turn) : Ends (watch.turn turn) := by
  obtain ⟨session, worked⟩ := current.worked
  have polled := worked.worksOn_poll turn.events
  obtain ⟨poller, polling⟩ := polled.1
  have early := polling.worksOn_work turn.early
  obtain ⟨worker, working⟩ := early.1
  unfold Watch.turn
  dsimp only
  split
  · exact .inr ⟨_, rfl, polling.orderly_close⟩
  split
  · exact .inr ⟨_, rfl, working.orderly_close⟩
  · have late := working.worksOn_work turn.late
    exact (current.goOn ((polled.trans early).trans late)).draw turn.refusal

theorem Current.turns (current : watch.Current) (turns : List Turn) :
    Ends (turns.foldlM Watch.turn watch) := by
  induction turns generalizing watch with
  | nil => exact .inl ⟨watch, rfl, current⟩
  | cons turn rest ih =>
    rw [List.foldlM_cons]
    obtain ⟨after, turned, later⟩ | ⟨exit, ended, orderly⟩ := current.turn turn
    · rw [turned]
      exact ih later
    · rw [ended]
      exact .inr ⟨exit, rfl, orderly⟩

end Watch

theorem prepare_cases (around : Surroundings) (options : LaunchOptions) :
    (∃ console machine, Console.prepare around options = .ok console ∧
      console.emulator = .atHand machine ∧ machine.Calm ∧ machine.state.Sound) ∨
    ∃ exit, Console.prepare around options = .error exit ∧ exit.Orderly := by
  obtain ⟨machine, created, calm⟩ := Console.exists_atHand options.config around.random
  unfold Console.prepare
  cases around.read options.path with
  | error cause => exact .inr ⟨_, rfl, Exit.orderly_failed _⟩
  | ok rom =>
    dsimp only
    rw [created, Emulator.load, Emulator.withMachine_atHand]
    obtain ⟨state, made, done, loaded⟩ | ⟨⟨fault, failed⟩, -⟩ := machine.load_cases rom
    · rw [done, loaded]
      exact .inl ⟨_, _, rfl, rfl, calm, State.sound_loaded made⟩
    · rw [failed]
      exact .inr ⟨_, rfl, Exit.orderly_failed _⟩

theorem openWindow_cases (library : Library) (scale : UInt32) :
    (∃ window, openWindow library scale = .ok window) ∨
    (∃ exit, openWindow library scale = .error exit ∧ exit.Orderly) ∨
    2 ^ 26 ≤ scale.toNat ∧ openWindow library scale = .error (.panicked productPanic) := by
  cases video : library.video with
  | error reason =>
    refine .inr (.inl ⟨.failed (.display ⟨reason⟩), ?_, Exit.orderly_failed _⟩)
    simp only [openWindow, video]
    rfl
  | ok =>
    obtain small | large := Nat.lt_or_ge scale.toNat (2 ^ 26)
    · obtain ⟨window, exact⟩ := Window.exists_exact_iff.mpr small
      obtain ⟨refused, opened⟩ := openWindow_of_exact video exact
      cases built : library.build windowTitle window with
      | error reason => exact .inr (.inl ⟨_, refused reason built, Exit.orderly_failed _⟩)
      | ok =>
        cases drawable : library.canvas window with
        | error reason =>
          refine .inr (.inl ⟨.failed (.display ⟨reason⟩), ?_, Exit.orderly_failed _⟩)
          simp only [openWindow, video, Window.ofScale?_eq_some_iff.mpr exact, built, drawable]
          rfl
        | ok => exact .inl ⟨window, opened built drawable⟩
    · exact .inr (.inr ⟨large, openWindow_of_overflow video large⟩)

theorem launch_cases (around : Surroundings) (options : LaunchOptions) :
    (∃ console window machine, launch around options = .ok (console, window) ∧
      console.emulator = .atHand machine ∧ machine.Calm ∧ machine.state.Sound) ∨
    (∃ exit, launch around options = .error exit ∧ exit.Orderly) ∨
    2 ^ 26 ≤ options.scale.toNat ∧ launch around options = .error (.panicked productPanic) := by
  obtain ⟨console, machine, prepared, atHand, calm, sound⟩ | ⟨exit, failed, orderly⟩ :=
    prepare_cases around options
  · cases started : around.library.start with
    | error reason =>
      refine .inr (.inl ⟨.failed (.library reason), ?_, Exit.orderly_failed _⟩)
      rw [launch, prepared, started]
      rfl
    | ok =>
      rw [launch_of_started prepared started]
      obtain ⟨window, opened⟩ | ⟨exit, refused, orderly⟩ | ⟨large, overflow⟩ :=
        openWindow_cases around.library options.scale
      · rw [opened]
        cases around.library.events with
        | error reason => exact .inr (.inl ⟨_, rfl, Exit.orderly_failed _⟩)
        | ok => exact .inl ⟨console, window, machine, rfl, atHand, calm, sound⟩
      · rw [refused]
        exact .inr (.inl ⟨exit, rfl, orderly⟩)
      · rw [overflow]
        exact .inr (.inr ⟨large, rfl⟩)
  · refine .inr (.inl ⟨exit, ?_, orderly⟩)
    rw [launch, failed]
    rfl

theorem current_start {console : Console} {machine : Machine} (window : Window)
    (atHand : console.emulator = .atHand machine) (calm : machine.Calm)
    (sound : machine.state.Sound) :
    let emulator := (console.emulator.start none).emulator
    Watch.Current ⟨{ console with emulator }, window, 0, []⟩ := by
  intro emulator
  have ready : (Emulator.atHand machine).Holds (fun _ machine => machine.state.Sound) [] := sound
  have started := ready.answer Machine.carried_sound (.start none)
  have worked : Console.WorkedBy { console with emulator } (Session.start machine) :=
    { busy := congrArg (fun emulator => (emulator.start none).emulator) atHand
      calm := Session.calm_start calm
      sound := started.blind []
      shown := machine.begin.showsSound_announce (Machine.sound_begin sound) }
  exact ⟨⟨_, worked⟩, Nat.zero_le _, List.nil_sublist _, rfl⟩

/-- Whatever the program is given, it goes on or comes to an orderly end, unless the scale is too
large for a window. -/
theorem runProgram_cases (parse : ArgumentParser) (around : Surroundings) (turns : List Turn)
    (arguments : List String) :
    Watch.Ends (runProgram parse around turns arguments) ∨
    ∃ parsed, parse arguments = .ok parsed ∧ 2 ^ 26 ≤ parsed.scale.toNat ∧
      runProgram parse around turns arguments = .error (.panicked productPanic) := by
  cases accepted : parse arguments with
  | error refusal =>
    refine .inl (.inr ⟨.refused refusal, ?_, Exit.orderly_refused refusal⟩)
    rw [runProgram, comeUp, accepted]
    rfl
  | ok parsed =>
    rw [runProgram, comeUp_of_parsed accepted]
    obtain ⟨console, window, machine, launched, atHand, calm, sound⟩ |
        ⟨exit, failed, orderly⟩ | ⟨large, overflow⟩ :=
      launch_cases around parsed.launchOptions
    · rw [launched]
      left
      have current := current_start window atHand calm sound
      simp only [bind, Except.bind]
      cases around.noThread with
      | none =>
        rw [atHand] at current ⊢
        exact current.turns turns
      | some cause =>
        rw [atHand]
        exact .inr ⟨_, rfl, Exit.orderly_failed _⟩
    · rw [failed]
      exact .inl (.inr ⟨exit, rfl, orderly⟩)
    · rw [overflow]
      exact .inr ⟨parsed, rfl, large, rfl⟩

/-- The only panic is the one over the size of the window. -/
theorem scale_of_panicked {parse : ArgumentParser} {around : Surroundings} {turns : List Turn}
    {arguments : List String} {cause : String}
    (panicked : runProgram parse around turns arguments = .error (.panicked cause)) :
    cause = productPanic ∧ ∃ parsed, parse arguments = .ok parsed ∧
      2 ^ 26 ≤ parsed.scale.toNat := by
  obtain (⟨_, goesOn, -⟩ | ⟨exit, ended, orderly⟩) | ⟨parsed, accepted, large, overflow⟩ :=
    runProgram_cases parse around turns arguments
  · rw [goesOn] at panicked
    contradiction
  · rw [ended] at panicked
    exact absurd (Except.error.inj panicked) (orderly cause)
  · rw [overflow] at panicked
    exact ⟨(Exit.panicked.inj (Except.error.inj panicked)).symm, parsed, accepted, large⟩

/-- As long as the program runs, the frames it has drawn are some of those that its worker has
sent, in their order, and the newest of those that it has taken is the one drawn last. -/
theorem newest_frame_is_drawn {parse : ArgumentParser} {around : Surroundings}
    {turns : List Turn} {arguments : List String} {watch : Watch}
    (runs : runProgram parse around turns arguments = .ok watch) :
    let taken := watch.console.sent.take watch.taken
    watch.drawn.Sublist taken ∧ watch.drawn.getLast? = taken.getLast? := by
  obtain (⟨after, goesOn, current⟩ | ⟨exit, ended, -⟩) | ⟨parsed, -, -, overflow⟩ :=
    runProgram_cases parse around turns arguments
  · obtain rfl : after = watch := Except.ok.inj (goesOn.symm.trans runs)
    exact ⟨current.drawn, current.newest⟩
  · rw [ended] at runs
    contradiction
  · rw [overflow] at runs
    contradiction

end Host
end ChipEight
