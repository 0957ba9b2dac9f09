import ChipEight.Host.Console
import ChipEight.Proofs.Inputs
import ChipEight.Proofs.Reached

/-! The keyboard as the keypad of a running machine. Keys go down and come up while cycles are
tried, by single steps or on a worker's thread, and the keyboard shares with the keypad what is
held. So each cycle finds a key as the last event has left it that was about this key. -/
namespace ChipEight.Host

theorem layout_injective :
    ∀ key other : Fin 16, layout.get key = layout.get other → key = other := by
  decide +kernel

theorem keyOf?_eq_some_iff {keycode : Keycode} {key : Fin 16} :
    keyOf? keycode = some key ↔ layout.get key = keycode := by
  constructor
  · intro found
    simpa using List.find?_some found
  · rintro rfl
    cases found : keyOf? (layout.get key) with
    | none =>
      have missed := List.find?_eq_none.mp found key (List.mem_finRange key)
      simp at missed
    | some other =>
      have same : layout.get other = layout.get key := by simpa using List.find?_some found
      rw [layout_injective other key same]

theorem findIdx?_layout (keycode : Keycode) :
    layout.toList.findIdx? (· == keycode) = (keyOf? keycode).map Fin.val := by
  have place : ∀ (index : Nat) (below : index < layout.toList.length),
      layout.toList[index] = layout.get ⟨index, below⟩ := fun _ _ => rfl
  cases found : keyOf? keycode with
  | none =>
    rw [Option.map_none, List.findIdx?_eq_none_iff]
    intro bound member
    obtain ⟨index, below, rfl⟩ := List.getElem_of_mem member
    rw [beq_eq_false_iff_ne, place index below]
    intro same
    rw [keyOf?_eq_some_iff.mpr same] at found
    contradiction
  | some key =>
    have own := keyOf?_eq_some_iff.mp found
    rw [Option.map_some, List.findIdx?_eq_some_iff_getElem]
    refine ⟨key.isLt, beq_iff_eq.mpr ((place key.val key.isLt).trans own), ?_⟩
    intro earlier before
    rw [place earlier, beq_iff_eq, ← own]
    intro same
    have equal := layout_injective _ key same
    simp [Fin.ext_iff] at equal
    omega

namespace KeyEvent
variable {first second : KeyEvent}

def concerns (event : KeyEvent) (key : Fin 16) : Bool := keyOf? event.keycode == some key

theorem get_apply (event : KeyEvent) (keys : Keys) (key : Fin 16) :
    (event.apply keys).get key =
      if event.concerns key then event.pressed else keys.get key := by
  unfold apply concerns
  cases keyOf? event.keycode with
  | none => rfl
  | some own =>
    have set : (keys.set own.val event.pressed (digit_lt own)).get key =
        if own.val = key.val then event.pressed else keys.get key :=
      Vector.getElem_set (digit_lt own) (digit_lt key)
    simp [set, Fin.ext_iff]

theorem apply_of_unbound {event : KeyEvent} (unbound : keyOf? event.keycode = none)
    (keys : Keys) : event.apply keys = keys := by
  rw [apply, unbound]

theorem apply_comm (different : first.keycode ≠ second.keycode) (keys : Keys) :
    second.apply (first.apply keys) = first.apply (second.apply keys) := by
  cases own : keyOf? first.keycode with
  | none => rw [apply_of_unbound own, apply_of_unbound own]
  | some key =>
    cases other : keyOf? second.keycode with
    | none => rw [apply_of_unbound other, apply_of_unbound other]
    | some otherKey =>
      have apart : key.val ≠ otherKey.val := by
        intro same
        apply different
        rw [← keyOf?_eq_some_iff.mp own, ← keyOf?_eq_some_iff.mp other, Fin.ext same]
      simp only [apply, own, other]
      exact Vector.set_comm _ _ apart

def latest? (key : Fin 16) (events : List KeyEvent) : Option KeyEvent :=
  (events.filter fun event => event.concerns key).getLast?

def applyAll (events : List KeyEvent) (keys : Keys) : Keys :=
  events.foldl (fun keys event => event.apply keys) keys

theorem get_applyAll (events : List KeyEvent) (keys : Keys) (key : Fin 16) :
    (applyAll events keys).get key = ((latest? key events).map pressed).getD (keys.get key) := by
  induction events generalizing keys with
  | nil => rfl
  | cons event rest ih =>
    have later : applyAll (event :: rest) keys = applyAll rest (event.apply keys) := rfl
    rw [later, ih, get_apply, latest?, latest?, List.filter_cons]
    cases event.concerns key with
    | false => rfl
    | true =>
      simp only [if_true, List.getLast?_cons]
      cases (rest.filter fun event => event.concerns key).getLast? <;> rfl

end KeyEvent

/-- What comes from outside: an event of the keyboard, or a request to the emulator. -/
inductive Move where
  | key (event : KeyEvent)
  | ask (request : Request)

inductive Mark where
  | key (event : KeyEvent)
  | deed (deed : Deed)

def Mark.event? : Mark → Option KeyEvent
  | key event => some event
  | deed _ => none

/-- Every cycle that is tried finds on the keypad what the events so far make of these keys. -/
def Polls (held : Keys) : List Mark → Prop
  | [] => True
  | .key event :: rest => Polls (event.apply held) rest
  | .deed (.tried machine) :: rest =>
    (machine.keypad.snapshot = fun _ => held) ∧ Polls held rest
  | .deed (.subscribed _) :: rest | .deed (.loaded _) :: rest | .deed .begun :: rest =>
    Polls held rest

theorem polls_append {held : Keys} {front back : List Mark} : Polls held (front ++ back) ↔
    Polls held front ∧ Polls (KeyEvent.applyAll (front.filterMap Mark.event?) held) back := by
  induction front generalizing held with
  | nil => exact (iff_of_eq (true_and _)).symm
  | cons mark rest ih =>
    cases mark with
    | key event => exact ih
    | deed deed =>
      cases deed with
      | tried machine => exact (and_congr_right fun _ => ih).trans and_assoc.symm
      | subscribed | loaded | begun => exact ih

private theorem polls_deeds {held : Keys} {deeds : List Deed}
    (found : ∀ machine, .tried machine ∈ deeds → machine.keypad.snapshot = fun _ => held) :
    Polls held (deeds.map .deed) := by
  induction deeds with
  | nil => exact True.intro
  | cons deed rest ih =>
    have later := ih fun machine member => found machine (List.mem_cons_of_mem _ member)
    cases deed with
    | tried machine => exact ⟨found machine List.mem_cons_self, later⟩
    | subscribed | loaded | begun => exact later

private theorem event?_deeds (deeds : List Deed) :
    (deeds.map Mark.deed).filterMap Mark.event? = [] := by
  rw [List.filterMap_map]
  exact List.filterMap_eq_nil_iff.mpr fun _ _ => rfl

namespace Console

def move (console : Console) : Move → Console
  | .key event => console.handle event
  | .ask request => { console with emulator := (console.emulator.answer request).emulator }

def marks (console : Console) : Move → List Mark
  | .key event => [.key event]
  | .ask request => (console.emulator.deeds request).map .deed

def after (console : Console) (moves : List Move) : Console := moves.foldl move console

def course (console : Console) : List Move → List Mark
  | [] => []
  | next :: rest => console.marks next ++ (console.move next).course rest

def Shared (console : Console) : Prop :=
  console.emulator.Holds (fun _ machine => machine.keypad.snapshot = fun _ => console.held) []

variable {console : Console}

theorem shared_create (config : Config) (random : RandomSource) :
    (create config random).Shared := rfl

theorem Shared.handle (shared : console.Shared) (event : KeyEvent) :
    (console.handle event).Shared := by
  obtain ⟨emulator, held⟩ := console
  cases emulator with
  | atHand machine => exact rfl
  | busy session => exact ⟨rfl, shared.2⟩
  | lost random =>
    obtain ⟨machine, -⟩ := shared
    exact ⟨{ machine with keypad := .constant (event.apply held) }, rfl⟩

theorem Shared.ask (shared : console.Shared) (request : Request) :
    (console.move (.ask request)).Shared :=
  (Emulator.Holds.answer (Machine.carried_snapshot _) shared request).blind []

theorem Shared.move (shared : console.Shared) (next : Move) : (console.move next).Shared := by
  cases next with
  | key event => exact shared.handle event
  | ask request => exact shared.ask request

theorem Shared.after (shared : console.Shared) (moves : List Move) :
    (console.after moves).Shared := by
  induction moves generalizing console with
  | nil => exact shared
  | cons next rest ih => exact ih (shared.move next)

theorem Shared.polls_marks (shared : console.Shared) (next : Move) :
    Polls console.held (console.marks next) := by
  cases next with
  | key event => exact True.intro
  | ask request =>
    apply polls_deeds
    intro machine member
    obtain ⟨front, back, split⟩ := List.append_of_mem member
    have stands : console.emulator.StandsAt [request] front machine := by
      refine .inl ⟨back, ?_⟩
      rw [Emulator.history, Emulator.history, List.append_nil, split]
    exact stands.holds (Machine.carried_snapshot _) shared

private theorem held_move (console : Console) (next : Move) : (console.move next).held =
    KeyEvent.applyAll ((console.marks next).filterMap Mark.event?) console.held := by
  cases next with
  | key event => rfl
  | ask request =>
    rw [marks, event?_deeds]
    rfl

theorem Shared.polls (shared : console.Shared) (moves : List Move) :
    Polls console.held (console.course moves) := by
  induction moves generalizing console with
  | nil => exact True.intro
  | cons next rest ih =>
    rw [course, polls_append, ← held_move]
    exact ⟨shared.polls_marks next, ih (shared.move next)⟩

private theorem handle_of_unbound (shared : console.Shared) {event : KeyEvent}
    (unbound : keyOf? event.keycode = none) : console.handle event = console := by
  obtain ⟨emulator, held⟩ := console
  unfold Console.handle
  rw [KeyEvent.apply_of_unbound unbound]
  cases emulator with
  | atHand machine =>
    have same : machine.keypad.snapshot = fun _ => held := shared
    simp only [Emulator.changeKeypad, ← same]
  | busy session =>
    have same : session.machine.keypad.snapshot = fun _ => held := shared.1
    simp only [Emulator.changeKeypad, ← same]
  | lost random => rfl

theorem handle_comm {first second : KeyEvent} (different : first.keycode ≠ second.keycode)
    (console : Console) :
    (console.handle first).handle second = (console.handle second).handle first := by
  obtain ⟨emulator, held⟩ := console
  simp only [Console.handle, KeyEvent.apply_comm different]
  cases emulator <;> rfl

/-- However the events of the keyboard fall between the cycles, each cycle is tried on keys that are
held just if the last event about them so far has put them down. A keyboard key that is not in
the layout changes nothing, two different ones do not get in each other's way, and each of the
sixteen keys has one place in the layout. -/
theorem keypad_follows_keyboard (shared : console.Shared) (released : console.held = Keys.released)
    (moves : List Move) :
    (∀ early tried late, console.course moves = early ++ .deed (.tried tried) :: late →
      tried.Uses tried.keypad.current tried.random.current ∧
      ∀ key, tried.keypad.current.get key = true ↔
        ∃ event, KeyEvent.latest? key (early.filterMap Mark.event?) = some event ∧
          event.pressed = true) ∧
    (∀ event, keyOf? event.keycode = none →
      (console.after moves).handle event = console.after moves) ∧
    (∀ first second, first.keycode ≠ second.keycode →
      ((console.after moves).handle first).handle second =
        ((console.after moves).handle second).handle first) ∧
    (∀ keycode, layout.toList.findIdx? (· == keycode) = (keyOf? keycode).map Fin.val ∧
      ∀ index, layout.toList.findIdx? (· == keycode) = some index → index < 16) ∧
    ∀ key, ∃ keycode, keyOf? keycode = some key ∧
      ∀ other, keyOf? other = some key → other = keycode := by
  refine ⟨?_, ?_, ?_, ?_, ?_⟩
  · intro early tried late split
    refine ⟨tried.uses_current, ?_⟩
    intro key
    have polls := shared.polls moves
    rw [split, polls_append] at polls
    obtain ⟨-, snapshot, -⟩ := polls
    have current : tried.keypad.current =
        KeyEvent.applyAll (early.filterMap Mark.event?) console.held := by
      rw [Keypad.current, snapshot]
    rw [current, KeyEvent.get_applyAll, released]
    have up : Keys.released.get key = false := Vector.getElem_replicate key.isLt
    cases KeyEvent.latest? key (early.filterMap Mark.event?) <;> simp [up]
  · intro event unbound
    exact handle_of_unbound (shared.after moves) unbound
  · intro first second different
    exact handle_comm different _
  · intro keycode
    refine ⟨findIdx?_layout keycode, ?_⟩
    intro index found
    rw [findIdx?_layout] at found
    obtain ⟨key, -, rfl⟩ := Option.map_eq_some_iff.mp found
    exact key.isLt
  · intro key
    refine ⟨layout.get key, keyOf?_eq_some_iff.mpr rfl, ?_⟩
    intro other bound
    exact (keyOf?_eq_some_iff.mp bound).symm

/-- A key is held for one step and not for the next. Another one that goes down in between is not in
the layout. -/
theorem key_held_for_one_step :
    let console := create Config.default (.ofArray #[])
    let down : KeyEvent := ⟨"Q", true⟩
    let unbound : KeyEvent := ⟨"P", true⟩
    let up : KeyEvent := ⟨"Q", false⟩
    ∃ first second,
      console.course [.key down, .ask .step, .key unbound, .key up, .ask .step] =
        [.key down, .deed .begun, .deed (.tried first), .key unbound, .key up, .deed .begun,
          .deed (.tried second)] ∧
      first.keypad.current.get 4 = true ∧ second.keypad.current.get 4 = false := by
  intro console down unbound up
  obtain ⟨polled, -⟩ := keypad_follows_keyboard (shared_create Config.default (.ofArray #[])) rfl
    [.key down, .ask .step, .key unbound, .key up, .ask .step]
  let pressed := console.handle down
  let released := ((pressed.move (.ask .step)).handle unbound).handle up
  let other := Machine.create Config.default (.constant Keys.released) (.ofArray #[])
  let first := (pressed.emulator.machine?.getD other).begin
  let second := (released.emulator.machine?.getD other).begin
  let early : List Mark := [.key down, .deed .begun]
  let between : List Mark := [.key unbound, .key up, .deed .begun]
  let late : List Mark := [.deed (.tried second)]
  have course : console.course [.key down, .ask .step, .key unbound, .key up, .ask .step] =
      early ++ .deed (.tried first) :: (between ++ late) := rfl
  refine ⟨first, second, course, ?_, ?_⟩
  · apply ((polled early first _ course).2 4).mpr
    exact ⟨down, rfl, rfl⟩
  · rw [← Bool.not_eq_true,
      (polled (early ++ .deed (.tried first) :: between) second [] course).2 4]
    rintro ⟨event, latest, held⟩
    obtain rfl : up = event := Option.some.inj latest
    contradiction

end Console
end ChipEight.Host
