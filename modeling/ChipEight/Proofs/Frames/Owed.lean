import ChipEight.Proofs.Frames
import ChipEight.Proofs.Progress

namespace ChipEight

namespace Deed

def isSubscription : Deed → Bool
  | subscribed _ => true
  | loaded _ | begun | tried _ => false

/-- The state that a deed leaves, where it does not hang on what was before. -/
def Leaves : Deed → State → Prop
  | loaded rom, state => State.loaded rom = .ok state
  | tried machine, state => state = machine.cycle.machine.state
  | subscribed _, _ | begun, _ => True

def drawn : Deed → List (Nat × Event)
  | tried machine => machine.drawn
  | subscribed _ | loaded _ | begun => []

end Deed

def Unbroken (deeds : List Deed) : Prop :=
  ∀ machine, .tried machine ∈ deeds → ∀ cause, machine.cycle.outcome ≠ .panicked cause

namespace Machine

theorem Reached.leaves {history : List Deed} {deed : Deed} {machine : Machine}
    (reached : machine.Reached (history ++ [deed])) : deed.Leaves machine.state := by
  generalize same : history ++ [deed] = all at reached
  induction reached with
  | created => exact absurd same (List.append_ne_nil_of_right_ne_nil _ (List.cons_ne_nil _ _))
  | heard _ alike ih =>
    rw [state_of_unheard_eq alike]
    exact ih same
  | subscribed | begun =>
    obtain ⟨-, rfl⟩ := List.append_singleton_inj.mp same
    exact True.intro
  | loaded _ loaded =>
    obtain ⟨-, rfl⟩ := List.append_singleton_inj.mp same
    exact loaded
  | tried =>
    obtain ⟨-, rfl⟩ := List.append_singleton_inj.mp same
    rfl

theorem Reached.length_observers {history : List Deed} {machine : Machine}
    (reached : machine.Reached history) :
    machine.observers.length = history.countP Deed.isSubscription := by
  induction reached with
  | created => rfl
  | heard _ same ih => exact (length_observers_of_unheard_eq same).trans ih
  | subscribed _ observer ih =>
    rw [List.countP_append, ← ih]
    exact List.length_append
  | loaded _ _ ih =>
    rw [List.countP_append]
    exact ih
  | @begun _ machine _ ih =>
    rw [List.countP_append, machine.begin_keeps.1]
    exact ih
  | @tried _ machine _ _ ih =>
    rw [List.countP_append, length_observers_cycle]
    exact ih

variable {before deeds : List Deed} {rom : List UInt8} {machine : Machine}

theorem Reached.dark_of_loaded (reached : machine.Reached (before ++ [.loaded rom])) :
    machine.state.frame = Frame.blank ∧ machine.state.drawFlag = false := by
  obtain ⟨memory, state⟩ := State.loaded_eq_ok reached.leaves
  rw [state]
  exact ⟨rfl, rfl⟩

theorem Reached.noneMissed (reached : machine.Reached (before ++ [.loaded rom] ++ deeds))
    (kept : ∀ rom, .loaded rom ∉ deeds) :
    machine.NoneMissed (before.countP Deed.isSubscription) (deeds.flatMap Deed.told) := by
  have told : ∀ (deeds : List Deed) (deed : Deed),
      (deeds ++ [deed]).flatMap Deed.told = deeds.flatMap Deed.told ++ deed.told := by
    intro deeds deed
    rw [List.flatMap_append, List.flatMap_singleton]
  refine Reached.since
    (motive := fun deeds machine =>
      machine.NoneMissed (before.countP Deed.isSubscription) (deeds.flatMap Deed.told))
    ?here ?subscribed ?begun ?tried ?heard reached kept
  case here =>
    intro machine fresh
    obtain ⟨frame, -⟩ := fresh.dark_of_loaded
    refine ⟨?_, fun position member => .inr frame.symm⟩
    rw [fresh.length_observers, List.countP_append]
    exact Nat.le_add_right ..
  case subscribed =>
    intro deeds machine observer earlier
    rw [told, Deed.told, List.append_nil]
    refine earlier.congr rfl rfl ?_
    rw [List.length_append]
    exact Nat.le_add_right ..
  case begun =>
    intro deeds machine earlier
    obtain ⟨observers, frame, flag⟩ := machine.begin_keeps
    rw [told, Deed.told, List.append_nil]
    exact earlier.congr frame flag (Nat.le_of_eq (congrArg List.length observers).symm)
  case tried =>
    intro deeds machine earlier
    rw [told]
    exact earlier.cycle
  case heard =>
    intro deeds machine other same earlier
    have state := state_of_unheard_eq same
    exact earlier.congr (by rw [state]) (by rw [state])
      (Nat.le_of_eq (length_observers_of_unheard_eq same).symm)

/-- As long as no observer panics, no flag stays up and all that is drawn is shown. -/
theorem Reached.lowered (reached : machine.Reached (before ++ [.loaded rom] ++ deeds))
    (kept : ∀ rom, .loaded rom ∉ deeds) (unbroken : Unbroken deeds) :
    machine.state.drawFlag = false ∧
      frames (deeds.flatMap Deed.told) = deeds.flatMap Deed.drawn := by
  have extended : ∀ (deeds : List Deed) (deed : Deed), frames deed.told = deed.drawn →
      frames (deeds.flatMap Deed.told) = deeds.flatMap Deed.drawn →
      frames ((deeds ++ [deed]).flatMap Deed.told) = (deeds ++ [deed]).flatMap Deed.drawn := by
    intro deeds deed last earlier
    rw [List.flatMap_append, List.flatMap_append, List.flatMap_singleton, List.flatMap_singleton,
      frames_append, last, earlier]
  have earlierUnbroken : ∀ {deeds : List Deed} {deed : Deed}, Unbroken (deeds ++ [deed]) →
      Unbroken deeds :=
    fun unbroken tried member => unbroken tried (List.mem_append_left _ member)
  refine Reached.since
    (motive := fun deeds machine => Unbroken deeds → machine.state.drawFlag = false ∧
      frames (deeds.flatMap Deed.told) = deeds.flatMap Deed.drawn)
    ?here ?subscribed ?begun ?tried ?heard reached kept unbroken
  case here =>
    intro machine fresh _
    exact ⟨fresh.dark_of_loaded.2, rfl⟩
  case subscribed =>
    intro deeds machine observer ih unbroken
    obtain ⟨flag, shown⟩ := ih (earlierUnbroken unbroken)
    exact ⟨flag, extended _ _ rfl shown⟩
  case begun =>
    intro deeds machine ih unbroken
    obtain ⟨flag, shown⟩ := ih (earlierUnbroken unbroken)
    exact ⟨machine.begin_keeps.2.2.trans flag, extended _ _ rfl shown⟩
  case tried =>
    intro deeds machine ih unbroken
    obtain ⟨flag, shown⟩ := ih (earlierUnbroken unbroken)
    obtain ⟨fallen, last⟩ :=
      cycle_of_unbroken flag (unbroken machine (List.mem_append_right _ List.mem_cons_self))
    exact ⟨fallen, extended _ _ last shown⟩
  case heard =>
    intro deeds machine other same ih unbroken
    rw [state_of_unheard_eq same]
    exact ih unbroken

theorem Reached.lowered_of_tried (reached : machine.Reached (before ++ [.loaded rom] ++ deeds))
    (kept : ∀ rom, .loaded rom ∉ deeds) (unbroken : Unbroken deeds) {tried : Machine}
    (member : .tried tried ∈ deeds) : tried.state.drawFlag = false := by
  obtain ⟨early, late, rfl⟩ := List.append_of_mem member
  rw [← List.append_assoc] at reached
  exact (reached.of_tried.1.lowered
    (fun other own => kept other (List.mem_append_left _ own))
    fun machine own => unbroken machine (List.mem_append_left _ own)).1

theorem Reached.raised {past : List Deed} {broken : Machine}
    (reached : machine.Reached (past ++ [.tried broken] ++ deeds))
    (kept : ∀ rom, .loaded rom ∉ deeds) (raised : broken.cycle.machine.state.drawFlag = true)
    (silent : ∀ tried, .tried tried ∈ deeds → ∀ made, ¬ tried.Reports made) :
    machine.state.drawFlag = true := by
  refine Reached.since
    (motive := fun deeds machine =>
      (∀ tried, .tried tried ∈ deeds → ∀ made, ¬ tried.Reports made) →
        machine.state.drawFlag = true)
    ?here ?subscribed ?begun ?tried ?heard reached kept silent
  case here =>
    intro machine left _
    have state : machine.state = broken.cycle.machine.state := left.leaves
    rw [state]
    exact raised
  case subscribed =>
    intro deeds machine observer ih silent
    exact ih fun tried member => silent tried (List.mem_append_left _ member)
  case begun =>
    intro deeds machine ih silent
    rw [machine.begin_keeps.2.2]
    exact ih fun tried member => silent tried (List.mem_append_left _ member)
  case tried =>
    intro deeds machine ih silent
    have flag := ih fun tried member => silent tried (List.mem_append_left _ member)
    exact raised_cycle flag (silent machine (List.mem_append_right _ List.mem_cons_self))
  case heard =>
    intro deeds machine other same ih silent
    rw [state_of_unheard_eq same]
    exact ih silent

end Machine

namespace Emulator

theorem Follows.reload {past : List Deed} {loader : Machine} {rom : List UInt8}
    (follows : (atHand loader).Follows past) (loaded : (loader.load rom).outcome = .done) :
    (atHand (loader.load rom).machine).Follows (past ++ [.loaded rom]) := by
  have reloaded := follows.answer (.load rom)
  rwa [deeds, if_pos loaded] at reloaded

theorem frames_told (machine : Machine) (requests : List Request) :
    frames (((atHand machine).history requests).flatMap Deed.told) =
      frames ((atHand machine).told requests ++ ((atHand machine).after requests).unreported) := by
  rw [told_history, frames_progress]

/-- From the last time a program was loaded, the picture of a machine is owed as long as its flag
is up, and everybody who was there when it was loaded has been shown it if the flag is down. While
no observer panics the flag is down between cycles, and frames are told of exactly the cycles that
draw. A flag that stays up has the next cycle that reports show its picture, whatever it does. -/
theorem no_frame_is_lost {config : Config} {keypad : Keypad} {random : RandomSource}
    {before rest : List Request} {loader : Machine} {rom : List UInt8}
    (present : (create config keypad random).after before = atHand loader)
    (loaded : (loader.load rom).outcome = .done)
    (kept : ∀ other, .loaded other ∉ (atHand (loader.load rom).machine).history rest) :
    let fresh := atHand (loader.load rom).machine
    let log := fresh.told rest ++ (fresh.after rest).unreported
    let deeds := fresh.history rest
    (∀ machine, (fresh.after rest).machine? = some machine →
      ∀ position < loader.observers.length,
        machine.state.drawFlag = true ∨ lastShown log position = machine.state.frame) ∧
    (Unbroken deeds →
      (∀ machine, (fresh.after rest).machine? = some machine → machine.state.drawFlag = false) ∧
      (∀ tried, .tried tried ∈ deeds → tried.state.drawFlag = false) ∧
      frames log = deeds.flatMap Deed.drawn) ∧
    ∀ early between late broken next made,
      deeds = early ++ .tried broken :: between ++ .tried next :: late →
      broken.cycle.machine.state.drawFlag = true →
      (∀ tried, .tried tried ∈ between → ∀ state, ¬ tried.Reports state) →
      next.Reports made →
        next.showing made <+: next.cycle.trace.events ∧
        next.cycle.machine.state.frame = made.frame := by
  intro fresh log deeds
  have follows : (atHand loader).Follows ((create config keypad random).history before) := by
    rw [← present]
    exact follows_create config keypad random before
  generalize (create config keypad random).history before = past at follows
  have reached : loader.Reached past := follows
  have later : (fresh.after rest).Follows (past ++ [.loaded rom] ++ deeds) :=
    (follows.reload loaded).after rest
  have told : frames (deeds.flatMap Deed.told) = frames log := frames_told _ rest
  obtain ⟨last, final⟩ := later.exists_reached
  refine ⟨?_, ?_, ?_⟩
  · intro machine stands position member
    rw [reached.length_observers] at member
    rw [← lastShown_congr told]
    exact ((later.reached stands).noneMissed kept).seen position member
  · intro unbroken
    refine ⟨?_, ?_, ?_⟩
    · intro machine stands
      exact ((later.reached stands).lowered kept unbroken).1
    · intro tried member
      exact final.lowered_of_tried kept unbroken member
    · rw [← told]
      exact (final.lowered kept unbroken).2
  · intro early between late broken next made split raised silent reports
    have earlier : ∀ {deed : Deed}, deed ∈ between → deed ∈ deeds := fun own =>
      split ▸ List.mem_append_left _ (List.mem_append_right _ (List.mem_cons_of_mem _ own))
    rw [split, List.append_cons early, ← List.append_assoc, ← List.append_assoc,
      ← List.append_assoc] at final
    have still :=
      final.of_tried.1.raised (fun other own => kept other (earlier own)) raised silent
    exact ⟨reports.shows still, Machine.frame_cycle reports.succeeded⟩

/-- An observer panics over a drawing, and the next cycle makes up for it without drawing. -/
theorem delayed_frame_is_shown :
    let startled : Observer :=
      { react := fun heard _ => { panic := if heard = 0 then some "startled" else none } }
    let loader := { Machine.create Config.default (.constant Keys.released) (.ofArray #[]) with
      observers := [startled] }
    let fresh := atHand (loader.load [0xD0, 0x05, 0x60, 0x00]).machine
    ((fresh.after [.step]).state?.map State.drawFlag = some true) ∧
      ∃ machine, (fresh.after [.step, .step]).machine? = some machine ∧
        machine.state.frame.isLit ⟨0, 0⟩ = true ∧
        lastShown (fresh.told [.step, .step]) 0 = machine.state.frame := by
  intro startled loader fresh
  have present : (create Config.default (.constant Keys.released) (.ofArray #[])).after
      [.subscribe startled] = atHand loader := rfl
  have kept : ∀ other, .loaded other ∉ fresh.history [.step, .step] := by
    intro other member
    simp [history, deeds, fresh, answer, step] at member
  obtain ⟨shown, -⟩ := no_frame_is_lost present (by decide +kernel) kept
  refine ⟨by decide +kernel, _, rfl, by decide +kernel, ?_⟩
  obtain raised | same := shown _ rfl 0 (by decide)
  · exact absurd raised (by decide +kernel)
  · have reported : (fresh.after [.step, .step]).unreported = [] := rfl
    rwa [reported, List.append_nil] at same

end Emulator
end ChipEight
