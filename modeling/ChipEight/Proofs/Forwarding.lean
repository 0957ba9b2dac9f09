import ChipEight.Host.Forwarder
import ChipEight.Proofs.Frames.Owed
import ChipEight.Proofs.Lockstep
import ChipEight.Proofs.Timers.Elapsed

/-! The way of the pictures from a machine to its window. The forwarder puts a copy of each frame
that it is shown into its channel and does not mind when there is nobody left to take it out. So
what is in the channel are the pictures of the cycles that draw, and the newest of them is the
picture that the machine still has. -/
namespace ChipEight

namespace Host

namespace Channel

theorem reaction_hear (channel : Channel) (heard : Nat) (event : Event) :
    (channel.hear event).2 = forwarder.react heard event := by
  cases event with
  | frame state =>
    unfold hear
    dsimp only
    split <;> rfl
  | start | update | sound | fault | stop => rfl

private theorem hear_of_open {channel : Channel} (isOpen : channel.isOpen = true) (event : Event) :
    (channel.hear event).1 =
      { channel with frames := channel.frames ++ event.frame?.toList } := by
  cases event with
  | frame state =>
    simp only [hear, send, if_pos isOpen]
    rfl
  | start | update | sound | fault | stop =>
    simp only [hear, Event.frame?, Option.toList_none, List.append_nil]

private theorem hear_of_closed {channel : Channel} (closed : channel.isOpen = false)
    (event : Event) :
    (channel.hear event).1 = channel := by
  cases event with
  | frame state => simp [hear, send, closed]
  | start | update | sound | fault | stop => rfl

theorem after_of_open {channel : Channel} (isOpen : channel.isOpen = true) (heard : List Event) :
    channel.after heard =
      { channel with frames := channel.frames ++ heard.filterMap Event.frame? } := by
  induction heard generalizing channel with
  | nil =>
    rw [List.filterMap_nil, List.append_nil]
    rfl
  | cons event rest ih =>
    have first := hear_of_open isOpen event
    have later : (channel.hear event).1.after rest =
        { channel with frames := channel.frames ++ event.frame?.toList ++
            rest.filterMap Event.frame? } := by
      rw [first]
      exact ih isOpen
    refine Eq.trans later ?_
    cases shown : event.frame? <;> simp [shown]

private theorem after_of_closed {channel : Channel} (closed : channel.isOpen = false)
    (heard : List Event) : channel.after heard = channel := by
  induction heard with
  | nil => rfl
  | cons event rest ih =>
    have first := hear_of_closed closed event
    have later : (channel.hear event).1.after rest = channel := by rw [first, ih]
    exact later

end Channel

/-- The forwarder with the far end of its channel given up once it has heard so much. -/
def forwarderUntil (limit : Nat) : Observer where
  react heard event := (Channel.hear { isOpen := heard < limit } event).2

theorem forwarderUntil_eq (limit : Nat) : forwarderUntil limit = forwarder := by
  have same : (forwarderUntil limit).react = forwarder.react := by
    funext heard event
    exact Channel.reaction_hear _ heard event
  exact congrArg (fun react => Observer.mk react 0) same

end Host

def Deed.picture? : Deed → Option Frame
  | tried machine => if machine.draws then some machine.cycle.machine.state.frame else none
  | subscribed _ | loaded _ | begun => none

namespace Machine
variable {machine : Machine} {deeds : List Deed} {position : Nat}

/-- A machine with calm observers that has no picture to show any more. Whoever is at the position
has been shown every picture that the deeds have drawn. -/
structure Forwards (position : Nat) (deeds : List Deed) (machine : Machine) : Prop where
  calm : machine.Calm
  present : position < machine.observers.length
  lowered : machine.state.drawFlag = false
  shown : (received (deeds.flatMap Deed.told) position).filterMap Event.frame? =
    deeds.filterMap Deed.picture?

theorem Forwards.same {other : Machine} {deed : Deed} (forwards : machine.Forwards position deeds)
    (calm : other.Calm) (present : machine.observers.length ≤ other.observers.length)
    (lowered : other.state.drawFlag = false) (silent : deed.told = [])
    (dark : deed.picture? = none) : other.Forwards position (deeds ++ [deed]) where
  calm := calm
  present := Nat.lt_of_lt_of_le forwards.present present
  lowered := lowered
  shown := by
    have told : [deed].flatMap Deed.told = [] := by rw [List.flatMap_singleton, silent]
    rw [List.flatMap_append, told, List.append_nil, forwards.shown, List.filterMap_append]
    simp [dark]

/-- What a cycle draws is what it shows, to everybody and once. -/
theorem shown_cycle (calm : machine.Calm) (lowered : machine.state.drawFlag = false)
    (present : position < machine.observers.length) :
    (received machine.cycle.trace.events position).filterMap Event.frame? =
      (Deed.tried machine).picture?.toList := by
  obtain ⟨-, drawn⟩ := cycle_of_unbroken lowered calm.not_panicked
  rw [← received_frames, drawn, Machine.drawn, Deed.picture?]
  cases result : machine.attempt.result with
  | error fault =>
    have level : machine.draws = false := by
      rw [draws, performed?_of_error result]
      rfl
    rw [level]
    rfl
  | ok made =>
    rw [frame_cycle result]
    cases machine.draws with
    | false => rfl
    | true =>
      simp only [if_true]
      rw [machine.received_round _ present]
      rfl

theorem Forwards.cycle (forwards : machine.Forwards position deeds) :
    machine.cycle.machine.Forwards position (deeds ++ [.tried machine]) where
  calm := forwards.calm.cycle
  present := machine.length_observers_cycle.symm ▸ forwards.present
  lowered := (cycle_of_unbroken forwards.lowered forwards.calm.not_panicked).1
  shown := by
    have told : [Deed.tried machine].flatMap Deed.told = machine.cycle.trace.events :=
      List.flatMap_singleton ..
    rw [List.flatMap_append, told, received_append, List.filterMap_append, forwards.shown,
      shown_cycle forwards.calm forwards.lowered forwards.present, List.filterMap_append]
    cases drawn : (Deed.tried machine).picture? <;> simp [drawn]

theorem carried_forwards (position : Nat) :
    CarriedWhile (fun deeds => ∀ observer, .subscribed observer ∈ deeds → observer.Calm)
      (Forwards position) where
  front quiet observer member := quiet observer (List.mem_append_left _ member)
  subscribed {_ machine observer} quiet forwards := by
    have own := quiet observer (List.mem_append_right _ List.mem_cons_self)
    exact forwards.same (forwards.calm.subscribe own) (List.length_append ▸ Nat.le_add_right ..)
      forwards.lowered rfl rfl
  loaded _ made forwards := by
    obtain ⟨memory, rfl⟩ := State.loaded_eq_ok made
    exact forwards.same forwards.calm (Nat.le_refl _) rfl rfl rfl
  begun {_ machine} forwards := by
    obtain ⟨observers, -, flag⟩ := machine.begin_keeps
    exact forwards.same (calm_begin.mpr forwards.calm)
      (Nat.le_of_eq (congrArg List.length observers).symm) (flag.trans forwards.lowered) rfl rfl
  tried _ _ forwards := forwards.cycle
  heard same forwards := by
    refine ⟨calm_of_unheard_eq same forwards.calm, ?_, ?_, forwards.shown⟩
    · rw [length_observers_of_unheard_eq same]
      exact forwards.present
    · rw [state_of_unheard_eq same]
      exact forwards.lowered

/-- If the deeds have drawn at all, the picture of the machine is the one that was drawn last. -/
def ShowsNewest (deeds : List Deed) (machine : Machine) : Prop :=
  ∀ frame, (deeds.filterMap Deed.picture?).getLast? = some frame → machine.state.frame = frame

theorem ShowsNewest.same {other : Machine} {deed : Deed} (newest : machine.ShowsNewest deeds)
    (dark : deed.picture? = none) (same : other.state.frame = machine.state.frame) :
    other.ShowsNewest (deeds ++ [deed]) := by
  intro frame last
  apply same.trans
  apply newest
  simpa [dark] using last

theorem ShowsNewest.cycle (newest : machine.ShowsNewest deeds) :
    machine.cycle.machine.ShowsNewest (deeds ++ [.tried machine]) := by
  cases draws : machine.draws with
  | true =>
    intro frame last
    simpa [Deed.picture?, draws] using last
  | false =>
    apply newest.same (by simp [Deed.picture?, draws])
    cases result : machine.attempt.result with
    | error fault =>
      rw [cycle_of_error result]
      rfl
    | ok made => rw [frame_cycle result, frame_of_ok result draws]

theorem carried_newest : CarriedWhile Unloaded ShowsNewest where
  front unloaded := unloaded.front
  subscribed _ newest := newest.same rfl rfl
  loaded unloaded := absurd unloaded (not_unloaded_concat _ _)
  begun {_ machine} newest := newest.same rfl machine.begin_keeps.2.1
  tried _ _ newest := newest.cycle
  heard same newest := by
    unfold ShowsNewest
    rw [state_of_unheard_eq same]
    exact newest

theorem Calm.draws_iff (calm : machine.Calm) :
    machine.draws = true ↔ machine.cycle.outcome = .done ∧
      ∃ opcode, machine.state.memory.word machine.state.pc.toNat = .ok opcode ∧
        (opcode = 0x00E0 ∨ opcode.toNat / 4096 = 13) := by
  rw [Machine.draws_iff]
  apply and_congr_left
  intro _
  constructor
  · rintro ⟨made, succeeded⟩
    exact (cycle_of_calm calm succeeded).1
  · intro done
    cases result : machine.attempt.result with
    | ok made => exact ⟨made, result⟩
    | error fault =>
      rw [cycle_of_error result] at done
      contradiction

private theorem forwards_load {rom : List UInt8} (calm : machine.Calm)
    (present : position < machine.observers.length) (loaded : (machine.load rom).outcome = .done) :
    (machine.load rom).machine.observers = machine.observers ∧
      (machine.load rom).machine.Forwards position [] := by
  obtain ⟨state, made, -, renewed⟩ | ⟨⟨fault, failed⟩, -⟩ := machine.load_cases rom
  · obtain ⟨memory, rfl⟩ := State.loaded_eq_ok made
    rw [renewed]
    exact ⟨rfl, calm, present, rfl, rfl⟩
  · rw [failed] at loaded
    contradiction

end Machine

theorem Observer.eq_of_unheard_eq {observer other : Observer}
    (same : observer.unheard = other.unheard) (heard : observer.heard = other.heard) :
    observer = other := by
  obtain ⟨react, heard⟩ := observer
  obtain ⟨otherReact, otherHeard⟩ := other
  simp_all [unheard]

theorem Machine.withObservers_set_forwarderUntil {machine : Machine} {position : Nat}
    {observer : Observer} (subscribed : machine.observers[position]? = some observer)
    (forwards : observer.unheard = Host.forwarder) (limit : Nat) :
    machine.withObservers (machine.observers.set position
      { Host.forwarderUntil limit with heard := observer.heard }) = machine := by
  have same : { Host.forwarderUntil limit with heard := observer.heard } = observer := by
    apply Observer.eq_of_unheard_eq
    · rw [forwards]
      exact Host.forwarderUntil_eq limit
    · rfl
  obtain ⟨present, own⟩ := List.getElem?_eq_some_iff.mp subscribed
  rw [same, ← own, List.set_getElem_self]
  rfl

namespace Emulator
open Host

def heard (emulator : Emulator) (requests : List Request) (position : Nat) : List Event :=
  received (emulator.told requests ++ (emulator.after requests).unreported) position

def sent (emulator : Emulator) (requests : List Request) (position : Nat) : List Frame :=
  (Channel.after {} (emulator.heard requests position)).frames

section
variable {machine : Machine} {position : Nat} {requests : List Request}

theorem shown_heard (machine : Machine) (requests : List Request) (position : Nat) :
    ((atHand machine).heard requests position).filterMap Event.frame? =
      (received (((atHand machine).history requests).flatMap Deed.told) position).filterMap
        Event.frame? := by
  rw [heard, ← received_frames, ← frames_told, received_frames]

theorem forwards_of_standsAt (forwards : machine.Forwards position [])
    (quiet : ∀ request ∈ requests, request.Calm) {front : List Deed} {current : Machine}
    (stands : (atHand machine).StandsAt requests front current) :
    current.Forwards position front := by
  obtain ⟨back, split⟩ := stands.exists_append
  have now : (atHand machine).Holds (fun deeds machine =>
      (∀ observer, .subscribed observer ∈ deeds → observer.Calm) →
        machine.Forwards position deeds) [] := fun _ => forwards
  apply stands.holds (Machine.carried_forwards position).carried now
  intro observer member
  have own : .subscribed observer ∈ (atHand machine).history requests :=
    split ▸ List.mem_append_left back member
  exact calm_of_subscribed quiet own

private theorem newest_of_standsAt {front : List Deed} {current : Machine}
    (stands : (atHand machine).StandsAt requests front current)
    (unloaded : Unloaded front) : current.ShowsNewest front := by
  have now : (atHand machine).Holds
      (fun deeds machine => Unloaded deeds → machine.ShowsNewest deeds) [] := fun _ => nofun
  exact stands.holds Machine.carried_newest.carried now unloaded

theorem exists_final (forwards : machine.Forwards position [])
    (quiet : ∀ request ∈ requests, request.Calm) :
    ∃ final, ((atHand machine).after requests).machine? = some final ∧
      (atHand machine).StandsAt requests ((atHand machine).history requests) final := by
  have calm : (atHand machine).Calm := forwards.calm
  obtain ⟨final, present, -⟩ := (calm.after quiet).exists_machine
  exact ⟨final, present, .inr ⟨rfl, present⟩⟩

theorem sent_eq_pictures (forwards : machine.Forwards position [])
    (quiet : ∀ request ∈ requests, request.Calm) :
    (atHand machine).sent requests position =
      ((atHand machine).history requests).filterMap Deed.picture? := by
  obtain ⟨final, -, stands⟩ := exists_final forwards quiet
  rw [sent, Channel.after_of_open rfl, shown_heard]
  exact (forwards_of_standsAt forwards quiet stands).shown

end

/-- From the time when a program is loaded, the channel behind a forwarder gets the picture of each
cycle that succeeds in clearing the screen or in drawing a sprite, and nothing else. What is in it
stays as it is, and until the next program is loaded its newest picture is that of the machine.
Its far end may be given up at any time without anybody taking notice. -/
theorem every_picture_is_forwarded {loader : Machine} {rom : List UInt8} {position : Nat}
    {observer : Observer} (calm : loader.Calm)
    (subscribed : loader.observers[position]? = some observer)
    (forwards : observer.unheard = forwarder) (loaded : (loader.load rom).outcome = .done)
    {requests : List Request} (quiet : ∀ request ∈ requests, request.Calm) :
    let fresh := (loader.load rom).machine
    let deeds := (atHand fresh).history requests
    let sent := (atHand fresh).sent requests position
    sent = deeds.filterMap Deed.picture? ∧
    (∀ tried, .tried tried ∈ deeds → (tried.draws = true ↔ tried.cycle.outcome = .done ∧
      ∃ opcode, tried.state.memory.word tried.state.pc.toNat = .ok opcode ∧
        (opcode = 0x00E0 ∨ opcode.toNat / 4096 = 13))) ∧
    (∀ more : List Request, (∀ request ∈ more, request.Calm) →
      sent <+: (atHand fresh).sent (requests ++ more) position) ∧
    ((∀ other, .loaded other ∉ deeds) → ∀ frame, sent.getLast? = some frame →
      ∃ machine, ((atHand fresh).after requests).machine? = some machine ∧
        machine.state.frame = frame) ∧
    ∀ limit,
      let heard := (atHand fresh).heard requests position
      let left := limit - observer.heard
      let cut : Observer := { forwarderUntil limit with heard := observer.heard }
      (atHand (fresh.withObservers (fresh.observers.set position cut))).sights requests =
        (atHand fresh).sights requests ∧
      ((Channel.after {} (heard.take left)).close.after (heard.drop left)).frames =
        (heard.take left).filterMap Event.frame? := by
  intro fresh deeds sent
  obtain ⟨present, -⟩ := List.getElem?_eq_some_iff.mp subscribed
  obtain ⟨observers, ready⟩ := Machine.forwards_load calm present loaded
  have pictures : sent = deeds.filterMap Deed.picture? := sent_eq_pictures ready quiet
  refine ⟨pictures, ?_, ?_, ?_, ?_⟩
  · intro tried member
    obtain ⟨front, back, split⟩ := List.append_of_mem member
    have stands : (atHand fresh).StandsAt requests front tried := .inl ⟨back, split⟩
    exact (forwards_of_standsAt ready quiet stands).calm.draws_iff
  · intro more further
    have all : ∀ request ∈ requests ++ more, request.Calm := fun request member =>
      (List.mem_append.mp member).elim (quiet request) (further request)
    rw [sent_eq_pictures ready all, history_append, List.filterMap_append, pictures]
    exact List.prefix_append ..
  · intro kept frame newest
    obtain ⟨final, present, stands⟩ := exists_final ready quiet
    rw [pictures] at newest
    exact ⟨final, present, newest_of_standsAt stands kept frame newest⟩
  · intro limit heard left cut
    refine ⟨?_, ?_⟩
    · rw [Machine.withObservers_set_forwarderUntil (observers ▸ subscribed) forwards limit]
    · rw [Channel.after_of_closed rfl, Channel.after_of_open rfl]
      rfl

/-- A step and then a session clear the screen, which makes two frames that are the same. -/
theorem equal_pictures_are_forwarded :
    let loader := { Machine.create Config.default (.constant Keys.released) (.ofArray #[]) with
      observers := [.silent, forwarder] }
    let fresh := (loader.load [0x00, 0xE0, 0x00, 0xE0]).machine
    let requests := [.step, .start none, .work 1, .stop]
    (atHand fresh).sent requests 1 = [Frame.blank, Frame.blank] ∧
      ∃ machine, ((atHand fresh).after requests).machine? = some machine ∧
        machine.state.frame = Frame.blank := by
  intro loader fresh requests
  have calm : loader.Calm := by
    simp [Machine.Calm, loader, Observer.calm_silent, calm_forwarder]
  have quiet : ∀ request ∈ requests, request.Calm := by simp [requests, Request.Calm]
  have loaded : (loader.load [0x00, 0xE0, 0x00, 0xE0]).outcome = .done := by decide +kernel
  have kept : ∀ other, .loaded other ∉ (atHand fresh).history requests := by
    intro other member
    simp [history, deeds, requests, fresh, answer, start, step] at member
  have subscribed : loader.observers[1]? = some forwarder := rfl
  obtain ⟨pictures, -, -, newest, -⟩ :=
    every_picture_is_forwarded calm subscribed rfl loaded quiet
  have drawn : ((atHand fresh).history requests).filterMap Deed.picture? =
      [Frame.blank, Frame.blank] := by decide +kernel
  rw [drawn] at pictures
  refine ⟨pictures, newest kept Frame.blank ?_⟩
  rw [pictures]
  rfl

end Emulator
end ChipEight
