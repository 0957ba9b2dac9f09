import ChipEight.Emulator
import ChipEight.Proofs.Relays

/-! What becomes of a machine over any number of requests. The emulator may hand it to workers
and take it back; the history leaves that out and lists only the deeds that can change a
machine, so whatever the deeds carry on holds wherever the machine stands. -/
namespace ChipEight

/-- What can be asked of an emulator. `work` is time that passes for a worker. -/
inductive Request where
  | subscribe (observer : Observer)
  | load (rom : List UInt8)
  | step
  | start (refusal : Option SystemError)
  | work (count : Nat)
  | stop

/-- What became of a machine, for better or worse. -/
inductive Deed where
  | subscribed (observer : Observer)
  | loaded (rom : List UInt8)
  /-- A step or a session began. -/
  | begun
  /-- A cycle was tried on the machine as it stood. -/
  | tried (machine : Machine)

/-- The machines on which so many cycles are tried, up to the first that does not succeed. -/
def Machine.tries : Nat → Machine → List Machine
  | 0, _ => []
  | count + 1, machine =>
    machine :: match machine.cycle.outcome with
      | .done => machine.cycle.machine.tries count
      | .failed _ | .panicked _ => []

def Session.tries (session : Session) (count : Nat) : List Machine :=
  match session.ending with
  | some _ => []
  | none => session.machine.tries count

namespace Emulator

def answer (emulator : Emulator) : Request → Reply
  | .subscribe observer => emulator.subscribe observer
  | .load rom => emulator.load rom
  | .step => emulator.step
  | .start refusal => emulator.start refusal
  | .work count => ⟨emulator.work count, .done, [], none⟩
  | .stop => emulator.stop

def deeds : Emulator → Request → List Deed
  | atHand _, .subscribe observer => [.subscribed observer]
  | atHand machine, .load rom =>
    if (machine.load rom).outcome = .done then [.loaded rom] else []
  | atHand machine, .step => [.begun, .tried machine.begin]
  | atHand _, .start none => [.begun]
  | busy session, .work count => (session.tries count).map .tried
  | _, _ => []

def after (emulator : Emulator) (requests : List Request) : Emulator :=
  requests.foldl (fun emulator request => (emulator.answer request).emulator) emulator

def history (emulator : Emulator) : List Request → List Deed
  | [] => []
  | request :: rest => emulator.deeds request ++ (emulator.answer request).emulator.history rest

theorem after_append (emulator : Emulator) (first second : List Request) :
    emulator.after (first ++ second) = (emulator.after first).after second :=
  List.foldl_append ..

theorem history_append (emulator : Emulator) (first second : List Request) :
    emulator.history (first ++ second) =
      emulator.history first ++ (emulator.after first).history second := by
  induction first generalizing emulator with
  | nil => rfl
  | cons request rest ih =>
    rw [List.cons_append, history, history, ih, List.append_assoc]
    rfl

theorem subscribed_of_mem_deeds {emulator : Emulator} {request : Request} {observer : Observer}
    (member : .subscribed observer ∈ emulator.deeds request) : request = .subscribe observer := by
  cases emulator with
  | lost random => cases request <;> contradiction
  | busy session =>
    cases request with
    | work count => simp [deeds] at member
    | subscribe | load | step | start | stop => contradiction
  | atHand machine =>
    cases request with
    | subscribe other =>
      have same : other = observer := by simpa [deeds, eq_comm] using member
      rw [same]
    | load rom =>
      rw [deeds] at member
      split at member <;> simp at member
    | step => simp [deeds] at member
    | start refusal => cases refusal <;> simp [deeds] at member
    | work | stop => contradiction

def machine? : Emulator → Option Machine
  | atHand machine => some machine
  | busy session => some session.machine
  | lost _ => none

end Emulator

/-- What is said of a machine and of the deeds that led to it is carried on by every further deed,
and does not hang on what observers have heard. -/
structure Machine.Carried (holds : List Deed → Machine → Prop) : Prop where
  subscribed : ∀ {history : List Deed} {machine : Machine} (observer : Observer),
    holds history machine → holds (history ++ [.subscribed observer])
      { machine with observers := machine.observers ++ [observer] }
  loaded : ∀ {history : List Deed} {machine : Machine} {rom : List UInt8} {state : State},
    State.loaded rom = .ok state → holds history machine →
      holds (history ++ [.loaded rom]) { machine with state, begun := false }
  begun : ∀ {history : List Deed} {machine : Machine}, holds history machine →
    holds (history ++ [.begun]) machine.begin
  tried : ∀ {history : List Deed} {machine : Machine}, machine.begun → holds history machine →
    holds (history ++ [.tried machine]) machine.cycle.machine
  heard : ∀ {history : List Deed} {machine other : Machine}, other.unheard = machine.unheard →
    holds history machine → holds history other

structure Machine.CarriedWhile (lasts : List Deed → Prop) (holds : List Deed → Machine → Prop) :
    Prop where
  front : ∀ {history : List Deed} {deed : Deed}, lasts (history ++ [deed]) → lasts history
  subscribed : ∀ {history : List Deed} {machine : Machine} {observer : Observer},
    lasts (history ++ [.subscribed observer]) → holds history machine →
      holds (history ++ [.subscribed observer])
        { machine with observers := machine.observers ++ [observer] }
  loaded : ∀ {history : List Deed} {machine : Machine} {rom : List UInt8} {state : State},
    lasts (history ++ [.loaded rom]) → State.loaded rom = .ok state → holds history machine →
      holds (history ++ [.loaded rom]) { machine with state, begun := false }
  begun : ∀ {history : List Deed} {machine : Machine}, holds history machine →
    holds (history ++ [.begun]) machine.begin
  tried : ∀ {history : List Deed} {machine : Machine}, lasts (history ++ [.tried machine]) →
    machine.begun → holds history machine →
      holds (history ++ [.tried machine]) machine.cycle.machine
  heard : ∀ {history : List Deed} {machine other : Machine}, other.unheard = machine.unheard →
    holds history machine → holds history other

theorem Machine.CarriedWhile.carried {lasts : List Deed → Prop}
    {holds : List Deed → Machine → Prop} (carried : CarriedWhile lasts holds) :
    Carried fun history machine => lasts history → holds history machine where
  subscribed _ now further := carried.subscribed further (now (carried.front further))
  loaded made now further := carried.loaded further made (now (carried.front further))
  begun now further := carried.begun (now (carried.front further))
  tried begun now further := carried.tried further begun (now (carried.front further))
  heard same now further := carried.heard same (now further)

def Unloaded (deeds : List Deed) : Prop := ∀ rom, .loaded rom ∉ deeds

theorem Unloaded.front {front back : List Deed} (unloaded : Unloaded (front ++ back)) :
    Unloaded front :=
  fun rom member => unloaded rom (List.mem_append_left _ member)

theorem not_unloaded_concat (history : List Deed) (rom : List UInt8) :
    ¬ Unloaded (history ++ [.loaded rom]) :=
  fun unloaded => unloaded rom (List.mem_append_right _ List.mem_cons_self)

namespace Machine

theorem load_cases (machine : Machine) (rom : List UInt8) :
    (∃ state, State.loaded rom = .ok state ∧ (machine.load rom).outcome = .done ∧
        (machine.load rom).machine = { machine with state, begun := false }) ∨
      (∃ fault, (machine.load rom).outcome = .failed fault) ∧
        (machine.load rom).machine = machine := by
  unfold load
  split
  · exact .inr ⟨⟨_, rfl⟩, rfl⟩
  · cases loaded : State.loaded rom with
    | error fault => exact .inr ⟨⟨fault, rfl⟩, rfl⟩
    | ok state => exact .inl ⟨state, rfl, rfl, rfl⟩

@[simp] theorem begun_begin (machine : Machine) : machine.begin.begun = true := by
  unfold begin
  split
  · assumption
  · rfl

theorem exists_begin_eq (machine : Machine) : ∃ pc,
    machine.begin = { machine with state := { machine.state with pc }, begun := true } := by
  obtain ⟨state, keypad, random, observers, config, begun⟩ := machine
  cases begun with
  | true => exact ⟨state.pc, rfl⟩
  | false => exact ⟨State.programStart, rfl⟩

theorem begin_inputs (machine : Machine) :
    machine.begin.keypad = machine.keypad ∧ machine.begin.random = machine.random := by
  obtain ⟨pc, begin⟩ := machine.exists_begin_eq
  rw [begin]
  exact ⟨rfl, rfl⟩

theorem cycle_cases (machine : Machine) :
    (∃ fault, machine.attempt.result = .error fault ∧ machine.cycle.machine = machine.poll) ∨
      ∃ state, machine.attempt.result = .ok state ∧
        (machine.cycle.machine.unheard = (machine.commit state).unheard ∨
          machine.cycle.machine.unheard = (machine.commit state.settled).unheard) := by
  cases result : machine.attempt.result with
  | error fault =>
    rw [cycle_of_error result]
    exact .inl ⟨fault, rfl, rfl⟩
  | ok state =>
    right
    refine ⟨state, rfl, ?_⟩
    rw [cycle_of_ok result]
    obtain ⟨-, settled⟩ | ⟨-, -, kept | settled⟩ := notify_cases (machine.commit state)
    · exact .inr settled
    · exact .inl kept
    · exact .inr settled

theorem state_cycle_of_ok {machine : Machine} {state : State}
    (succeeded : machine.attempt.result = .ok state) :
    machine.cycle.machine.state = state ∨ machine.cycle.machine.state = state.settled := by
  obtain ⟨fault, failed, -⟩ | ⟨other, found, same⟩ := machine.cycle_cases
  · rw [succeeded] at failed
    contradiction
  · obtain rfl : state = other := Except.ok.inj (succeeded.symm.trans found)
    exact same.imp state_of_unheard_eq state_of_unheard_eq

theorem begun_cycle (machine : Machine) : machine.cycle.machine.begun = machine.begun := by
  obtain ⟨fault, -, polled⟩ | ⟨state, -, same | same⟩ := machine.cycle_cases
  · rw [polled]
    rfl
  · rw [begun_of_unheard_eq same]
    rfl
  · rw [begun_of_unheard_eq same]
    rfl

theorem observers_cycle (machine : Machine) :
    machine.cycle.machine.observers.map Observer.unheard =
      machine.observers.map Observer.unheard := by
  obtain ⟨fault, -, polled⟩ | ⟨state, -, same | same⟩ := machine.cycle_cases
  · rw [polled]
    rfl
  · exact congrArg Machine.observers same
  · exact congrArg Machine.observers same

theorem length_observers_cycle (machine : Machine) :
    machine.cycle.machine.observers.length = machine.observers.length := by
  have same := congrArg List.length machine.observers_cycle
  rwa [List.length_map, List.length_map] at same

private theorem config_cycle (machine : Machine) :
    machine.cycle.machine.config = machine.config := by
  obtain ⟨fault, -, polled⟩ | ⟨state, -, same | same⟩ := machine.cycle_cases
  · rw [polled]
    rfl
  · exact unheard_congr same Machine.config fun _ => rfl
  · exact unheard_congr same Machine.config fun _ => rfl

theorem carried_config (config : Config) : Carried fun _ machine => machine.config = config where
  subscribed _ now := now
  loaded _ now := now
  begun {_ machine} now := by
    obtain ⟨pc, begin⟩ := machine.exists_begin_eq
    rw [begin]
    exact now
  tried {_ machine} _ now := machine.config_cycle.trans now
  heard same now := (unheard_congr same Machine.config fun _ => rfl).trans now

theorem Carried.run {holds : List Deed → Machine → Prop} (carried : Carried holds)
    {history : List Deed} {machine : Machine} (now : holds history machine)
    (begun : machine.begun) (count : Nat) :
    holds (history ++ (machine.tries count).map .tried) (machine.run count).machine ∧
      (machine.run count).machine.begun := by
  induction count generalizing history machine with
  | zero =>
    rw [tries, List.map_nil, List.append_nil]
    exact ⟨now, begun⟩
  | succ count ih =>
    have cycled := carried.tried begun now
    have stillBegun := machine.begun_cycle.trans begun
    rw [Machine.run, tries]
    cases outcome : machine.cycle.outcome with
    | done =>
      have later := ih cycled stillBegun
      rwa [List.append_assoc] at later
    | failed fault =>
      have same := unheard_halt machine.cycle.machine fault
      exact ⟨carried.heard same cycled, (begun_of_unheard_eq same).trans stillBegun⟩
    | panicked cause => exact ⟨cycled, stillBegun⟩

end Machine

namespace Session

theorem unheard_start (machine : Machine) :
    (start machine).machine.unheard = machine.begin.unheard :=
  Machine.unheard_announce machine.begin _

theorem unheard_finish (session : Session) :
    session.finish.machine.unheard = session.machine.unheard := by
  unfold finish
  split
  · rfl
  · exact Machine.unheard_announce session.machine _

end Session

namespace Emulator

def Holds (holds : List Deed → Machine → Prop) (history : List Deed) : Emulator → Prop
  | atHand machine => holds history machine
  | busy session => holds history session.machine ∧ session.machine.begun
  | lost _ => ∃ machine, holds history machine

section
variable {holds : List Deed → Machine → Prop} {history : List Deed} {emulator : Emulator}

theorem Holds.exists_machine (now : emulator.Holds holds history) :
    ∃ machine, holds history machine := by
  cases emulator with
  | atHand machine => exact ⟨machine, now⟩
  | busy session => exact ⟨session.machine, now.1⟩
  | lost random => exact now

theorem Holds.of_present (now : emulator.Holds holds history) {machine : Machine}
    (present : emulator.machine? = some machine) : holds history machine := by
  cases emulator with
  | atHand other =>
    cases present
    exact now
  | busy session =>
    cases present
    exact now.1
  | lost random => contradiction

theorem Holds.imp {other : List Deed → Machine → Prop} {later : List Deed}
    (now : emulator.Holds holds history)
    (onward : ∀ machine, holds history machine → other later machine) :
    emulator.Holds other later := by
  cases emulator with
  | atHand machine => exact onward machine now
  | busy session => exact ⟨onward session.machine now.1, now.2⟩
  | lost random =>
    obtain ⟨machine, held⟩ := now
    exact ⟨machine, onward machine held⟩

theorem Holds.blind {holds : Machine → Prop} (now : emulator.Holds (fun _ => holds) history)
    (other : List Deed) : emulator.Holds (fun _ => holds) other := by
  cases emulator <;> exact now

theorem Holds.append_nil (now : emulator.Holds holds history) :
    emulator.Holds holds (history ++ []) := by
  rwa [List.append_nil]

theorem Holds.work (carried : Machine.Carried holds) {session : Session}
    (now : (busy session).Holds holds history) (count : Nat) :
    (busy (session.work count)).Holds holds
      (history ++ (busy session).deeds (.work count)) := by
  rw [deeds]
  cases ending : session.ending with
  | some ending =>
    simp only [Session.work, Session.tries, ending]
    exact now.append_nil
  | none =>
    simp only [Session.work, Session.tries, ending]
    exact carried.run now.1 now.2 count

theorem Holds.stop (carried : Machine.Carried holds) {session : Session}
    (now : (busy session).Holds holds history) :
    (busy session).stop.emulator.Holds holds history := by
  have handed := carried.heard session.unheard_finish now.1
  simp only [Emulator.stop]
  split
  · exact ⟨_, handed⟩
  · exact handed

theorem Holds.load (carried : Machine.Carried holds) {machine : Machine}
    (now : (atHand machine).Holds holds history) (rom : List UInt8) :
    ((atHand machine).load rom).emulator.Holds holds
      (history ++ (atHand machine).deeds (.load rom)) := by
  have answered : ((atHand machine).load rom).emulator = atHand (machine.load rom).machine := rfl
  rw [answered, deeds]
  obtain ⟨state, loaded, done, after⟩ | ⟨⟨fault, failed⟩, same⟩ := machine.load_cases rom
  · rw [if_pos done, after]
    exact carried.loaded loaded now
  · rw [if_neg (by rw [failed]; exact Outcome.noConfusion), same]
    exact now.append_nil

theorem Holds.answer (carried : Machine.Carried holds) (now : emulator.Holds holds history)
    (request : Request) :
    (emulator.answer request).emulator.Holds holds (history ++ emulator.deeds request) := by
  cases emulator with
  | lost random => cases request <;> exact now.append_nil
  | busy session =>
    cases request with
    | work count => exact now.work carried count
    | stop =>
      have handed := now.stop carried
      exact handed.append_nil
    | subscribe | load | step | start => exact now.append_nil
  | atHand machine =>
    cases request with
    | subscribe observer => exact carried.subscribed observer now
    | load rom => exact now.load carried rom
    | step =>
      have cycled := carried.tried machine.begun_begin (carried.begun now)
      rwa [List.append_assoc] at cycled
    | start refusal =>
      cases refusal with
      | some cause => exact now.append_nil
      | none =>
        have same := Session.unheard_start machine
        refine ⟨carried.heard same (carried.begun now), ?_⟩
        rw [Machine.begun_of_unheard_eq same]
        exact machine.begun_begin
    | work | stop => exact now.append_nil

theorem Holds.after (carried : Machine.Carried holds) (now : emulator.Holds holds history)
    (requests : List Request) :
    (emulator.after requests).Holds holds (history ++ emulator.history requests) := by
  induction requests generalizing history emulator with
  | nil => exact now.append_nil
  | cons request rest ih =>
    have later := ih (now.answer carried request)
    rwa [List.append_assoc] at later

end
end Emulator

theorem concat_eq_append_cons {α : Type} {past before rest : List α} {last item : α}
    (same : past ++ [last] = before ++ item :: rest) :
    past = before ∧ last = item ∨ ∃ between, rest = between ++ [last] ∧
      past = before ++ item :: between := by
  obtain rfl | ⟨between, final, rfl⟩ := List.eq_nil_or_concat rest
  · exact .inl (List.append_singleton_inj.mp same)
  · rw [List.concat_eq_append, ← List.cons_append, ← List.append_assoc,
      List.append_singleton_inj] at same
    obtain ⟨rfl, rfl⟩ := same
    exact .inr ⟨between, List.concat_eq_append, rfl⟩

theorem Machine.Carried.along {holds : List Deed → Machine → Prop} (carried : Carried holds) :
    Carried fun history machine => holds history machine ∧
      ∀ before tried rest, history = before ++ .tried tried :: rest →
        holds before tried ∧ tried.begun := by
  have kept : ∀ {history : List Deed} {deed : Deed}, (∀ tried, deed ≠ .tried tried) →
      (∀ before tried rest, history = before ++ .tried tried :: rest →
        holds before tried ∧ tried.begun) →
      ∀ before tried rest, history ++ [deed] = before ++ .tried tried :: rest →
        holds before tried ∧ tried.begun := by
    intro history deed other earlier before tried rest same
    obtain ⟨-, last⟩ | ⟨between, -, rfl⟩ := concat_eq_append_cons same
    · exact absurd last (other tried)
    · exact earlier before tried between rfl
  constructor
  case subscribed =>
    intro history machine observer now
    exact ⟨carried.subscribed observer now.1, kept nofun now.2⟩
  case loaded =>
    intro history machine rom state loaded now
    exact ⟨carried.loaded loaded now.1, kept nofun now.2⟩
  case begun =>
    intro history machine now
    exact ⟨carried.begun now.1, kept nofun now.2⟩
  case tried =>
    intro history machine begun now
    refine ⟨carried.tried begun now.1, ?_⟩
    intro before tried rest same
    obtain ⟨rfl, last⟩ | ⟨between, -, rfl⟩ := concat_eq_append_cons same
    · cases last
      exact ⟨now.1, begun⟩
    · exact now.2 before tried between rfl
  case heard =>
    intro history machine other same now
    exact ⟨carried.heard same now.1, now.2⟩

/-- What is carried on from every machine on which a cycle was tried. -/
theorem Machine.carried_since {since : Machine → List Deed → Machine → Prop}
    (first : ∀ machine, since machine [] machine) (carried : ∀ earlier, Carried (since earlier)) :
    Carried fun history machine => ∀ early earlier between,
      history = early ++ .tried earlier :: between →
        since earlier (.tried earlier :: between) machine := by
  have kept : ∀ {history : List Deed} {deed : Deed} {machine other : Machine},
      (∀ tried, deed ≠ .tried tried) →
      (∀ earlier {deeds}, since earlier deeds machine → since earlier (deeds ++ [deed]) other) →
      (∀ early earlier between, history = early ++ .tried earlier :: between →
        since earlier (.tried earlier :: between) machine) →
      ∀ early earlier between, history ++ [deed] = early ++ .tried earlier :: between →
        since earlier (.tried earlier :: between) other := by
    intro history deed machine other idle onward now early earlier between same
    obtain ⟨-, last⟩ | ⟨middle, rfl, split⟩ := concat_eq_append_cons same
    · exact absurd last (idle earlier)
    · exact onward earlier (now early earlier middle split)
  constructor
  case subscribed =>
    intro history machine observer now
    exact kept nofun (fun earlier _ => (carried earlier).subscribed observer) now
  case loaded =>
    intro history machine rom state loaded now
    exact kept nofun (fun earlier _ => (carried earlier).loaded loaded) now
  case begun =>
    intro history machine now
    exact kept nofun (fun earlier _ => (carried earlier).begun) now
  case tried =>
    intro history machine begun now early earlier between same
    obtain ⟨rfl, last⟩ | ⟨middle, rfl, split⟩ := concat_eq_append_cons same
    · cases last
      obtain rfl : between = [] := by simpa using same
      exact (carried machine).tried begun (first machine)
    · exact (carried earlier).tried begun (now early earlier middle split)
  case heard =>
    intro history machine other same now early earlier between split
    exact (carried earlier).heard same (now early earlier between split)

namespace Emulator

/-- Where the machine stands in the course of the requests: a cycle is tried on it there, or they
are over. `front` is what has become of it up to there. -/
def StandsAt (emulator : Emulator) (requests : List Request) (front : List Deed)
    (machine : Machine) : Prop :=
  (∃ late, emulator.history requests = front ++ .tried machine :: late) ∨
    emulator.history requests = front ∧ (emulator.after requests).machine? = some machine

theorem StandsAt.exists_append {emulator : Emulator} {requests : List Request} {front : List Deed}
    {machine : Machine} (stands : emulator.StandsAt requests front machine) :
    ∃ back, emulator.history requests = front ++ back := by
  obtain ⟨late, split⟩ | ⟨whole, -⟩ := stands
  · exact ⟨_, split⟩
  · exact ⟨[], whole.trans (List.append_nil _).symm⟩

theorem StandsAt.holds {emulator : Emulator} {requests : List Request} {front : List Deed}
    {machine : Machine} (stands : emulator.StandsAt requests front machine)
    {holds : List Deed → Machine → Prop} (carried : Machine.Carried holds)
    (now : emulator.Holds holds []) : holds front machine := by
  have first : emulator.Holds (fun history machine => holds history machine ∧
      ∀ before tried rest, history = before ++ .tried tried :: rest →
        holds before tried ∧ tried.begun) [] := by
    cases emulator with
    | atHand machine => exact ⟨now, by simp⟩
    | busy session => exact ⟨⟨now.1, by simp⟩, now.2⟩
    | lost random =>
      obtain ⟨machine, held⟩ := now
      exact ⟨machine, held, by simp⟩
  have last := first.after carried.along requests
  rw [List.nil_append] at last
  obtain ⟨late, split⟩ | ⟨rfl, present⟩ := stands
  · obtain ⟨final, -, along⟩ := last.exists_machine
    exact (along front machine late split).1
  · exact (last.of_present present).1

end Emulator
end ChipEight
