import ChipEight.Session

/-! Rounds, seen from the machine. Observers cannot reach it, so all that a round leaves behind
is that they have heard more. Machines are therefore compared as if nobody had heard
anything yet, and two that agree in this way go on alike while no observer panics. -/
namespace ChipEight

namespace Trace

@[simp] theorem events_nil : events [] = [] := rfl

@[simp] theorem events_logged (records : List Record) :
    events (records.map Occurrence.logged) = [] := by
  induction records with
  | nil => rfl
  | cons record rest ih => exact ih

@[simp] theorem events_told_cons (position : Nat) (event : Event) (rest : Trace) :
    events (.told position event :: rest) = (position, event) :: events rest := rfl

end Trace

namespace Observer

def unheard (observer : Observer) : Observer := { observer with heard := 0 }

@[simp] theorem unheard_told (observer : Observer) : observer.told.unheard = observer.unheard :=
  rfl

theorem calm_unheard {observer : Observer} : observer.unheard.Calm ↔ observer.Calm := Iff.rfl

end Observer

namespace Round

@[simp] theorem unheard_tell (event : Event) (position : Nat) (observers : List Observer) :
    (tell event position observers).observers.map Observer.unheard =
      observers.map Observer.unheard := by
  induction observers generalizing position with
  | nil => rfl
  | cons observer rest ih =>
    simp only [tell]
    split
    · rfl
    · simp only [List.map_cons, Observer.unheard_told, ih]

theorem panic_tell_of_calm (event : Event) (position : Nat) {observers : List Observer}
    (calm : ∀ observer ∈ observers, observer.Calm) :
    (tell event position observers).panic = none := by
  induction observers generalizing position with
  | nil => rfl
  | cons observer rest ih =>
    have quiet : (observer.reaction event).panic = none :=
      calm observer List.mem_cons_self observer.heard event
    simp only [tell, quiet]
    exact ih _ fun other member => calm other (List.mem_cons_of_mem _ member)

theorem events_tell_of_unbroken {event : Event} {position : Nat} {observers : List Observer}
    (unbroken : (tell event position observers).panic = none) :
    (tell event position observers).trace.events =
      (List.range' position observers.length).map fun receiver => (receiver, event) := by
  induction observers generalizing position with
  | nil => rfl
  | cons observer rest ih =>
    rw [tell] at unbroken ⊢
    cases own : (observer.reaction event).panic with
    | some cause =>
      simp only [own] at unbroken
      contradiction
    | none =>
      simp only [own] at unbroken ⊢
      rw [Trace.events_append, Trace.events_told_cons, Trace.events_logged, ih unbroken]
      rfl

theorem mem_events_tell {event : Event} {position : Nat} {observers : List Observer}
    {told : Nat × Event} (heard : told ∈ (tell event position observers).trace.events) :
    told.2 = event := by
  induction observers generalizing position with
  | nil => contradiction
  | cons observer rest ih =>
    simp only [tell] at heard
    split at heard
    · rw [Trace.events_told_cons, Trace.events_logged, List.mem_singleton] at heard
      rw [heard]
    · rw [Trace.events_append, Trace.events_told_cons, Trace.events_logged] at heard
      obtain own | later := List.mem_append.mp heard
      · rw [List.mem_singleton.mp own]
      · exact ih later

end Round

namespace Machine

/-- The machine as if its observers had not been told of anything yet. How much they
have heard is all that a round changes. -/
def unheard (machine : Machine) : Machine :=
  { machine with observers := machine.observers.map Observer.unheard }

theorem unheard_congr {α : Type} {machine other : Machine}
    (same : machine.unheard = other.unheard) (read : Machine → α)
    (blind : ∀ machine, read machine.unheard = read machine) : read machine = read other := by
  rw [← blind machine, same, blind]

def Calm (machine : Machine) : Prop := ∀ observer ∈ machine.observers, observer.Calm

theorem calm_unheard {machine : Machine} : machine.unheard.Calm ↔ machine.Calm := by
  unfold Calm unheard
  simp only [List.mem_map, forall_exists_index, and_imp, forall_apply_eq_imp_iff₂,
    Observer.calm_unheard]

def round (machine : Machine) (event : Event) : List (Nat × Event) :=
  (List.range machine.observers.length).map fun position => (position, event)

@[simp] theorem unheard_announce (machine : Machine) (event : Event) :
    (machine.announce event).machine.unheard = machine.unheard := by
  simp only [announce, unheard, Round.unheard_tell]

end Machine
end ChipEight
