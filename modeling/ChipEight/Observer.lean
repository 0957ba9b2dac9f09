import ChipEight.Record
import ChipEight.State

/-! Observers are told what happens to a machine, each event in a round that reaches all
of them in the order in which they subscribed. Telling one is a call into foreign code:
it may log, and it may panic, which breaks the round off where it stands. -/
namespace ChipEight

inductive Event where
  | start (state : State)
  | update (state : State)
  | frame (state : State)
  | sound (state : State)
  | fault (cause : Fault)
  | stop (state : State)
deriving DecidableEq

def Event.frame? : Event → Option Frame
  | frame state => some state.frame
  | start _ | update _ | sound _ | fault _ | stop _ => none

structure Reaction where
  records : List Record := []
  panic : Option String := none

structure Observer where
  /-- The reaction to an event, which may also hang on how many were heard before. -/
  react : Nat → Event → Reaction
  heard : Nat := 0

namespace Observer

def silent : Observer where
  react _ _ := {}

/-- Never panics, whatever it is told. -/
def Calm (observer : Observer) : Prop :=
  ∀ heard event, (observer.react heard event).panic = none

theorem calm_silent : silent.Calm := fun _ _ => rfl

def reaction (observer : Observer) (event : Event) : Reaction :=
  observer.react observer.heard event

def told (observer : Observer) : Observer := { observer with heard := observer.heard + 1 }

end Observer

inductive Occurrence where
  | logged (record : Record)
  /-- The observer at this position has received an event. -/
  | told (position : Nat) (event : Event)
deriving DecidableEq

abbrev Trace := List Occurrence

namespace Trace

def records (trace : Trace) : List Record :=
  trace.filterMap fun
    | .logged record => some record
    | .told .. => none

def events (trace : Trace) : List (Nat × Event) :=
  trace.filterMap fun
    | .told position event => some (position, event)
    | .logged _ => none

def stream (trace : Trace) (position : Nat) : List Event :=
  trace.events.filterMap fun (receiver, event) => if receiver = position then some event else none

@[simp] theorem records_append (first second : Trace) :
    records (first ++ second) = records first ++ records second := by
  simp [records]

@[simp] theorem events_append (first second : Trace) :
    events (first ++ second) = events first ++ events second := by
  simp [events]

@[simp] theorem stream_append (first second : Trace) (position : Nat) :
    stream (first ++ second) position = stream first position ++ stream second position := by
  simp [stream, List.filterMap_append]

end Trace

structure Round where
  observers : List Observer
  trace : Trace
  panic : Option String

/-- Tell every observer in turn; the first of the list has the given position. -/
def Round.tell (event : Event) : Nat → List Observer → Round
  | _, [] => ⟨[], [], none⟩
  | position, observer :: rest =>
    let reaction := observer.reaction event
    let own := .told position event :: reaction.records.map .logged
    match reaction.panic with
    | some cause => ⟨observer.told :: rest, own, some cause⟩
    | none =>
      let later := tell event (position + 1) rest
      ⟨observer.told :: later.observers, own ++ later.trace, later.panic⟩

@[simp] theorem Round.length_observers_tell (event : Event) (position : Nat)
    (observers : List Observer) :
    (Round.tell event position observers).observers.length = observers.length := by
  induction observers generalizing position with
  | nil => rfl
  | cons observer rest ih =>
    simp only [Round.tell]
    split <;> simp [ih]

end ChipEight
