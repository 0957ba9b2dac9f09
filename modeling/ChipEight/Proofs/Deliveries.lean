import ChipEight.Proofs.Cycle

/-! A log that is told to everybody, one round for each entry. The first panic breaks it off in the
middle of a round, so what comes of a log hangs on who panics first and over which entry, and on
nothing that would have come later. -/
namespace ChipEight

def calls (count : Nat) (event : Event) : List (Nat × Event) :=
  (List.range count).map fun position => (position, event)

namespace Observer

def hearing (more : Nat) (observer : Observer) : Observer :=
  { observer with heard := observer.heard + more }

/-- The panic of the observer, if any, when it is told of the event after so many others. -/
def panicAfter (observer : Observer) (others : Nat) (event : Event) : Option String :=
  (observer.react (observer.heard + others) event).panic

@[simp] theorem panicAfter_hearing (observer : Observer) (more others : Nat) (event : Event) :
    (observer.hearing more).panicAfter others event =
      observer.panicAfter (others + more) event := by
  simp only [panicAfter, hearing, Nat.add_assoc, Nat.add_comm more]

theorem hearing_comp (first second : Nat) :
    hearing second ∘ hearing first = hearing (second + first) := by
  funext observer
  simp only [Function.comp_apply, hearing, Nat.add_assoc, Nat.add_comm first]

private theorem map_hearing_zero (observers : List Observer) :
    observers.map (hearing 0) = observers :=
  List.map_id observers

end Observer

/-- The first panic while the log is told: it is that of the observer at the position, over the
event, of which those before it are told in peace, as everybody is of what is earlier. -/
structure FirstPanic (observers : List Observer) (log earlier : List Event) (event : Event)
    (position : Nat) (cause : String) : Prop where
  told : earlier ++ [event] <+: log
  silent : ∀ others before, earlier[others]? = some before →
    ∀ observer ∈ observers, observer.panicAfter others before = none
  passed : ∀ observer ∈ observers.take position, observer.panicAfter earlier.length event = none
  panics : ∃ observer, observers[position]? = some observer ∧
    observer.panicAfter earlier.length event = some cause

namespace Round
variable {event : Event} {observers : List Observer} {cause : String}

theorem silent_of_unbroken {start : Nat} (unbroken : (tell event start observers).panic = none) :
    (∀ observer ∈ observers, observer.panicAfter 0 event = none) ∧
      (tell event start observers).observers = observers.map (Observer.hearing 1) := by
  induction observers generalizing start with
  | nil => exact ⟨nofun, rfl⟩
  | cons observer rest ih =>
    rw [tell] at unbroken ⊢
    cases own : (observer.reaction event).panic with
    | some cause =>
      simp only [own] at unbroken
      contradiction
    | none =>
      simp only [own] at unbroken ⊢
      obtain ⟨silent, heard⟩ := ih unbroken
      refine ⟨?_, ?_⟩
      · intro other member
        obtain rfl | behind := List.mem_cons.mp member
        · exact own
        · exact silent other behind
      · rw [heard, List.map_cons]
        rfl

private theorem unbroken_of_silent
    (silent : ∀ observer ∈ observers, observer.panicAfter 0 event = none)
    (start : Nat) : (tell event start observers).panic = none := by
  induction observers generalizing start with
  | nil => rfl
  | cons observer rest ih =>
    have own : (observer.reaction event).panic = none := silent observer List.mem_cons_self
    simp only [tell, own]
    exact ih (fun other member => silent other (List.mem_cons_of_mem _ member)) _

private theorem tell_of_panics {position : Nat}
    (passed : ∀ observer ∈ observers.take position, observer.panicAfter 0 event = none)
    (panics : ∃ observer, observers[position]? = some observer ∧
      observer.panicAfter 0 event = some cause) (start : Nat) :
    (tell event start observers).panic = some cause ∧
      (tell event start observers).observers =
        (observers.take (position + 1)).map (Observer.hearing 1) ++
          observers.drop (position + 1) ∧
      (tell event start observers).trace.events =
        (List.range' start (position + 1)).map fun receiver => (receiver, event) := by
  induction observers generalizing start position with
  | nil => simp at panics
  | cons observer rest ih =>
    cases position with
    | zero =>
      obtain ⟨found, first, panics⟩ := panics
      obtain rfl : observer = found := Option.some.inj first
      have own : (observer.reaction event).panic = some cause := panics
      simp only [tell, own]
      refine ⟨trivial, rfl, ?_⟩
      rw [Trace.events_told_cons, Trace.events_logged]
      rfl
    | succ position =>
      have own : (observer.reaction event).panic = none := passed observer List.mem_cons_self
      have behind : ∀ other ∈ rest.take position, other.panicAfter 0 event = none :=
        fun other member => passed other (List.mem_cons_of_mem _ member)
      obtain ⟨broken, heard, events⟩ := ih behind panics (start + 1)
      simp only [tell, own]
      refine ⟨broken, ?_, ?_⟩
      · rw [heard, List.take_succ_cons, List.drop_succ_cons, List.map_cons]
        rfl
      · rw [Trace.events_append, Trace.events_told_cons, Trace.events_logged, events,
          List.range'_succ]
        rfl

private theorem exists_panics {start : Nat}
    (broken : (tell event start observers).panic = some cause) :
    ∃ position, (∀ observer ∈ observers.take position, observer.panicAfter 0 event = none) ∧
      ∃ observer, observers[position]? = some observer ∧
        observer.panicAfter 0 event = some cause := by
  induction observers generalizing start with
  | nil => contradiction
  | cons observer rest ih =>
    rw [tell] at broken
    cases own : (observer.reaction event).panic with
    | some first =>
      simp only [own, Option.some.injEq] at broken
      subst broken
      exact ⟨0, List.forall_mem_nil _, observer, rfl, own⟩
    | none =>
      simp only [own] at broken
      obtain ⟨position, passed, panics⟩ := ih broken
      refine ⟨position + 1, ?_, panics⟩
      intro other member
      obtain rfl | behind := List.mem_cons.mp member
      · exact own
      · exact passed other behind

end Round

structure Delivery where
  observers : List Observer
  events : List (Nat × Event)
  /-- The event that somebody panicked over, and the cause. -/
  broken : Option (Event × String)

def deliver : List Event → List Observer → Delivery
  | [], observers => ⟨observers, [], none⟩
  | event :: rest, observers =>
    let round := Round.tell event 0 observers
    match round.panic with
    | some cause => ⟨round.observers, round.trace.events, some (event, cause)⟩
    | none =>
      let later := deliver rest round.observers
      { later with events := round.trace.events ++ later.events }

variable {observers : List Observer} {log : List Event} {event : Event} {cause : String}

@[simp] theorem deliver_nil (observers : List Observer) :
    deliver [] observers = ⟨observers, [], none⟩ := rfl

theorem deliver_cons_of_broken (broken : (Round.tell event 0 observers).panic = some cause)
    (rest : List Event) :
    deliver (event :: rest) observers =
      ⟨(Round.tell event 0 observers).observers, (Round.tell event 0 observers).trace.events,
        some (event, cause)⟩ := by
  simp only [deliver, broken]

theorem deliver_cons_of_unbroken (unbroken : (Round.tell event 0 observers).panic = none)
    (rest : List Event) :
    deliver (event :: rest) observers =
      { deliver rest (Round.tell event 0 observers).observers with
        events := (Round.tell event 0 observers).trace.events ++
          (deliver rest (Round.tell event 0 observers).observers).events } := by
  simp only [deliver, unbroken]

theorem deliver_append_of_broken (broken : (deliver log observers).broken = some (event, cause))
    (rest : List Event) : deliver (log ++ rest) observers = deliver log observers := by
  induction log generalizing observers with
  | nil => contradiction
  | cons first log ih =>
    cases panic : (Round.tell first 0 observers).panic with
    | some other =>
      rw [List.cons_append, deliver_cons_of_broken panic, deliver_cons_of_broken panic]
    | none =>
      rw [deliver_cons_of_unbroken panic] at broken
      rw [List.cons_append, deliver_cons_of_unbroken panic, deliver_cons_of_unbroken panic,
        ih broken]

theorem deliver_append_of_unbroken (unbroken : (deliver log observers).broken = none)
    (rest : List Event) :
    deliver (log ++ rest) observers =
      { deliver rest (deliver log observers).observers with
        events := (deliver log observers).events ++
          (deliver rest (deliver log observers).observers).events } := by
  induction log generalizing observers with
  | nil => rfl
  | cons first log ih =>
    cases panic : (Round.tell first 0 observers).panic with
    | some other =>
      rw [deliver_cons_of_broken panic] at unbroken
      contradiction
    | none =>
      rw [deliver_cons_of_unbroken panic] at unbroken ⊢
      rw [List.cons_append, deliver_cons_of_unbroken panic, ih unbroken, List.append_assoc]

theorem mem_of_events_deliver {told : Nat × Event}
    (heard : told ∈ (deliver log observers).events) : told.2 ∈ log := by
  induction log generalizing observers with
  | nil => contradiction
  | cons event rest ih =>
    cases panic : (Round.tell event 0 observers).panic with
    | some other =>
      rw [deliver_cons_of_broken panic] at heard
      rw [Round.mem_events_tell heard]
      exact List.mem_cons_self
    | none =>
      rw [deliver_cons_of_unbroken panic] at heard
      obtain now | later := List.mem_append.mp heard
      · rw [Round.mem_events_tell now]
        exact List.mem_cons_self
      · exact List.mem_cons_of_mem _ (ih later)

theorem unheard_deliver (log : List Event) (observers : List Observer) :
    (deliver log observers).observers.map Observer.unheard = observers.map Observer.unheard := by
  induction log generalizing observers with
  | nil => rfl
  | cons event rest ih =>
    cases panic : (Round.tell event 0 observers).panic with
    | some cause => rw [deliver_cons_of_broken panic, Round.unheard_tell]
    | none => rw [deliver_cons_of_unbroken panic, ih, Round.unheard_tell]

section
variable {earlier : List Event} {position : Nat}

theorem firstPanic_cons {before : Event} :
    FirstPanic observers (before :: log) (before :: earlier) event position cause ↔
      (∀ observer ∈ observers, observer.panicAfter 0 before = none) ∧
        FirstPanic (observers.map (Observer.hearing 1)) log earlier event position cause := by
  constructor
  · rintro ⟨told, silent, passed, panics⟩
    refine ⟨silent 0 before rfl, (List.cons_prefix_cons.mp told).2, ?_, ?_, ?_⟩
    · intro others told stands observer member
      obtain ⟨own, present, rfl⟩ := List.mem_map.mp member
      rw [Observer.panicAfter_hearing]
      exact silent (others + 1) told stands own present
    · intro observer member
      rw [← List.map_take] at member
      obtain ⟨own, present, rfl⟩ := List.mem_map.mp member
      rw [Observer.panicAfter_hearing]
      exact passed own present
    · obtain ⟨observer, present, panics⟩ := panics
      refine ⟨observer.hearing 1, ?_, ?_⟩
      · rw [List.getElem?_map, present]
        rfl
      · rw [Observer.panicAfter_hearing]
        exact panics
  · rintro ⟨quiet, told, silent, passed, panics⟩
    refine ⟨List.cons_prefix_cons.mpr ⟨rfl, told⟩, ?_, ?_, ?_⟩
    · intro others told stands observer member
      cases others with
      | zero =>
        obtain rfl : before = told := Option.some.inj stands
        exact quiet observer member
      | succ others =>
        rw [← Observer.panicAfter_hearing]
        exact silent others told stands _ (List.mem_map_of_mem member)
    · intro observer member
      rw [List.length_cons, ← Observer.panicAfter_hearing]
      apply passed
      rw [← List.map_take]
      exact List.mem_map_of_mem member
    · obtain ⟨observer, present, panics⟩ := panics
      rw [List.getElem?_map] at present
      obtain ⟨own, stands, rfl⟩ := Option.map_eq_some_iff.mp present
      rw [Observer.panicAfter_hearing] at panics
      exact ⟨own, stands, panics⟩

/-- A log with a first panic is told up to it and no further. -/
theorem FirstPanic.deliver_eq
    (first : FirstPanic observers log earlier event position cause) :
    deliver log observers =
      ⟨(observers.take (position + 1)).map (Observer.hearing (earlier.length + 1)) ++
          (observers.drop (position + 1)).map (Observer.hearing earlier.length),
        earlier.flatMap (calls observers.length) ++ calls (position + 1) event,
        some (event, cause)⟩ := by
  induction earlier generalizing observers log with
  | nil =>
    obtain ⟨⟨rest, rfl⟩, -, passed, panics⟩ := first
    obtain ⟨broken, heard, events⟩ := Round.tell_of_panics passed panics 0
    rw [List.nil_append, List.singleton_append, deliver_cons_of_broken broken, heard, events,
      List.length_nil, Observer.map_hearing_zero, ← List.range_eq_range']
    rfl
  | cons before earlier ih =>
    obtain ⟨rest, rfl⟩ := first.told
    rw [List.cons_append, List.cons_append] at first ⊢
    obtain ⟨quiet, later⟩ := firstPanic_cons.mp first
    have unbroken := Round.unbroken_of_silent quiet 0
    have heard := (Round.silent_of_unbroken unbroken).2
    rw [deliver_cons_of_unbroken unbroken, heard, ih later, Round.events_tell_of_unbroken unbroken,
      List.length_map, ← List.map_take, ← List.map_drop, List.map_map, List.map_map,
      Observer.hearing_comp, Observer.hearing_comp, List.flatMap_cons, List.append_assoc,
      ← List.range_eq_range', List.length_cons]
    rfl

theorem FirstPanic.getLast?_events
    (first : FirstPanic observers log earlier event position cause) :
    (deliver log observers).events.getLast? = some (position, event) := by
  rw [first.deliver_eq, calls, List.range_succ, List.map_append, ← List.append_assoc]
  exact List.getLast?_concat

end

theorem exists_firstPanic (broken : (deliver log observers).broken = some (event, cause)) :
    ∃ earlier position, FirstPanic observers log earlier event position cause := by
  induction log generalizing observers with
  | nil => contradiction
  | cons next rest ih =>
    cases panic : (Round.tell next 0 observers).panic with
    | some other =>
      rw [deliver_cons_of_broken panic] at broken
      obtain ⟨rfl, rfl⟩ := Prod.mk.inj (Option.some.inj broken)
      obtain ⟨position, passed, panics⟩ := Round.exists_panics panic
      exact ⟨[], position, ⟨rest, rfl⟩, by simp, passed, panics⟩
    | none =>
      obtain ⟨quiet, heard⟩ := Round.silent_of_unbroken panic
      rw [deliver_cons_of_unbroken panic, heard] at broken
      obtain ⟨earlier, position, later⟩ := ih broken
      exact ⟨next :: earlier, position, firstPanic_cons.mpr ⟨quiet, later⟩⟩

end ChipEight
