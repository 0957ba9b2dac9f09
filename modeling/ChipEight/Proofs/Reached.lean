import ChipEight.Proofs.History

namespace ChipEight

/-- The machine can stand at the end of the history. A cycle adds the machine that it was tried
on; rounds change what observers have heard and add nothing. -/
inductive Machine.Reached : List Deed → Machine → Prop where
  | created (config : Config) (keypad : Keypad) (random : RandomSource) :
      Reached [] (create config keypad random)
  | subscribed {history : List Deed} {machine : Machine} (reached : Reached history machine)
      (observer : Observer) :
      Reached (history ++ [.subscribed observer])
        { machine with observers := machine.observers ++ [observer] }
  | loaded {history : List Deed} {machine : Machine} (reached : Reached history machine)
      {rom : List UInt8} {state : State} (loaded : State.loaded rom = .ok state) :
      Reached (history ++ [.loaded rom]) { machine with state, begun := false }
  | begun {history : List Deed} {machine : Machine} (reached : Reached history machine) :
      Reached (history ++ [.begun]) machine.begin
  | tried {history : List Deed} {machine : Machine} (reached : Reached history machine)
      (begun : machine.begun) : Reached (history ++ [.tried machine]) machine.cycle.machine
  | heard {history : List Deed} {machine other : Machine} (reached : Reached history machine)
      (same : other.unheard = machine.unheard) : Reached history other

theorem Machine.carried_reached : Machine.Carried Machine.Reached where
  subscribed observer reached := reached.subscribed observer
  loaded loaded reached := reached.loaded loaded
  begun reached := reached.begun
  tried begun reached := reached.tried begun
  heard same reached := reached.heard same

theorem Machine.Reached.run {history : List Deed} {machine : Machine}
    (reached : machine.Reached history) (begun : machine.begun) (count : Nat) :
    (machine.run count).machine.Reached (history ++ (machine.tries count).map .tried) ∧
      (machine.run count).machine.begun :=
  carried_reached.run reached begun count

theorem Machine.Reached.holds {holds : List Deed → Machine → Prop} (carried : Carried holds)
    (created : ∀ config keypad random, holds [] (create config keypad random))
    {history : List Deed} {machine : Machine} (reached : machine.Reached history) :
    holds history machine := by
  induction reached with
  | created config keypad random => exact created config keypad random
  | subscribed _ observer ih => exact carried.subscribed observer ih
  | loaded _ loaded ih => exact carried.loaded loaded ih
  | begun _ ih => exact carried.begun ih
  | tried _ begun ih => exact carried.tried begun ih
  | heard _ same ih => exact carried.heard same ih

theorem Machine.Reached.of_tried {before rest : List Deed} {machine other : Machine}
    (reached : other.Reached (before ++ .tried machine :: rest)) :
    machine.Reached before ∧ machine.begun := by
  have along := reached.holds carried_reached.along fun config keypad random =>
    ⟨.created config keypad random, by simp⟩
  exact along.2 before machine rest rfl

namespace Emulator

def Follows (history : List Deed) : Emulator → Prop
  | atHand machine => machine.Reached history
  | busy session => session.machine.Reached history ∧ session.machine.begun
  | lost _ => ∃ machine : Machine, machine.Reached history

theorem follows_iff {history : List Deed} {emulator : Emulator} :
    emulator.Follows history ↔ emulator.Holds Machine.Reached history := by
  cases emulator <;> exact Iff.rfl

theorem Follows.exists_reached {history : List Deed} {emulator : Emulator}
    (follows : emulator.Follows history) : ∃ machine : Machine, machine.Reached history :=
  (follows_iff.mp follows).exists_machine

theorem Follows.reached {history : List Deed} {emulator : Emulator}
    (follows : emulator.Follows history) {machine : Machine}
    (present : emulator.machine? = some machine) : machine.Reached history :=
  (follows_iff.mp follows).of_present present

theorem Follows.answer {history : List Deed} {emulator : Emulator}
    (follows : emulator.Follows history) (request : Request) :
    (emulator.answer request).emulator.Follows (history ++ emulator.deeds request) :=
  follows_iff.mpr ((follows_iff.mp follows).answer Machine.carried_reached request)

theorem Follows.after {past : List Deed} {emulator : Emulator}
    (follows : emulator.Follows past) (requests : List Request) :
    (emulator.after requests).Follows (past ++ emulator.history requests) :=
  follows_iff.mpr ((follows_iff.mp follows).after Machine.carried_reached requests)

theorem follows_create (config : Config) (keypad : Keypad) (random : RandomSource)
    (requests : List Request) :
    ((create config keypad random).after requests).Follows
      ((create config keypad random).history requests) := by
  have fresh : (create config keypad random).Follows [] := Machine.Reached.created ..
  exact fresh.after requests

end Emulator

theorem append_eq_concat {α : Type} {past items history : List α} {last : α}
    (same : past ++ items = history ++ [last]) :
    past = history ++ [last] ∧ items = [] ∨
      ∃ earlier, items = earlier ++ [last] ∧ past ++ earlier = history := by
  obtain rfl | ⟨earlier, final, rfl⟩ := List.eq_nil_or_concat items
  · exact .inl ⟨(List.append_nil past).symm.trans same, rfl⟩
  · rw [List.concat_eq_append, ← List.append_assoc] at same
    obtain ⟨front, rfl⟩ := List.append_singleton_inj.mp same
    exact .inr ⟨earlier, List.concat_eq_append, front⟩

/-- What holds at the end of the past, and what every deed but loading a program preserves, holds
until the next program is loaded. -/
theorem Machine.Reached.since {past deeds : List Deed} {machine : Machine}
    {motive : List Deed → Machine → Prop}
    (here : ∀ machine : Machine, machine.Reached past → motive [] machine)
    (subscribed : ∀ deeds machine observer, motive deeds machine →
      motive (deeds ++ [.subscribed observer])
        { machine with observers := machine.observers ++ [observer] })
    (begun : ∀ deeds machine, motive deeds machine → motive (deeds ++ [.begun]) machine.begin)
    (tried : ∀ deeds machine, motive deeds machine →
      motive (deeds ++ [.tried machine]) machine.cycle.machine)
    (heard : ∀ deeds (machine other : Machine), other.unheard = machine.unheard →
      motive deeds machine → motive deeds other)
    (reached : machine.Reached (past ++ deeds)) (kept : ∀ rom, .loaded rom ∉ deeds) :
    motive deeds machine := by
  have earlierKept : ∀ {earlier : List Deed} {deed : Deed},
      (∀ rom, .loaded rom ∉ earlier ++ [deed]) → ∀ rom, .loaded rom ∉ earlier :=
    fun kept rom member => kept rom (List.mem_append_left _ member)
  -- The last deed is either still the last of the past or one of the deeds since.
  generalize same : past ++ deeds = history at reached
  induction reached generalizing deeds with
  | created config keypad random =>
    obtain ⟨rfl, rfl⟩ := List.append_eq_nil_iff.mp same
    exact here _ (.created config keypad random)
  | heard _ alike ih => exact heard _ _ _ alike (ih kept same)
  | subscribed reached observer ih =>
    obtain ⟨rfl, rfl⟩ | ⟨earlier, rfl, front⟩ := append_eq_concat same
    · exact here _ (reached.subscribed observer)
    · exact subscribed _ _ _ (ih (earlierKept kept) front)
  | loaded reached loaded ih =>
    obtain ⟨rfl, rfl⟩ | ⟨earlier, rfl, front⟩ := append_eq_concat same
    · exact here _ (reached.loaded loaded)
    · exact absurd (List.mem_append_right _ List.mem_cons_self) (kept _)
  | begun reached ih =>
    obtain ⟨rfl, rfl⟩ | ⟨earlier, rfl, front⟩ := append_eq_concat same
    · exact here _ reached.begun
    · exact begun _ _ (ih (earlierKept kept) front)
  | tried reached ready ih =>
    obtain ⟨rfl, rfl⟩ | ⟨earlier, rfl, front⟩ := append_eq_concat same
    · exact here _ (reached.tried ready)
    · exact tried _ _ (ih (earlierKept kept) front)

end ChipEight
