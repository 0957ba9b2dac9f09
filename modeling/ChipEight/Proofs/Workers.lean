import ChipEight.Proofs.Faults

namespace ChipEight

namespace Machine

theorem isSome_ending_run (machine : Machine) (count : Nat) :
    (machine.run count).ending.isSome = true ↔
      ∃ tried ∈ machine.tries count, tried.cycle.outcome ≠ .done := by
  induction count generalizing machine with
  | zero => simp [run, tries]
  | succ count ih =>
    rw [run, tries]
    cases outcome : machine.cycle.outcome with
    | done => simp [outcome, ih]
    | failed fault => simp [outcome, halt]
    | panicked cause => simp [outcome]

theorem exists_failed_of_run {machine : Machine} {count : Nat} {fault : Fault}
    (faulted : (machine.run count).ending = some (.faulted fault)) :
    ∃ tried ∈ machine.tries count, tried.cycle.outcome = .failed fault := by
  induction count generalizing machine with
  | zero => contradiction
  | succ count ih =>
    rw [run] at faulted
    rw [tries]
    cases outcome : machine.cycle.outcome with
    | done =>
      simp only [outcome] at faulted
      obtain ⟨tried, member, failed⟩ := ih faulted
      exact ⟨tried, List.mem_cons_of_mem _ member, failed⟩
    | failed other =>
      simp only [outcome] at faulted
      rw [fault_of_halt faulted] at outcome
      exact ⟨machine, List.mem_cons_self, outcome⟩
    | panicked cause =>
      simp only [outcome] at faulted
      cases faulted

end Machine

namespace Session

private theorem isSome_ending_work (session : Session) (count : Nat) :
    (session.work count).ending.isSome = true ↔
      session.ending.isSome = true ∨
        ∃ tried ∈ session.tries count, tried.cycle.outcome ≠ .done := by
  cases ending : session.ending with
  | some ended => simp [work, tries, ending]
  | none =>
    simp only [work, tries, ending]
    simpa using session.machine.isSome_ending_run count

private theorem exists_failed_of_work {session : Session} {count : Nat} {fault : Fault}
    (faulted : (session.work count).ending = some (.faulted fault)) :
    session.ending = some (.faulted fault) ∨
      ∃ tried ∈ session.tries count, tried.cycle.outcome = .failed fault := by
  cases ending : session.ending with
  | some ended =>
    simp only [work, ending] at faulted
    exact .inl faulted
  | none =>
    simp only [work, tries, ending] at faulted ⊢
    exact .inr (Machine.exists_failed_of_run faulted)

theorem isSome_ending_start (machine : Machine) :
    (start machine).ending.isSome = true ↔
      ∃ cause, (machine.begin.announce (.start machine.begin.state)).outcome = .panicked cause := by
  unfold start
  dsimp only
  cases (machine.begin.announce (.start machine.begin.state)).outcome <;> simp

private theorem ending_start_ne_faulted (machine : Machine) (fault : Fault) :
    (start machine).ending ≠ some (.faulted fault) := by
  unfold start
  dsimp only
  split <;> nofun

end Session

/-- The session goes on through the requests, none of which stops it. It has ended by itself exactly
if it had before or one of the cycles since did not succeed. -/
structure Session.Passes (session : Session) (requests : List Request) (later : Session) :
    Prop where
  stands : (Emulator.busy session).after requests = .busy later
  halted : later.ending.isSome = true ↔ session.ending.isSome = true ∨
    ∃ tried, .tried tried ∈ (Emulator.busy session).history requests ∧ tried.cycle.outcome ≠ .done
  fault : ∀ fault, later.ending = some (.faulted fault) → session.ending = some (.faulted fault) ∨
    ∃ tried, .tried tried ∈ (Emulator.busy session).history requests ∧
      tried.cycle.outcome = .failed fault

namespace Emulator

private theorem exists_passes (session : Session) {requests : List Request}
    (going : .stop ∉ requests) :
    ∃ later, session.Passes requests later := by
  induction requests generalizing session with
  | nil => exact ⟨session, rfl, by simp [history], fun fault faulted => .inl faulted⟩
  | cons request rest ih =>
    obtain ⟨first, restGoing⟩ := not_or.mp (mt List.mem_cons.mpr going)
    cases request with
    | stop => exact absurd rfl first
    | work count =>
      obtain ⟨later, stands, halted, fault⟩ := ih (session.work count) restGoing
      have member : ∀ tried : Machine, .tried tried ∈ (busy session).history (.work count :: rest) ↔
          tried ∈ session.tries count ∨
            .tried tried ∈ (busy (session.work count)).history rest := by
        intro tried
        simp only [history, deeds, List.mem_append, List.mem_map, Deed.tried.injEq,
          exists_eq_right]
        rfl
      refine ⟨later, stands, ?_, ?_⟩
      · rw [halted, Session.isSome_ending_work, or_assoc]
        simp only [member, or_and_right, exists_or]
      · intro cause faulted
        obtain worked | ⟨tried, earlier, failed⟩ := fault cause faulted
        · obtain worked | ⟨tried, own, failed⟩ := Session.exists_failed_of_work worked
          · exact .inl worked
          · exact .inr ⟨tried, (member tried).mpr (.inl own), failed⟩
        · exact .inr ⟨tried, (member tried).mpr (.inr earlier), failed⟩
    | subscribe | load | step | start =>
      obtain ⟨later, stands, halted, fault⟩ := ih session restGoing
      exact ⟨later, stands, halted, fault⟩

theorem busy_cases {emulator : Emulator} {request : Request} {session : Session}
    (answered : (emulator.answer request).emulator = busy session) :
    (∃ machine, emulator = atHand machine ∧ request = .start none) ∨
      ∃ earlier, emulator = busy earlier ∧ request ≠ .stop := by
  cases emulator with
  | atHand machine =>
    cases request with
    | start refusal =>
      cases refusal with
      | none => exact .inl ⟨machine, rfl, rfl⟩
      | some cause => contradiction
    | subscribe | load | step | work | stop => contradiction
  | busy earlier =>
    refine .inr ⟨earlier, rfl, ?_⟩
    rintro rfl
    simp only [answer, stop] at answered
    split at answered <;> contradiction
  | lost random => cases request <;> contradiction

theorem exists_start {emulator : Emulator} {requests : List Request} {session : Session}
    (stands : emulator.after requests = busy session) :
    (∃ earlier, emulator = busy earlier ∧ .stop ∉ requests) ∨
      ∃ before since machine, requests = before ++ .start none :: since ∧ .stop ∉ since ∧
        emulator.after before = atHand machine := by
  induction requests generalizing emulator with
  | nil => exact .inl ⟨session, stands, List.not_mem_nil⟩
  | cons request rest ih =>
    obtain ⟨middle, answered, going⟩ | ⟨before, since, machine, rfl, going, handed⟩ := ih stands
    · obtain ⟨machine, rfl, rfl⟩ | ⟨earlier, rfl, other⟩ := busy_cases answered
      · exact .inr ⟨[], rest, machine, rfl, going, rfl⟩
      · refine .inl ⟨earlier, rfl, ?_⟩
        exact fun member => (List.mem_cons.mp member).elim (fun same => other same.symm) going
    · exact .inr ⟨request :: before, since, machine, rfl, going, handed⟩

structure Works (emulator : Emulator) (requests : List Request) (session : Session)
    (before since : List Request) (machine : Machine) : Prop where
  split : requests = before ++ .start none :: since
  going : .stop ∉ since
  handed : emulator.after before = atHand machine
  passes : (Session.start machine).Passes since session

theorem exists_works {config : Config} {keypad : Keypad} {random : RandomSource}
    {requests : List Request} {session : Session}
    (stands : (create config keypad random).after requests = busy session) :
    ∃ before since machine,
      (create config keypad random).Works requests session before since machine := by
  obtain ⟨earlier, same, -⟩ | ⟨before, since, machine, split, going, handed⟩ := exists_start stands
  · contradiction
  · obtain ⟨later, passes⟩ := exists_passes (Session.start machine) going
    rw [split, after_append, handed] at stands
    obtain rfl : later = session := busy.inj (passes.stands.symm.trans stands)
    exact ⟨before, since, machine, split, going, handed, passes⟩

theorem Works.exists_failed {emulator : Emulator} {requests before since : List Request}
    {session : Session} {machine : Machine} {fault : Fault}
    (works : emulator.Works requests session before since machine)
    (faulted : session.ending = some (.faulted fault)) :
    ∃ tried, .tried tried ∈ (busy (Session.start machine)).history since ∧
      tried.cycle.outcome = .failed fault :=
  (works.passes.fault fault faulted).resolve_left
    (Session.ending_start_ne_faulted machine fault)

end Emulator
end ChipEight
