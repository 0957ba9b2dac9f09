import ChipEight.Proofs.Loading
import ChipEight.Proofs.Programs
import ChipEight.Proofs.Transfers

/-! Loading done on the machine itself, one change after the other. Such a loader could stop
halfway, with the state gone and the program not yet there. It never does, because a program whose
length has been checked fits where it is put: loading in place is loading, and it happens as a
whole or not at all. -/
namespace ChipEight

namespace Machine

def copy (address : Nat) (bytes : List UInt8) (machine : Machine) : Step :=
  match machine.state.load address bytes with
  | .error fault => ⟨machine, .failed fault, []⟩
  | .ok state => { machine with state }.idle

/-- Clear the machine, copy the font and the program into it, and take back the beginning. Where
this fails, the changes before it have been made. -/
def install (rom : List UInt8) (machine : Machine) : Step :=
  if State.maxRomSize < rom.length then
    ⟨machine, .failed (.invalidRom rom.length State.maxRomSize), []⟩
  else
    { machine with state := State.zero }.copy Font.start Font.glyphs
      |>.andThen (copy State.programStart.toNat rom)
      |>.andThen fun copied => { copied with begun := false }.log (.romLoaded rom.length)

theorem copy_of_inRange (machine : Machine) {address : Nat} {bytes : List UInt8}
    (fits : Memory.InRange address bytes.length) :
    machine.copy address bytes =
      { machine with
        state := { machine.state with
          memory := machine.state.memory.overlay address bytes } }.idle := by
  rw [copy, State.load_of_inRange fits]

theorem install_eq_load (machine : Machine) (rom : List UInt8) :
    machine.install rom = machine.load rom := by
  unfold install
  split
  · next long => rw [load, if_pos long]
  · next short =>
    have fits : rom.length ≤ State.maxRomSize := Nat.not_lt.mp short
    have font : Memory.InRange Font.start Font.glyphs.length := by decide
    have program : Memory.InRange State.programStart.toNat rom.length :=
      Nat.add_le_add_left fits 0x200
    rw [machine.load_of_length_le fits, copy_of_inRange _ font, idle, Step.andThen_done,
      copy_of_inRange _ program]
    rfl

end Machine

namespace Emulator

/-- What a request to load can be answered with. Only the last answer changes anything. -/
inductive LoadAnswer (rom : List UInt8) : Emulator → Reply → Prop where
  | absent {emulator : Emulator} (absent : ∀ machine, emulator ≠ atHand machine) :
      LoadAnswer rom emulator (emulator.refuse .alreadyRunning)
  | long (machine : Machine) (long : 3584 < rom.length) :
      LoadAnswer rom (atHand machine)
        ((atHand machine).refuse (.invalidRom rom.length 3584))
  | loaded (machine : Machine) (fits : rom.length ≤ 3584) :
      LoadAnswer rom (atHand machine)
        ⟨atHand { machine with
            state := { State.zero with memory := Memory.programmed rom }
            begun := false },
          .done, [.logged (.romLoaded rom.length)], none⟩

theorem loadAnswer_load (emulator : Emulator) (rom : List UInt8) :
    LoadAnswer rom emulator (emulator.load rom) := by
  cases emulator with
  | busy session => exact .absent nofun
  | lost random => exact .absent nofun
  | atHand machine =>
    rw [load, withMachine_atHand]
    by_cases long : 3584 < rom.length
    · have refused : machine.load rom =
          ⟨machine, .failed (.invalidRom rom.length State.maxRomSize), []⟩ := if_pos long
      rw [refused]
      exact .long machine long
    · rw [machine.load_of_length_le (Nat.not_lt.mp long)]
      exact .loaded machine (Nat.not_lt.mp long)

/-- Loading can be done in place. It fails just when the machine is not at hand or the program is
longer than what there is room for, and then nothing has changed. Otherwise the memory is laid out
anew around the program, everything else that a program can see is zero, and the next step or
session begins at the start of the program. -/
theorem loading_is_all_or_nothing (emulator : Emulator) (rom : List UInt8) :
    let reply := emulator.load rom
    reply = emulator.withMachine (Machine.install rom) ∧
    (∀ fault, reply.outcome = .failed fault ↔
      (∀ machine, emulator ≠ atHand machine) ∧ fault = .alreadyRunning ∨
      (∃ machine, emulator = atHand machine) ∧ 3584 < rom.length ∧
        fault = .invalidRom rom.length 3584) ∧
    (∀ fault, reply.outcome = .failed fault →
      (∀ address length, fault ≠ .outOfBounds address length) ∧
      reply.emulator = emulator ∧ reply.trace = []) ∧
    (∀ cause, reply.outcome ≠ .panicked cause) ∧
    (reply.outcome = .done → ∃ (machine : Machine) (memory : Memory),
      emulator = atHand machine ∧ memory.toList = Memory.layout rom ∧
      reply.emulator = atHand { machine with
        state := {
          memory
          v := Vector.replicate 16 0
          i := 0
          pc := 0
          stack := ⟨Vector.replicate 16 0, 0⟩
          delayTimer := 0
          soundTimer := 0
          frame := Vector.replicate 32 (Vector.replicate 64 0)
          keys := Vector.replicate 16 false
          drawFlag := false }
        begun := false } ∧
      ∀ requests later, reply.emulator.after requests = atHand later →
        hasBegun (reply.emulator.history requests) = false →
        later.step =
          { later with state := { later.state with pc := 0x200 }, begun := true : Machine }.cycle ∧
        (Session.start later).machine.state = { later.state with pc := 0x200 }) := by
  intro reply
  have inPlace : reply = emulator.withMachine (Machine.install rom) := by
    have same : Machine.install rom = fun machine => machine.load rom :=
      funext fun machine => machine.install_eq_load rom
    rw [same]
    rfl
  refine ⟨inPlace, ?_⟩
  have answer : LoadAnswer rom emulator reply := loadAnswer_load emulator rom
  clear_value reply
  cases answer with
  | absent absent =>
    refine ⟨?_, ?_, nofun, nofun⟩
    · intro fault
      constructor
      · rintro ⟨⟩
        exact .inl ⟨absent, rfl⟩
      · rintro (⟨-, rfl⟩ | ⟨⟨machine, same⟩, -⟩)
        · rfl
        · exact absurd same (absent machine)
    · rintro fault ⟨⟩
      exact ⟨nofun, rfl, rfl⟩
  | long machine long =>
    refine ⟨?_, ?_, nofun, nofun⟩
    · intro fault
      constructor
      · rintro ⟨⟩
        exact .inr ⟨⟨machine, rfl⟩, long, rfl⟩
      · rintro (⟨absent, -⟩ | ⟨-, -, rfl⟩)
        · exact absurd rfl (absent machine)
        · rfl
    · rintro fault ⟨⟩
      exact ⟨nofun, rfl, rfl⟩
  | loaded machine fits =>
    refine ⟨?_, nofun, nofun, ?_⟩
    · intro fault
      refine ⟨nofun, ?_⟩
      rintro (⟨absent, -⟩ | ⟨-, long, -⟩)
      · exact absurd rfl (absent machine)
      · exact absurd fits (Nat.not_le.mpr long)
    · intro _
      refine ⟨machine, Memory.programmed rom, rfl, Memory.toList_programmed fits, rfl, ?_⟩
      intro requests later present idle
      have begun := (begun_of_fresh rfl present).trans idle
      have start := Machine.state_of_unheard_eq (Session.unheard_start later)
      rw [Machine.begin_of_not_begun begun] at start
      refine ⟨?_, start⟩
      rw [Machine.step, Machine.begin_of_not_begun begun]
      rfl

theorem loading_after_a_step :
    let loader := Machine.create Config.default (.constant Keys.released) (.ofArray #[])
    let emulator := atHand (loader.load [0x12, 0x00]).machine.step.machine
    let long := List.replicate 3585 0
    ((emulator.load long).outcome = .failed (.invalidRom 3585 3584) ∧
      (emulator.load long).emulator = emulator) ∧
    ∃ machine, (emulator.load [0x60, 0x05]).emulator = atHand machine ∧
      machine.state.memory[0x201]? = some 0x05 ∧ machine.state.i = 0 ∧
      machine.step = { machine with
        state := { machine.state with pc := 0x200 }, begun := true : Machine }.cycle := by
  intro loader emulator long
  have length : long.length = 3585 := List.length_replicate
  obtain ⟨-, fails, unchanged, -⟩ := loading_is_all_or_nothing emulator long
  obtain ⟨-, -, -, -, loads⟩ := loading_is_all_or_nothing emulator [0x60, 0x05]
  refine ⟨?_, ?_⟩
  · have failed : (emulator.load long).outcome = .failed (.invalidRom 3585 3584) := by
      apply (fails _).mpr
      rw [length]
      exact .inr ⟨⟨_, rfl⟩, by decide, rfl⟩
    exact ⟨failed, (unchanged _ failed).2.1⟩
  · obtain ⟨machine, memory, -, bytes, loaded, begins⟩ := loads rfl
    refine ⟨_, loaded, ?_, rfl, ?_⟩
    · have read : memory.toList[0x201]? = some 0x05 := by
        rw [bytes]
        decide +kernel
      rwa [Vector.getElem?_toList] at read
    · rw [loaded] at begins
      exact (begins [] _ rfl rfl).1

end Emulator
end ChipEight
