import ChipEight.Session

/-! The emulator as its host holds it. Either the machine is at hand, or a worker has it,
or it went down with a worker that panicked. Whoever has the machine is the only one
who can use it, so most requests are refused unless it is at hand. -/
namespace ChipEight

inductive Emulator where
  | atHand (machine : Machine)
  | busy (session : Session)
  /-- Only the account of the random bytes is left. -/
  | lost (random : RandomSource)

structure Reply where
  emulator : Emulator
  outcome : Outcome
  /-- What became visible on the caller's thread. -/
  trace : Trace := []
  /-- What became visible on a worker's thread, if the request ended one. -/
  worker : Option Trace := none

namespace Emulator

def create (config : Config) (keypad : Keypad) (random : RandomSource) : Emulator :=
  atHand (Machine.create config keypad random)

def refuse (emulator : Emulator) (fault : Fault) : Reply := ⟨emulator, .failed fault, [], none⟩

def withMachine (emulator : Emulator) (use : Machine → Step) : Reply :=
  match emulator with
  | atHand machine =>
    let used := use machine
    ⟨atHand used.machine, used.outcome, used.trace, none⟩
  | busy _ | lost _ => emulator.refuse .alreadyRunning

@[simp] theorem withMachine_atHand (machine : Machine) (use : Machine → Step) :
    (atHand machine).withMachine use =
      ⟨atHand (use machine).machine, (use machine).outcome, (use machine).trace, none⟩ := rfl

def subscribe (emulator : Emulator) (observer : Observer) : Reply :=
  emulator.withMachine fun machine =>
    { machine with observers := machine.observers ++ [observer] }.idle

def load (emulator : Emulator) (rom : List UInt8) : Reply :=
  emulator.withMachine fun machine => machine.load rom

def step (emulator : Emulator) : Reply := emulator.withMachine Machine.step

/-- Hand the machine to a new thread. It leaves only once there is a thread, so nothing
happens to it when the system refuses one. -/
def start (emulator : Emulator) (refusal : Option SystemError) : Reply :=
  match emulator with
  | atHand machine =>
    match refusal with
    | some cause => emulator.refuse (.threadRefused cause)
    | none => ⟨busy (Session.start machine), .done, [.logged .started], none⟩
  | busy _ | lost _ => emulator.refuse .alreadyRunning

def work (emulator : Emulator) (count : Nat) : Emulator :=
  match emulator with
  | busy session => busy (session.work count)
  | atHand _ | lost _ => emulator

/-- End the session and take the machine back. A fault that halted it is the outcome; a
panic is passed on, and the machine is not coming back. -/
def stop (emulator : Emulator) : Reply :=
  match emulator with
  | busy session =>
    let finished := session.finish
    match finished.outcome with
    | .panicked cause =>
      ⟨lost finished.machine.random, .panicked cause, [], some finished.trace⟩
    | outcome => ⟨atHand finished.machine, outcome, [.logged .stopped], some finished.trace⟩
  | atHand _ | lost _ => emulator.refuse .alreadyStopped

def isRunning : Emulator → Bool
  | busy _ => true
  | atHand _ | lost _ => false

def isHalted : Emulator → Bool
  | busy session => session.ending.isSome
  | atHand _ | lost _ => false

def state? : Emulator → Option State
  | atHand machine => some machine.state
  | busy _ | lost _ => none

def random : Emulator → RandomSource
  | atHand machine => machine.random
  | busy session => session.machine.random
  | lost random => random

def keypad? : Emulator → Option Keypad
  | atHand machine => some machine.keypad
  | busy session => some session.machine.keypad
  | lost _ => none

def changeKeypad (emulator : Emulator) (change : Keypad → Keypad) : Emulator :=
  match emulator with
  | atHand machine => atHand { machine with keypad := change machine.keypad }
  | busy session =>
    busy { session with
      machine := { session.machine with keypad := change session.machine.keypad } }
  | lost random => lost random

/-- Give the emulator up. A worker is stopped and its end is nobody's business; what it
made visible still was. -/
def discard : Emulator → Trace
  | busy session => session.finish.trace
  | atHand _ | lost _ => []

end Emulator
end ChipEight
