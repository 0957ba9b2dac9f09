import ChipEight.Execution
import ChipEight.Observer
import ChipEight.RandomSource

/-! The machine: a state with its inputs and its observers, driven one cycle at a time.
A cycle polls the keys, tries one instruction, commits it, and only then tells anybody.
Nothing of a faulting cycle stays except the keys that it polled. -/
namespace ChipEight

structure Config where
  /-- Cycles a second. It paces a worker and changes nothing that a program can see. -/
  frameRate : UInt32
  machineCode : MachineCodePolicy
deriving DecidableEq

namespace Config

def defaultFrameRate : UInt32 := 60

def default : Config := ⟨defaultFrameRate, .ignore⟩

/-- The time for one cycle, in whole nanoseconds. No cycles a second counts as one. -/
def frameNanoseconds (config : Config) : Nat := 1000000000 / max config.frameRate.toNat 1

end Config

structure Machine where
  state : State
  keypad : Keypad
  random : RandomSource
  observers : List Observer
  config : Config
  /-- Whether the counter has been sent to the program since it was loaded. -/
  begun : Bool

inductive Outcome where
  | done
  | failed (fault : Fault)
  | panicked (cause : String)
deriving DecidableEq

structure Step where
  machine : Machine
  outcome : Outcome
  trace : Trace

namespace Step

def andThen (step : Step) (next : Machine → Step) : Step :=
  match step.outcome with
  | .done =>
    let after := next step.machine
    { after with trace := step.trace ++ after.trace }
  | _ => step

theorem andThen_done (machine : Machine) (trace : Trace) (next : Machine → Step) :
    (Step.mk machine .done trace).andThen next =
      ⟨(next machine).machine, (next machine).outcome, trace ++ (next machine).trace⟩ := rfl

@[simp] theorem andThen_failed (machine : Machine) (fault : Fault) (trace : Trace)
    (next : Machine → Step) :
    (Step.mk machine (.failed fault) trace).andThen next = ⟨machine, .failed fault, trace⟩ := rfl

@[simp] theorem andThen_panicked (machine : Machine) (cause : String) (trace : Trace)
    (next : Machine → Step) :
    (Step.mk machine (.panicked cause) trace).andThen next =
      ⟨machine, .panicked cause, trace⟩ := rfl

end Step

namespace Machine

def create (config : Config) (keypad : Keypad) (random : RandomSource) : Machine where
  state := State.zero
  keypad := keypad
  random := random
  observers := []
  config := config
  begun := false

def idle (machine : Machine) : Step := ⟨machine, .done, []⟩

def log (record : Record) (machine : Machine) : Step := ⟨machine, .done, [.logged record]⟩

def announce (event : Event) (machine : Machine) : Step :=
  let round := Round.tell event 0 machine.observers
  { machine := { machine with observers := round.observers }
    outcome := match round.panic with
      | some cause => .panicked cause
      | none => .done
    trace := round.trace }

/-- The first time after loading, the counter goes to the start of the program. -/
def begin (machine : Machine) : Machine :=
  if machine.begun then machine
  else { machine with state := { machine.state with pc := State.programStart }, begun := true }

@[simp] theorem begin_begin (machine : Machine) : machine.begin.begin = machine.begin := by
  unfold begin
  split <;> simp_all

def poll (machine : Machine) : Machine :=
  { machine with
    state := machine.state.setKeys machine.keypad.current
    keypad := machine.keypad.polled }

def advance (machine : Machine) : Step :=
  let attempt := machine.state.attempt machine.config.machineCode machine.random.current
  let trace := attempt.records.map .logged
  match attempt.result with
  | .error fault => ⟨machine, .failed fault, trace⟩
  | .ok state =>
    let random := if attempt.tookByte then machine.random.advance else machine.random
    ⟨{ machine with state, random }, .done, trace⟩

/-- Show the picture if that is called for; the flag falls once everybody has seen it. -/
def showFrame (machine : Machine) : Step :=
  if machine.state.drawFlag then
    (machine.announce (.frame machine.state)).andThen fun shown =>
      { shown with state := { shown.state with drawFlag := false } }.idle
  else machine.idle

def tick (machine : Machine) : Step :=
  let ticked := { machine with state := machine.state.tick }
  if ticked.state.soundTimer = 0 then ticked.idle else ticked.announce (.sound ticked.state)

def cycle (machine : Machine) : Step :=
  machine.poll.advance
    |>.andThen (fun machine => machine.announce (.update machine.state))
    |>.andThen showFrame
    |>.andThen tick

def step (machine : Machine) : Step := machine.begin.cycle

def load (machine : Machine) (rom : List UInt8) : Step :=
  if State.maxRomSize < rom.length then
    ⟨machine, .failed (.invalidRom rom.length State.maxRomSize), []⟩
  else
    match State.loaded rom with
    | .error fault => ⟨machine, .failed fault, []⟩
    | .ok state => { machine with state, begun := false }.log (.romLoaded rom.length)

end Machine
end ChipEight
