import ChipEight.Proofs.History

/-! The emulator as three fields that are changed one at a time: the machine, the thread that may
have it, and the flag that keeps the thread going. Many of their combinations make no sense, and
which of the requests are refused hangs on one field here and on another there. Along any
requests the fields stay in step with the emulator, so none of those combinations comes up. -/
namespace ChipEight

structure Handle where
  /-- Absent once it has been handed to a thread. -/
  machine : Option Machine
  /-- A thread, with its session unless it was never handed a machine. -/
  worker : Option (Option Session)
  /-- Whether a thread is to go on. -/
  running : Bool

structure Handle.Reply where
  handle : Handle
  outcome : Outcome
  trace : Trace
  worker : Option Trace

namespace Handle

def create (config : Config) (keypad : Keypad) (random : RandomSource) : Handle :=
  ⟨some (Machine.create config keypad random), none, false⟩

def refuse (handle : Handle) (fault : Fault) : Reply := ⟨handle, .failed fault, [], none⟩

def withMachine (handle : Handle) (use : Machine → Step) : Reply :=
  match handle.machine with
  | none => handle.refuse .alreadyRunning
  | some machine =>
    let used := use machine
    ⟨{ handle with machine := some used.machine }, used.outcome, used.trace, none⟩

/-- The flag goes up before there is a thread, and down again if there will be none. A thread waits
for its machine, so handing it over cannot fail. -/
def start (handle : Handle) (refusal : Option SystemError) : Reply :=
  if handle.worker.isSome || handle.machine.isNone then handle.refuse .alreadyRunning
  else
    let raised := { handle with running := true }
    match refusal with
    | some cause => { raised with running := false }.refuse (.threadRefused cause)
    | none =>
      let worker := raised.machine.map Session.start
      ⟨{ raised with machine := none, worker := some worker }, .done, [.logged .started], none⟩

def work (handle : Handle) (count : Nat) : Handle :=
  if handle.running then
    { handle with worker := handle.worker.map fun session => session.map (·.work count) }
  else handle

/-- The thread is given up and the flag lowered whatever the thread ends with. -/
def stop (handle : Handle) : Reply :=
  match handle.worker with
  | none => handle.refuse .alreadyStopped
  | some session =>
    let lowered := { handle with worker := none, running := false }
    match session with
    | none => ⟨lowered, .failed .alreadyStopped, [], some []⟩
    | some session =>
      let finished := session.finish
      match finished.outcome with
      | .panicked cause => ⟨lowered, .panicked cause, [], some finished.trace⟩
      | outcome =>
        ⟨{ lowered with machine := some finished.machine }, outcome, [.logged .stopped],
          some finished.trace⟩

def answer (handle : Handle) : Request → Reply
  | .subscribe observer =>
    handle.withMachine fun machine =>
      { machine with observers := machine.observers ++ [observer] }.idle
  | .load rom => handle.withMachine fun machine => machine.load rom
  | .step => handle.withMachine Machine.step
  | .start refusal => handle.start refusal
  | .work count => ⟨handle.work count, .done, [], none⟩
  | .stop => handle.stop

def after (handle : Handle) (requests : List Request) : Handle :=
  requests.foldl (fun handle request => (handle.answer request).handle) handle

def isRunning (handle : Handle) : Bool := handle.worker.isSome

def isHalted (handle : Handle) : Bool :=
  match handle.worker with
  | none => false
  | some session => session.all fun session => session.ending.isSome

def state? (handle : Handle) : Option State := handle.machine.map Machine.state

end Handle

namespace Emulator

def handle : Emulator → Handle
  | atHand machine => ⟨some machine, none, false⟩
  | busy session => ⟨none, some (some session), true⟩
  | lost _ => ⟨none, none, false⟩

theorem isRunning_handle (emulator : Emulator) :
    emulator.handle.isRunning = emulator.isRunning := by
  cases emulator <;> rfl

theorem isHalted_handle (emulator : Emulator) : emulator.handle.isHalted = emulator.isHalted := by
  cases emulator <;> rfl

theorem state?_handle (emulator : Emulator) : emulator.handle.state? = emulator.state? := by
  cases emulator <;> rfl

end Emulator

def Reply.handled (reply : Reply) : Handle.Reply :=
  ⟨reply.emulator.handle, reply.outcome, reply.trace, reply.worker⟩

namespace Emulator

theorem stop_handle (session : Session) :
    (busy session).handle.stop = (busy session).stop.handled := by
  simp only [handle, Handle.stop, Emulator.stop]
  cases session.finish.outcome <;> rfl

theorem answer_handle (emulator : Emulator) (request : Request) :
    emulator.handle.answer request = (emulator.answer request).handled := by
  cases emulator with
  | atHand machine =>
    cases request with
    | start refusal => cases refusal <;> rfl
    | subscribe | load | step | work | stop => rfl
  | busy session =>
    cases request with
    | stop => exact stop_handle session
    | subscribe | load | step | start | work => rfl
  | lost random => cases request <;> rfl

theorem after_handle (emulator : Emulator) (requests : List Request) :
    emulator.handle.after requests = (emulator.after requests).handle := by
  induction requests generalizing emulator with
  | nil => rfl
  | cons request rest ih =>
    have answered := emulator.answer_handle request
    have first : (emulator.handle.answer request).handle =
        (emulator.answer request).emulator.handle := by
      rw [answered]
      rfl
    exact (congrArg (fun handle : Handle => handle.after rest) first).trans (ih _)

end Emulator
end ChipEight
