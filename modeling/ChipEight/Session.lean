import ChipEight.Machine

namespace ChipEight

inductive Ending where
  | faulted (fault : Fault)
  | panicked (cause : String)
deriving DecidableEq

def Ending.outcome : Ending → Outcome
  | faulted fault => .failed fault
  | panicked cause => .panicked cause

structure Session where
  machine : Machine
  /-- Absent while the thread is still cycling. -/
  ending : Option Ending
  trace : Trace

namespace Machine

/-- After a fault: report it, tell everybody of it, and stop. A panic on the way is what
the session ends with instead. -/
def halt (fault : Fault) (machine : Machine) : Session :=
  let stopped := machine.log (.halting fault)
    |>.andThen (announce (.fault fault))
    |>.andThen (fun machine => machine.announce (.stop machine.state))
  let ending := match stopped.outcome with
    | .panicked cause => .panicked cause
    | .done | .failed _ => .faulted fault
  ⟨stopped.machine, some ending, stopped.trace⟩

def run : Nat → Machine → Session
  | 0, machine => ⟨machine, none, []⟩
  | count + 1, machine =>
    let cycled := machine.cycle
    let rest := match cycled.outcome with
      | .done => cycled.machine.run count
      | .failed fault => cycled.machine.halt fault
      | .panicked cause => ⟨cycled.machine, some (.panicked cause), []⟩
    { rest with trace := cycled.trace ++ rest.trace }

end Machine

namespace Session

def start (machine : Machine) : Session :=
  let begun := machine.begin
  let started := begun.announce (.start begun.state)
  let ending := match started.outcome with
    | .panicked cause => some (.panicked cause)
    | .done | .failed _ => none
  ⟨started.machine, ending, started.trace⟩

def work (session : Session) (count : Nat) : Session :=
  match session.ending with
  | some _ => session
  | none =>
    let worked := session.machine.run count
    { worked with trace := session.trace ++ worked.trace }

def finish (session : Session) : Step :=
  match session.ending with
  | some ending => ⟨session.machine, ending.outcome, session.trace⟩
  | none =>
    let stopped := session.machine.announce (.stop session.machine.state)
    { stopped with trace := session.trace ++ stopped.trace }

end Session
end ChipEight
