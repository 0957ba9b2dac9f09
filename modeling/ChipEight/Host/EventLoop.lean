import ChipEight.Host.Launch

/-! The loop that keeps a window up to date while a worker cycles the machine. A turn deals with
what the user has done, asks whether the machine has halted, and draws the newest of the frames
that came in. How far the worker gets meanwhile is up to the system, so a turn is told. -/
namespace ChipEight.Host
open Display

inductive WindowEvent where
  | quit
  | key (event : KeyEvent)
  /-- Anything that is no business of the loop. -/
  | other
deriving DecidableEq

def escape : Keycode := "Escape"

def WindowEvent.closes : WindowEvent → Bool
  | quit => true
  | key event => event.pressed && event.keycode == escape
  | other => false

namespace Console

def work (console : Console) (cycles : Nat) : Console :=
  { console with emulator := console.emulator.work cycles }

def notice (console : Console) : WindowEvent → Console
  | .key event => console.handle event
  | .quit | .other => console

/-- Each event comes with the cycles that the worker does until the next one is looked at. The
result says whether the window is still wanted; if not, the rest has not been looked at. -/
def poll (console : Console) : List (WindowEvent × Nat) → Console × Bool
  | [] => (console, true)
  | (event, cycles) :: rest =>
    if event.closes then (console.work cycles, false)
    else ((console.notice event).work cycles).poll rest

def sent (console : Console) : List Frame :=
  match console.emulator with
  | .busy session => (Channel.after {} (session.trace.stream windowPosition)).frames
  | .atHand _ | .lost _ => []

/-- Stop the worker. What has halted it is what the program ends with. -/
def close (console : Console) : Exit :=
  match console.emulator.stop.outcome with
  | .done | .failed .alreadyStopped => .finished
  | .failed cause => .failed (.fault cause)
  | .panicked cause => .panicked cause

end Console

structure Turn where
  events : List (WindowEvent × Nat)
  /-- Cycles until the machine is asked whether it has halted. -/
  early : Nat
  /-- Cycles from then on until all frames have been taken out of the channel. -/
  late : Nat
  /-- What the library has against a drawing. -/
  refusal : Option String

structure Watch where
  console : Console
  window : Window
  /-- How many frames have been taken out of the channel. -/
  taken : Nat
  drawn : List Frame

namespace Watch

/-- A texture without gaps has room for all rows, so a drawing can only fail over the library or
over a pixel that is too bright. -/
def draw (watch : Watch) (refusal : Option String) : Except Exit Watch :=
  let sent := watch.console.sent
  match sent.drop watch.taken with
  | [] => .ok watch
  | first :: later =>
    let newest := later.getLast?.getD first
    match refusal, watch.window.render? newest with
    | some reason, _ => .error (.failed (.display ⟨reason⟩))
    | none, none => .error (.panicked productPanic)
    | none, some _ =>
      .ok { watch with taken := sent.length, drawn := watch.drawn ++ [newest] }

def turn (watch : Watch) (turn : Turn) : Except Exit Watch :=
  let (polled, wanted) := watch.console.poll turn.events
  let console := polled.work turn.early
  if !wanted then .error polled.close
  else if console.emulator.isHalted then .error console.close
  else { watch with console := console.work turn.late }.draw turn.refusal

end Watch

/-- The whole program, as far as these turns of its loop, or how it has ended. -/
def runProgram (parse : ArgumentParser) (around : Surroundings) (turns : List Turn)
    (arguments : List String) : Except Exit Watch := do
  let (console, window) ← comeUp parse around arguments
  let started := console.emulator.start around.noThread
  match started.outcome with
  | .done =>
    turns.foldlM Watch.turn ⟨{ console with emulator := started.emulator }, window, 0, []⟩
  | .failed cause => .error (.failed (.fault cause))
  | .panicked cause => .error (.panicked cause)

end ChipEight.Host
