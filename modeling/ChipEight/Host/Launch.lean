import ChipEight.Display.Window
import ChipEight.Host.CommandLine
import ChipEight.Host.Console

namespace ChipEight.Host
open Display

abbrev FileReader := String → Except SystemError (List UInt8)

abbrev ArgumentParser := List String → Except Refusal Arguments

/-- What the program finds around it. -/
structure Surroundings where
  read : FileReader
  random : RandomSource
  library : Library
  /-- Why there is no thread to be had, if there is none. -/
  noThread : Option SystemError

structure LaunchOptions where
  path : String
  config : Config
  scale : UInt32

def Arguments.launchOptions (arguments : Arguments) : LaunchOptions where
  path := arguments.rom
  config := ⟨arguments.fps, if arguments.strict then .reject else .ignore⟩
  scale := arguments.scale

inductive LaunchError where
  | unreadable (path : String) (cause : SystemError)
  | fault (cause : Fault)
  /-- The library has turned down what is no matter of the display. -/
  | library (reason : String)
  | display (cause : DisplayError)
deriving DecidableEq

namespace LaunchError

def chain : LaunchError → List String
  | unreadable path cause => [s!"unable to read ROM {path}", cause.message]
  | fault cause => [cause.message]
  | library reason => [reason]
  | display cause => [cause.message]

def reportChain : List String → String
  | [] => ""
  | [text] => s!"Error: {text}\n"
  | text :: causes =>
    s!"Error: {text}\n\nCaused by:\n" ++ String.join (causes.map fun cause => s!"    {cause}\n")

def report (error : LaunchError) : String := reportChain error.chain

end LaunchError

inductive Exit where
  | refused (refusal : Refusal)
  | failed (error : LaunchError)
  | panicked (cause : String)
  | finished
deriving DecidableEq

def Exit.code : Exit → UInt32
  | refused refusal => refusal.exitCode
  | failed _ => 1
  | panicked _ => 101
  | finished => 0

def Console.prepare (around : Surroundings) (options : LaunchOptions) : Except Exit Console :=
  match around.read options.path with
  | .error cause => .error (.failed (.unreadable options.path cause))
  | .ok rom =>
    let console := Console.create options.config around.random
    let loaded := console.emulator.load rom
    match loaded.outcome with
    | .done => .ok { console with emulator := loaded.emulator }
    | .failed cause => .error (.failed (.fault cause))
    | .panicked cause => .error (.panicked cause)

def windowTitle : String := "Emu-8"

def productPanic : String := "attempt to multiply with overflow"

/-- The size is worked out once there is video. -/
def openWindow (library : Library) (scale : UInt32) : Except Exit Window := do
  let refuse (reason : String) : Exit := .failed (.display ⟨reason⟩)
  library.video.mapError refuse
  match Window.ofScale? scale with
  | none => .error (.panicked productPanic)
  | some window =>
    (library.build windowTitle window).mapError refuse
    (library.canvas window).mapError refuse
    return window

def launch (around : Surroundings) (options : LaunchOptions) : Except Exit (Console × Window) := do
  let refuse (reason : String) : Exit := .failed (.library reason)
  let console ← Console.prepare around options
  around.library.start.mapError refuse
  let window ← openWindow around.library options.scale
  around.library.events.mapError refuse
  return (console, window)

/-- The program on its command line, up to where it watches its window. -/
def comeUp (parse : ArgumentParser) (around : Surroundings) (arguments : List String) :
    Except Exit (Console × Window) := do
  let parsed ← (parse arguments).mapError .refused
  launch around parsed.launchOptions

end ChipEight.Host
