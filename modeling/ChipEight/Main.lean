import ChipEight.Host.Launch

/-! The program. No video driver with OpenGL is linked in, so after everything else has
gone well it still ends with the news that there is no window. -/
namespace ChipEight.Host

def usage : String := "Runs a Chip-8 ROM in an SDL2 window

Usage: chip8 [OPTIONS] <ROM>

Arguments:
  <ROM>  Path to the ROM file to run

Options:
  -f, --fps <FPS>      Cycles per second; each cycle runs one instruction and ticks the timers [default: 60]
  -s, --scale <SCALE>  Size multiplier for each pixel [default: 10]
      --strict         Fail on `0nnn` machine code calls instead of skipping them
  -h, --help           Print help
  -V, --version        Print version
"

def version : String := "chip8 0.1.0\n"

/-- Codes may come with their sign turned. -/
def systemError (error : IO.Error) : SystemError :=
  match error with
  | .noFileOrDirectory _ code reason | .interrupted _ code reason
  | .alreadyExists _ code reason | .invalidArgument _ code reason
  | .permissionDenied _ code reason | .resourceExhausted _ code reason
  | .inappropriateType _ code reason | .noSuchThing _ code reason
  | .otherError code reason | .resourceBusy code reason | .resourceVanished code reason
  | .unsupportedOperation code reason | .hardwareFault code reason
  | .unsatisfiedConstraints code reason | .illegalOperation code reason
  | .protocolError code reason | .timeExpired code reason =>
    .ofCode (if code < 0x80000000 then code.toNat else (0 - code).toNat) reason
  | .unexpectedEof => ⟨"unexpected end of file", none⟩
  | .userError reason => ⟨reason, none⟩

def readFile (path : String) : IO (Except SystemError (List UInt8)) := do
  try
    let content ← IO.FS.readBinFile path
    return .ok content.toList
  catch error => return .error (systemError error)

end ChipEight.Host

open ChipEight ChipEight.Host in
def main (arguments : List String) : IO UInt32 := do
  let read ← match CommandLine.parse arguments with
    | .ok arguments =>
      let content ← readFile arguments.rom
      pure fun (_ : String) => content
    | .error _ => pure fun _ => .error .notFound
  let around : Surroundings := { read, random := .ofArray #[], library := .dummy, noThread := none }
  match comeUp CommandLine.parse around arguments with
  | .ok _ => return Exit.finished.code
  | .error exit =>
    match exit with
    | .refused .help => IO.print usage
    | .refused .version => IO.print version
    | .refused _ => IO.eprint usage
    | .failed error => IO.eprint error.report
    | .panicked cause => IO.eprintln cause
    | .finished => pure ()
    return exit.code
