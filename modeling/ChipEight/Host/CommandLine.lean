import ChipEight.Machine

/-! The command line: one path, two options that take a number, and a switch.

An argument that stands alone is settled only when the next one is looked at: an option
may still be waiting for its value, and the path is accepted late as well. A mistake in a
pending argument is therefore passed over in silence when the next argument is one that
is not known at all. -/
namespace ChipEight.Host

structure Arguments where
  rom : String
  fps : UInt32
  scale : UInt32
  strict : Bool
deriving DecidableEq, Repr

inductive Refusal where
  | missingPath
  | unknownArgument
  | repeated
  | notANumber
  | emptyValue
  | unwantedValue
  | help
  | version
deriving DecidableEq, Repr

def Refusal.exitCode : Refusal → UInt32
  | help | version => 0
  | missingPath | unknownArgument | repeated | notANumber | emptyValue | unwantedValue => 2

namespace CommandLine

/-- An optional sign and decimal digits, in the range of 32 bits. -/
def number? (text : String) : Option UInt32 :=
  let (negative, digits) :=
    match text.toList with
    | '-' :: digits => (true, digits)
    | '+' :: digits => (false, digits)
    | digits => (false, digits)
  if digits.isEmpty || !digits.all Char.isDigit then none
  else
    let value := digits.foldl (fun value digit => 10 * value + (digit.toNat - 48)) 0
    if value < 4294967296 ∧ (negative → value = 0) then some (UInt32.ofNat value) else none

inductive NumberOption where
  | fps
  | scale
deriving DecidableEq, Repr

inductive Pending where
  /-- An option with the value found so far. -/
  | number (option : NumberOption) (value : Option String)
  | path (text : String)
deriving DecidableEq, Repr

structure Progress where
  path : Option String := none
  fps : Option UInt32 := none
  scale : Option UInt32 := none
  strict : Bool := false
  pending : Option Pending := none
  /-- Whether a path has been seen, accepted or not. -/
  hasPath : Bool := false
  /-- Whether everything that follows is a path. -/
  trailing : Bool := false

namespace Progress

def accept (progress : Progress) (option : NumberOption) (value : UInt32) : Progress :=
  match option with
  | .fps => { progress with fps := some value }
  | .scale => { progress with scale := some value }

def isGiven (progress : Progress) : NumberOption → Bool
  | .fps => progress.fps.isSome
  | .scale => progress.scale.isSome

def settle (progress : Progress) : Except Refusal Progress :=
  let settled := { progress with pending := none }
  match progress.pending with
  | none => .ok settled
  | some (.path text) =>
    if text.isEmpty then .error .emptyValue else .ok { settled with path := some text }
  | some (.number _ none) => .error .emptyValue
  | some (.number option (some value)) =>
    if progress.isGiven option then .error .repeated
    else
      match number? value with
      | some value => .ok (settled.accept option value)
      | none => .error .notANumber

/-- An option with its value in the same argument is settled at once. -/
def giveNumber (progress : Progress) (option : NumberOption) (value : Option String) :
    Except Refusal Progress := do
  let progress ← progress.settle
  let waiting := { progress with pending := some (.number option value) }
  if value.isSome then waiting.settle else .ok waiting

def giveStrict (progress : Progress) : Except Refusal Progress := do
  let progress ← progress.settle
  if progress.strict then .error .repeated else .ok { progress with strict := true }

def ask (progress : Progress) (question : Refusal) : Except Refusal Progress := do
  let _ ← progress.settle
  .error question

def givePath (progress : Progress) (text : String) : Except Refusal Progress :=
  if progress.hasPath then .error .unknownArgument
  else do
    let progress ← progress.settle
    .ok { progress with pending := some (.path text), hasPath := true }

def giveText (progress : Progress) (text : String) : Except Refusal Progress :=
  match progress.pending with
  | some (.number option none) =>
    if progress.trailing then progress.givePath text
    else .ok { progress with pending := some (.number option (some text)) }
  | _ => progress.givePath text

def giveLong (progress : Progress) (name : String) (value : Option String) :
    Except Refusal Progress :=
  match name with
  | "fps" => progress.giveNumber .fps value
  | "scale" => progress.giveNumber .scale value
  | "strict" => if value.isSome then .error .unwantedValue else progress.giveStrict
  | "help" => if value.isSome then .error .unwantedValue else progress.ask .help
  | "version" => if value.isSome then .error .unwantedValue else progress.ask .version
  | _ => .error .unknownArgument

/-- What follows the letter of an option is its value, with or without an equals sign. -/
def attached : List Char → Option String
  | [] => none
  | '=' :: value => some (String.ofList value)
  | value => some (String.ofList value)

/-- An option by its letter. None of them lets further letters follow. -/
def giveShort (progress : Progress) : List Char → Except Refusal Progress
  | [] => .ok progress
  | 'f' :: rest => progress.giveNumber .fps (attached rest)
  | 's' :: rest => progress.giveNumber .scale (attached rest)
  | 'h' :: _ => progress.ask .help
  | 'V' :: _ => progress.ask .version
  | _ :: _ => .error .unknownArgument

def give (progress : Progress) (argument : String) : Except Refusal Progress :=
  if progress.trailing then progress.giveText argument
  else
    match argument.toList with
    | ['-', '-'] => .ok { progress with trailing := true }
    | '-' :: '-' :: body =>
      let name := String.ofList (body.takeWhile (· != '='))
      match body.dropWhile (· != '=') with
      | [] => progress.giveLong name none
      | _ :: value => progress.giveLong name (some (String.ofList value))
    | '-' :: letter :: rest => progress.giveShort (letter :: rest)
    | _ => progress.giveText argument

end Progress

def defaultScale : UInt32 := 10

def parse (arguments : List String) : Except Refusal Arguments := do
  let read ← arguments.foldlM Progress.give {}
  let read ← read.settle
  match read.path with
  | none => .error .missingPath
  | some rom =>
    .ok {
      rom
      fps := read.fps.getD Config.defaultFrameRate
      scale := read.scale.getD defaultScale
      strict := read.strict }

end CommandLine
end ChipEight.Host
