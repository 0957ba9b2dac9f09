import ChipEight.SystemError
import ChipEight.Text.Hex

namespace ChipEight
open Text

inductive Fault where
  | invalidRom (size limit : Nat)
  | outOfBounds (address length : Nat)
  | stackOverflow (pc : UInt16)
  | stackUnderflow (pc : UInt16)
  | unknownOpcode (opcode : UInt16) (segment : UInt8) (pc : UInt16)
  | unsupported (opcode pc : UInt16)
  | programCounterOverflow (pc : UInt16)
  | programCounterUnderflow (pc : UInt16)
  | invalidKey (key : UInt8)
  | alreadyRunning
  | alreadyStopped
  | threadRefused (cause : SystemError)
  /-- A return through a pointer past the last slot of the stack. Calls never leave
  the pointer there; only a state made by hand can. -/
  | stackPointerAstray (pointer : UInt8)
  /-- A jump whose target does not fit the program counter. No opcode can ask for it:
  an encoded target has twelve bits. -/
  | jumpTargetAstray
  /-- A register past the last one. An opcode has no room for its number. -/
  | registerAstray (register : Nat)
deriving DecidableEq, Repr

namespace Fault

def message : Fault → String
  | invalidRom size limit =>
    s!"ROM is {size} bytes but at most {limit} bytes fit in program memory"
  | outOfBounds address length =>
    s!"memory access of {length} byte(s) at {Hex.numeral 4 address} is out of bounds"
  | stackOverflow pc => s!"stack overflow calling a subroutine from {Hex.numeral 4 pc.toNat}"
  | stackUnderflow pc => s!"stack underflow returning from {Hex.numeral 4 pc.toNat}"
  | unknownOpcode opcode segment pc =>
    s!"unknown opcode {Hex.numeral 4 opcode.toNat} in segment " ++
      s!"{Hex.numeral 1 segment.toNat} at {Hex.numeral 4 pc.toNat}"
  | unsupported opcode pc =>
    s!"machine code routine {Hex.numeral 4 opcode.toNat} at " ++
      s!"{Hex.numeral 4 pc.toNat} is not supported"
  | programCounterOverflow pc => s!"program counter overflowed past {Hex.numeral 4 pc.toNat}"
  | programCounterUnderflow pc => s!"program counter underflowed below {Hex.numeral 4 pc.toNat}"
  | invalidKey key => s!"key {Hex.numeral 1 key.toNat} is not on the keypad"
  | alreadyRunning => "emulator already running"
  | alreadyStopped => "emulator already stopped"
  | threadRefused cause => s!"failed to spawn the emulation thread: {cause.message}"
  | stackPointerAstray pointer =>
    s!"stack pointer {pointer.toNat} is past the last slot"
  | jumpTargetAstray => "jump target does not fit the program counter"
  | registerAstray register => s!"register {register} does not exist"

end Fault
end ChipEight
