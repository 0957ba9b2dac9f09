import ChipEight.Fault
import ChipEight.Instruction
import ChipEight.Registers

namespace ChipEight
open Text

inductive Level where
  | trace
  | debug
  | info
  | warn
  | error
deriving DecidableEq, Repr

def Level.label : Level → String
  | trace => "TRACE"
  | debug => "DEBUG"
  | info => "INFO"
  | warn => "WARN"
  | error => "ERROR"

inductive Record where
  /-- An instruction is about to run on these registers and this index. -/
  | executing (instruction : Instruction) (v : Registers) (i : UInt16)
  | machineCodeIgnored (routine address : UInt16)
  | romLoaded (size : Nat)
  | started
  | stopped
  | halting (fault : Fault)
  /-- A message of a host's observer. -/
  | remark (level : Level) (text : String)
deriving DecidableEq, Repr

namespace Record

def level : Record → Level
  | executing .. => .trace
  | machineCodeIgnored .. => .warn
  | romLoaded .. | started | stopped => .info
  | halting .. => .error
  | remark level _ => level

def text : Record → String
  | executing instruction v i =>
    let registers := ", ".intercalate (v.toList.map fun value => Hex.padded 2 value.toNat)
    s!"{Hex.padded 4 instruction.opcode.toNat} {instruction.kind.name} v[{registers}] " ++
      s!"i{Hex.padded 4 i.toNat} pc{Hex.padded 4 instruction.address.toNat}"
  | machineCodeIgnored routine address =>
    s!"ignoring machine code routine {Hex.numeral 3 routine.toNat} at " ++
      Hex.numeral 4 address.toNat
  | romLoaded size => s!"loaded ROM [size: {size}]"
  | started => "started"
  | stopped => "stopped"
  | halting fault => s!"halting: {fault.message}"
  | remark _ text => text

def line (record : Record) : String := s!"{record.level.label} {record.text}"

end Record
end ChipEight
