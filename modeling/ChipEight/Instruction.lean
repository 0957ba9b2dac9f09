import ChipEight.Digit

/-! An instruction is an opcode pulled apart. All operand fields are present for every
opcode, at fixed places; the kind says which of them the instruction looks at. -/
namespace ChipEight

inductive Kind where
  | machineCode
  | clearScreen
  | returnCall
  | jump
  | call
  | skipIfByte
  | skipUnlessByte
  | skipIfSame
  | setByte
  | addByte
  | copy
  | bitOr
  | bitAnd
  | bitXor
  | add
  | subtract
  | shiftRight
  | subtractFrom
  | shiftLeft
  | skipUnlessSame
  | setIndex
  | jumpFromV0
  | randomByte
  | drawSprite
  | skipIfHeld
  | skipUnlessHeld
  | readDelay
  | awaitKey
  | setDelay
  | setSound
  | addIndex
  | pointAtGlyph
  | storeDecimal
  | storeRegisters
  | loadRegisters
deriving DecidableEq, Repr

namespace Kind

def all : List Kind := [
  machineCode, clearScreen, returnCall, jump, call, skipIfByte, skipUnlessByte, skipIfSame,
  setByte, addByte, copy, bitOr, bitAnd, bitXor, add, subtract, shiftRight, subtractFrom,
  shiftLeft, skipUnlessSame, setIndex, jumpFromV0, randomByte, drawSprite, skipIfHeld,
  skipUnlessHeld, readDelay, awaitKey, setDelay, setSound, addIndex, pointAtGlyph, storeDecimal,
  storeRegisters, loadRegisters]

theorem mem_all (kind : Kind) : kind ∈ all := by cases kind <;> decide

def name : Kind → String
  | machineCode => "CallMachineCode"
  | clearScreen => "ClearScreen"
  | returnCall => "Return"
  | jump => "Jump"
  | call => "CallSubroutine"
  | skipIfByte => "SkipIfEqualValue"
  | skipUnlessByte => "SkipIfNotEqualValue"
  | skipIfSame => "SkipIfEqualRegister"
  | setByte => "LoadValue"
  | addByte => "AddValue"
  | copy => "LoadRegister"
  | bitOr => "OrRegisters"
  | bitAnd => "AndRegisters"
  | bitXor => "XorRegisters"
  | add => "AddRegisters"
  | subtract => "SubtractRegisters"
  | shiftRight => "ShiftRight"
  | subtractFrom => "ReverseSubtract"
  | shiftLeft => "ShiftLeft"
  | skipUnlessSame => "SkipIfNotEqualRegister"
  | setIndex => "LoadIndex"
  | jumpFromV0 => "JumpPlusV0"
  | randomByte => "RandomAnd"
  | drawSprite => "DrawSprite"
  | skipIfHeld => "SkipIfKeyPressed"
  | skipUnlessHeld => "SkipIfKeyNotPressed"
  | readDelay => "LoadDelayTimer"
  | awaitKey => "WaitForKey"
  | setDelay => "SetDelayTimer"
  | setSound => "SetSoundTimer"
  | addIndex => "AddToIndex"
  | pointAtGlyph => "LoadSpriteLocation"
  | storeDecimal => "StoreBcd"
  | storeRegisters => "StoreRegisters"
  | loadRegisters => "LoadRegisters"

end Kind

/-- The operand fields of an opcode: a register in each of the two middle digits, and the
last digit, the last two and the last three taken as numbers. -/
structure Operands where
  x : Fin 16
  y : Fin 16
  n : UInt8
  nn : UInt8
  nnn : UInt16
deriving DecidableEq, Repr

structure Instruction extends Operands where
  opcode : UInt16
  /-- Where the opcode was fetched. -/
  address : UInt16
  segment : UInt8
  kind : Kind
deriving DecidableEq, Repr

end ChipEight
