import ChipEight.Instruction

/-! The opcode patterns, one digit at a time: what an assembler would emit for a kind and
its operand digits. Digits that a kind does not look at are operands all the same, so
that every opcode of a kind is the encoding of some digits. -/
namespace ChipEight

/-- One hexadecimal digit of a pattern: given, or taken from the operands. -/
inductive Digit where
  | fixed (value : Fin 16)
  | free
deriving DecidableEq, Repr

def Digit.fill (digit : Digit) (operand : Fin 16) : Fin 16 :=
  match digit with
  | fixed value => value
  | free => operand

structure Pattern where
  segment : Fin 16
  x : Digit
  y : Digit
  n : Digit
deriving DecidableEq, Repr

def Pattern.fill (pattern : Pattern) (x y n : Fin 16) : UInt16 :=
  UInt16.ofNat (4096 * pattern.segment.val + 256 * (pattern.x.fill x).val +
    16 * (pattern.y.fill y).val + (pattern.n.fill n).val)

namespace Kind
open Digit

def pattern : Kind → Pattern
  | machineCode => ⟨0x0, free, free, free⟩
  | clearScreen => ⟨0x0, fixed 0x0, fixed 0xE, fixed 0x0⟩
  | returnCall => ⟨0x0, fixed 0x0, fixed 0xE, fixed 0xE⟩
  | jump => ⟨0x1, free, free, free⟩
  | call => ⟨0x2, free, free, free⟩
  | skipIfByte => ⟨0x3, free, free, free⟩
  | skipUnlessByte => ⟨0x4, free, free, free⟩
  | skipIfSame => ⟨0x5, free, free, free⟩
  | setByte => ⟨0x6, free, free, free⟩
  | addByte => ⟨0x7, free, free, free⟩
  | copy => ⟨0x8, free, free, fixed 0x0⟩
  | bitOr => ⟨0x8, free, free, fixed 0x1⟩
  | bitAnd => ⟨0x8, free, free, fixed 0x2⟩
  | bitXor => ⟨0x8, free, free, fixed 0x3⟩
  | add => ⟨0x8, free, free, fixed 0x4⟩
  | subtract => ⟨0x8, free, free, fixed 0x5⟩
  | shiftRight => ⟨0x8, free, free, fixed 0x6⟩
  | subtractFrom => ⟨0x8, free, free, fixed 0x7⟩
  | shiftLeft => ⟨0x8, free, free, fixed 0xE⟩
  | skipUnlessSame => ⟨0x9, free, free, free⟩
  | setIndex => ⟨0xA, free, free, free⟩
  | jumpFromV0 => ⟨0xB, free, free, free⟩
  | randomByte => ⟨0xC, free, free, free⟩
  | drawSprite => ⟨0xD, free, free, free⟩
  | skipIfHeld => ⟨0xE, free, fixed 0x9, fixed 0xE⟩
  | skipUnlessHeld => ⟨0xE, free, fixed 0xA, fixed 0x1⟩
  | readDelay => ⟨0xF, free, fixed 0x0, fixed 0x7⟩
  | awaitKey => ⟨0xF, free, fixed 0x0, fixed 0xA⟩
  | setDelay => ⟨0xF, free, fixed 0x1, fixed 0x5⟩
  | setSound => ⟨0xF, free, fixed 0x1, fixed 0x8⟩
  | addIndex => ⟨0xF, free, fixed 0x1, fixed 0xE⟩
  | pointAtGlyph => ⟨0xF, free, fixed 0x2, fixed 0x9⟩
  | storeDecimal => ⟨0xF, free, fixed 0x3, fixed 0x3⟩
  | storeRegisters => ⟨0xF, free, fixed 0x5, fixed 0x5⟩
  | loadRegisters => ⟨0xF, free, fixed 0x6, fixed 0x5⟩

/-- Segment `0` gives two of its opcodes away, so those digits are no machine code. -/
def Encodes (kind : Kind) (x y n : Fin 16) : Prop :=
  kind = machineCode → (x, y, n) ≠ (0x0, 0xE, 0x0) ∧ (x, y, n) ≠ (0x0, 0xE, 0xE)

def encode (kind : Kind) (x y n : Fin 16) : UInt16 := kind.pattern.fill x y n

end Kind
end ChipEight
