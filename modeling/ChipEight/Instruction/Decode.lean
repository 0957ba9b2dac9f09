import ChipEight.Fault
import ChipEight.Instruction

/-! Decoding. The leading digit of an opcode picks the instruction, except that segments
`0`, `E` and `F` are told apart by the whole low byte and segment `8` by the last digit.
Segments `5` and `9` do not look at their last digit. -/
namespace ChipEight

namespace Operands

def ofOpcode (opcode : UInt16) : Operands where
  x := Fin.ofNat 16 (opcode.toNat / 256)
  y := Fin.ofNat 16 (opcode.toNat / 16)
  n := UInt8.ofNat (opcode.toNat % 16)
  nn := UInt8.ofNat (opcode.toNat % 256)
  nnn := UInt16.ofNat (opcode.toNat % 4096)

@[simp] theorem toNat_n_ofOpcode (opcode : UInt16) :
    (ofOpcode opcode).n.toNat = opcode.toNat % 16 := by
  simp [ofOpcode]; omega

@[simp] theorem toNat_nn_ofOpcode (opcode : UInt16) :
    (ofOpcode opcode).nn.toNat = opcode.toNat % 256 := by
  simp [ofOpcode]

@[simp] theorem toNat_nnn_ofOpcode (opcode : UInt16) :
    (ofOpcode opcode).nnn.toNat = opcode.toNat % 4096 := by
  simp [ofOpcode]; omega

end Operands

def segmentOf (opcode : UInt16) : UInt8 := UInt8.ofNat (opcode.toNat / 4096)

@[simp] theorem toNat_segmentOf (opcode : UInt16) :
    (segmentOf opcode).toNat = opcode.toNat / 4096 := by
  have := opcode.toNat_lt
  simp [segmentOf]; omega

namespace Kind

/-- Any opcode of segment `0` that is neither a clear nor a return calls a routine of
machine code. -/
def ofOpcode? (opcode : UInt16) : Option Kind :=
  match opcode.toNat / 4096 with
  | 0x0 =>
    match opcode.toNat with
    | 0x00E0 => some clearScreen
    | 0x00EE => some returnCall
    | _ => some machineCode
  | 0x1 => some jump
  | 0x2 => some call
  | 0x3 => some skipIfByte
  | 0x4 => some skipUnlessByte
  | 0x5 => some skipIfSame
  | 0x6 => some setByte
  | 0x7 => some addByte
  | 0x8 =>
    match opcode.toNat % 16 with
    | 0x0 => some copy
    | 0x1 => some bitOr
    | 0x2 => some bitAnd
    | 0x3 => some bitXor
    | 0x4 => some add
    | 0x5 => some subtract
    | 0x6 => some shiftRight
    | 0x7 => some subtractFrom
    | 0xE => some shiftLeft
    | _ => none
  | 0x9 => some skipUnlessSame
  | 0xA => some setIndex
  | 0xB => some jumpFromV0
  | 0xC => some randomByte
  | 0xD => some drawSprite
  | 0xE =>
    match opcode.toNat % 256 with
    | 0x9E => some skipIfHeld
    | 0xA1 => some skipUnlessHeld
    | _ => none
  | _ =>
    match opcode.toNat % 256 with
    | 0x07 => some readDelay
    | 0x0A => some awaitKey
    | 0x15 => some setDelay
    | 0x18 => some setSound
    | 0x1E => some addIndex
    | 0x29 => some pointAtGlyph
    | 0x33 => some storeDecimal
    | 0x55 => some storeRegisters
    | 0x65 => some loadRegisters
    | _ => none

end Kind

namespace Instruction

def decode (opcode address : UInt16) : Except Fault Instruction :=
  match Kind.ofOpcode? opcode with
  | some kind =>
    .ok { Operands.ofOpcode opcode with opcode, address, segment := segmentOf opcode, kind }
  | none => .error (.unknownOpcode opcode (segmentOf opcode) address)

theorem decode_eq_error_iff (opcode address : UInt16) (fault : Fault) :
    decode opcode address = .error fault ↔
      Kind.ofOpcode? opcode = none ∧
        fault = .unknownOpcode opcode (segmentOf opcode) address := by
  unfold decode
  cases Kind.ofOpcode? opcode with
  | none => simp [eq_comm]
  | some kind => simp

end Instruction
end ChipEight
