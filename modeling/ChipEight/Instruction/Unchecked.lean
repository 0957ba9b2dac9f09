import ChipEight.Execution

/-! Instructions made by hand, with no opcode behind them. Their registers are plain
numbers. One past the last register is harmless until the instruction turns to it; a
block store first asks for its memory, and a wait turns to its register only when a key
is held. -/
namespace ChipEight

namespace Kind

def usesX : Kind → Bool
  | machineCode | clearScreen | returnCall | jump | call | setIndex | jumpFromV0 => false
  | _ => true

def usesY : Kind → Bool
  | skipIfSame | copy | bitOr | bitAnd | bitXor | add | subtract | subtractFrom
  | skipUnlessSame | drawSprite => true
  | _ => false

end Kind

structure UncheckedInstruction where
  x : Nat
  y : Nat
  n : UInt8
  nn : UInt8
  nnn : UInt16
  opcode : UInt16
  address : UInt16
  segment : UInt8
  kind : Kind
deriving DecidableEq, Repr

namespace UncheckedInstruction

def ofInstruction (instruction : Instruction) : UncheckedInstruction :=
  { instruction with x := instruction.x.val, y := instruction.y.val }

/-- Register numbers are taken modulo sixteen, so a number that names a register stays. -/
def narrow (instruction : UncheckedInstruction) : Instruction :=
  { instruction with x := Fin.ofNat 16 instruction.x, y := Fin.ofNat 16 instruction.y }

def strayRegister? (instruction : UncheckedInstruction) : Option Nat :=
  if instruction.kind.usesX ∧ 16 ≤ instruction.x then some instruction.x
  else if instruction.kind.usesY ∧ 16 ≤ instruction.y then some instruction.y
  else none

def strayFault? (kind : Kind) (register : Nat) (state : State) : Option Fault :=
  match kind with
  | .awaitKey => state.keys.firstHeld?.map fun _ => .registerAstray register
  | .storeRegisters =>
    if Memory.InRange state.i.toNat (register + 1) then some (.registerAstray register)
    else some (.outOfBounds state.i.toNat (register + 1))
  | _ => some (.registerAstray register)

def check (instruction : UncheckedInstruction) (state : State) : Except Fault Instruction :=
  match instruction.strayRegister?.bind (strayFault? instruction.kind · state) with
  | some fault => .error fault
  | none => .ok instruction.narrow

def perform (instruction : UncheckedInstruction) (byte : UInt8) (state : State) :
    Except Fault State :=
  instruction.check state >>= (·.perform byte state)

/-- A call that the policy refuses turns to no register, so either check may come first. -/
def attempt (instruction : UncheckedInstruction) (policy : MachineCodePolicy) (byte : UInt8)
    (state : State) : Attempt :=
  { instruction.narrow.attempt policy byte state with
    result := instruction.check state >>= (·.execute policy byte state) }

end UncheckedInstruction
end ChipEight
