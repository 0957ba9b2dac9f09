import ChipEight.Effect.Flow
import ChipEight.Effect.Screen
import ChipEight.Effect.Transfer
import ChipEight.Instruction.Decode
import ChipEight.Record

/-! One instruction on one state. The state arrives with its counter already past the
opcode; a fault yields no state at all, so whoever asked still holds the old one. -/
namespace ChipEight

/-- What to do with calls into machine code, which cannot run here. -/
inductive MachineCodePolicy where
  | ignore
  | reject
deriving DecidableEq, Repr

namespace State

def setRegister (state : State) (target : Fin 16) (value : UInt8) : State :=
  { state with v := state.v.set target.val value (digit_lt target) }

/-- The flag first, the result second. -/
def setResult (state : State) (target : Fin 16) (result : Effect.Flagged) : State :=
  { state with v := state.v.setWithFlag target result.value result.flag }

theorem get_setResult (state : State) (target : Fin 16) (result : Effect.Flagged)
    (register : Fin 16) :
    (state.setResult target result).v.get register =
      if register = target then result.value
      else if register = 15 then Registers.flagByte result.flag
      else state.v.get register :=
  state.v.get_setWithFlag target result.value result.flag register

def holdsKey (state : State) (key : UInt8) : Bool :=
  state.keys.get (Fin.ofNat 16 key.toNat)

end State

namespace Instruction

/-- What the instruction does, machine code being passed over. `byte` is the random byte
that lies ready; only one kind looks at it. -/
def perform (instruction : Instruction) (byte : UInt8) (state : State) : Except Fault State :=
  let x := instruction.x
  let vx := state.v.get x
  let vy := state.v.get instruction.y
  match instruction.kind with
  | .machineCode => .ok state
  | .clearScreen => .ok state.clearScreen
  | .returnCall => state.returnTo instruction.address
  | .jump => .ok (state.jump instruction.nnn)
  | .call => state.call instruction.address instruction.nnn
  | .skipIfByte => state.skipIf (vx == instruction.nn)
  | .skipUnlessByte => state.skipIf (vx != instruction.nn)
  | .skipIfSame => state.skipIf (vx == vy)
  | .setByte => .ok (state.setRegister x instruction.nn)
  | .addByte => .ok (state.setRegister x (vx + instruction.nn))
  | .copy => .ok (state.setRegister x vy)
  | .bitOr => .ok (state.setRegister x (vx ||| vy))
  | .bitAnd => .ok (state.setRegister x (vx &&& vy))
  | .bitXor => .ok (state.setRegister x (vx ^^^ vy))
  | .add => .ok (state.setResult x (Effect.sum vx vy))
  | .subtract => .ok (state.setResult x (Effect.difference vx vy))
  | .shiftRight => .ok (state.setResult x (Effect.half vx))
  | .subtractFrom => .ok (state.setResult x (Effect.difference vy vx))
  | .shiftLeft => .ok (state.setResult x (Effect.double vx))
  | .skipUnlessSame => state.skipIf (vx != vy)
  | .setIndex => .ok { state with i := instruction.nnn }
  | .jumpFromV0 => state.jumpFrom state.v.head instruction.nnn
  | .randomByte => .ok (state.setRegister x (byte &&& instruction.nn))
  | .drawSprite => state.drawSprite vx vy instruction.n
  | .skipIfHeld => state.skipIf (state.holdsKey vx)
  | .skipUnlessHeld => state.skipIf (!state.holdsKey vx)
  | .readDelay => .ok (state.setRegister x state.delayTimer)
  | .awaitKey => state.awaitKey x
  | .setDelay => .ok { state with delayTimer := vx }
  | .setSound => .ok { state with soundTimer := vx }
  | .addIndex => .ok { state with i := state.i + vx.toUInt16 }
  | .pointAtGlyph => .ok { state with i := Font.addressOf vx }
  | .storeDecimal => state.storeDecimal vx
  | .storeRegisters => state.storeRegisters x
  | .loadRegisters => state.loadRegisters x

def execute (instruction : Instruction) (policy : MachineCodePolicy) (byte : UInt8)
    (state : State) : Except Fault State :=
  if instruction.kind = .machineCode ∧ policy = .reject then
    .error (.unsupported instruction.opcode instruction.address)
  else instruction.perform byte state

def warnings (instruction : Instruction) : List Record :=
  if instruction.kind = .machineCode then
    [.machineCodeIgnored instruction.nnn instruction.address]
  else []

/-- What `execute` logs. The trace comes before anything can fail. -/
def records (instruction : Instruction) (policy : MachineCodePolicy) (state : State) :
    List Record :=
  .executing instruction state.v state.i ::
    if policy = .reject then [] else instruction.warnings

def takesByte (instruction : Instruction) : Bool := instruction.kind == .randomByte

end Instruction

/-- A try at an instruction: what it logged, and the state it would commit. -/
structure Attempt where
  records : List Record
  result : Except Fault State
  /-- Whether the random byte was used up. -/
  tookByte : Bool

namespace Instruction

def attempt (instruction : Instruction) (policy : MachineCodePolicy) (byte : UInt8)
    (state : State) : Attempt where
  records := instruction.records policy state
  result := instruction.execute policy byte state
  tookByte := instruction.takesByte

end Instruction

namespace Attempt

def refused (fault : Fault) : Attempt := ⟨[], .error fault, false⟩

def ofOpcode (opcode address : UInt16) (policy : MachineCodePolicy) (byte : UInt8)
    (state : State) : Attempt :=
  match Instruction.decode opcode address with
  | .error fault => refused fault
  | .ok instruction => instruction.attempt policy byte state

end Attempt

def State.attempt (state : State) (policy : MachineCodePolicy) (byte : UInt8) : Attempt :=
  match state.fetch with
  | .error fault => .refused fault
  | .ok (opcode, fetched) => .ofOpcode opcode state.pc policy byte fetched

end ChipEight
