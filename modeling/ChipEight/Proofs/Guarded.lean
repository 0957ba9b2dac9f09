import ChipEight.Instruction.Unchecked

/-! Instructions that take nothing for granted. Registers are plain numbers here, every index is
compared with the size of its table where it is used, and every sum and difference of
narrow numbers with its range where it is formed; whatever does not fit is a trap. Traps
apart this is what carrying out an instruction means, so a state in which there is no
trap is one in which no index strays and nothing wraps. -/
namespace ChipEight

inductive Table where
  | registers
  | slots
  | keys
  | rows
  | columns
  | bytes
deriving DecidableEq, Repr

inductive Trap where
  /-- An index past the end of its table. -/
  | index (table : Table) (index : Nat)
  /-- A sum that is not below its limit. -/
  | overflow (limit : Nat)
  /-- A difference below zero. -/
  | underflow
  /-- Two ranges of different lengths, one to be copied over the other. -/
  | lengths (source target : Nat)
deriving DecidableEq, Repr

inductive Abort where
  | trap (trap : Trap)
  | fault (fault : Fault)
deriving DecidableEq, Repr

abbrev Guarded (α : Type) := Except Abort α

namespace Guarded
variable {α : Type} {size : Nat}

def ofExcept : Except Fault α → Guarded α
  | .ok value => .ok value
  | .error fault => .error (.fault fault)

@[simp] theorem ofExcept_ok (value : α) : ofExcept (.ok value) = .ok value := rfl

def get (table : Table) (values : Vector α size) (index : Nat) : Guarded α :=
  if h : index < size then .ok values[index] else .error (.trap (.index table index))

def set (table : Table) (values : Vector α size) (index : Nat) (value : α) :
    Guarded (Vector α size) :=
  if h : index < size then .ok (values.set index value)
  else .error (.trap (.index table index))

def item (table : Table) (values : List α) (index : Nat) : Guarded α :=
  if h : index < values.length then .ok values[index]
  else .error (.trap (.index table index))

def read (table : Table) (values : Vector α size) : Nat → Nat → Guarded (List α)
  | _, 0 => .ok []
  | start, length + 1 => do
    let value ← get table values start
    let rest ← read table values (start + 1) length
    .ok (value :: rest)

def write (table : Table) (values : Vector α size) : Nat → List α → Guarded (Vector α size)
  | _, [] => .ok values
  | start, item :: rest => do
    let values ← set table values start item
    write table values (start + 1) rest

def sum (limit left right : Nat) : Guarded Nat :=
  if left + right < limit then .ok (left + right) else .error (.trap (.overflow limit))

def difference (left right : Nat) : Guarded Nat :=
  if right ≤ left then .ok (left - right) else .error (.trap .underflow)

/-- Bytes of memory. That they lie in it is checked first, and is a fault. -/
def slice (memory : Memory) (address length : Nat) : Guarded (List UInt8) :=
  if Memory.InRange address length then read .bytes memory address length
  else .error (.fault (.outOfBounds address length))

def copy (memory : Memory) (address length : Nat) (source : Guarded (List UInt8)) :
    Guarded Memory :=
  if Memory.InRange address length then do
    let bytes ← source
    if bytes.length = length then write .bytes memory address bytes
    else .error (.trap (.lengths bytes.length length))
  else .error (.fault (.outOfBounds address length))

structure Canvas where
  frame : Frame
  collision : UInt8

def drawBit (row : UInt8) (x y : Nat) (canvas : Canvas) (column : Nat) : Guarded Canvas := do
  let shift ← difference 7 column
  let bit := row >>> UInt8.ofNat shift &&& 1
  let line ← get .rows canvas.frame (y % 32)
  let old ← get .columns line ((x + column) % 64)
  let line ← set .columns line ((x + column) % 64) (old ^^^ bit)
  let frame ← set .rows canvas.frame (y % 32) line
  .ok ⟨frame, canvas.collision ||| bit &&& old⟩

def drawRows (x : Nat) : Nat → List UInt8 → Canvas → Guarded Canvas
  | _, [], canvas => .ok canvas
  | y, row :: rest, canvas => do
    let canvas ← (List.range 8).foldlM (drawBit row x y) canvas
    drawRows x (y + 1) rest canvas

def fetch (state : State) : Guarded (UInt16 × State) := do
  let bytes ← slice state.memory state.pc.toNat State.opcodeStep
  let high ← item .bytes bytes 0
  let low ← item .bytes bytes 1
  let advanced ← ofExcept state.advance
  .ok (high.toUInt16 <<< 8 ||| low.toUInt16, advanced)

def skipIf (state : State) (condition : Bool) : Guarded State :=
  if condition then ofExcept state.advance else .ok state

def holdsKey (state : State) (key : UInt8) : Guarded Bool :=
  get .keys state.keys (key &&& 0x0F).toNat

def call (state : State) (caller target : UInt16) : Guarded State := do
  if 15 ≤ state.stack.pointer.toNat then throw (.fault (.stackOverflow caller))
  let pointer ← sum 256 state.stack.pointer.toNat 1
  let slots ← set .slots state.stack.slots pointer state.pc
  .ok { state with pc := target, stack := ⟨slots, UInt8.ofNat pointer⟩ }

def returnTo (state : State) (caller : UInt16) : Guarded State := do
  if state.stack.pointer = 0 then throw (.fault (.stackUnderflow caller))
  let pc ← get .slots state.stack.slots state.stack.pointer.toNat
  let pointer ← difference state.stack.pointer.toNat 1
  .ok { state with pc, stack := ⟨state.stack.slots, UInt8.ofNat pointer⟩ }

def setRegister (state : State) (target : Nat) (value : UInt8) : Guarded State := do
  let v ← set .registers state.v target value
  .ok { state with v }

def setResult (state : State) (target : Nat) (result : Effect.Flagged) : Guarded State := do
  let v ← set .registers state.v 15 (Registers.flagByte result.flag)
  let v ← set .registers v target result.value
  .ok { state with v }

def drawSprite (state : State) (x y height : UInt8) : Guarded State := do
  let rows ← slice state.memory state.i.toNat height.toNat
  let canvas ← drawRows (x.toNat % 64) (y.toNat % 32) rows ⟨state.frame, 0⟩
  let v ← set .registers state.v 15 canvas.collision
  .ok { state with v, frame := canvas.frame, drawFlag := true }

def awaitKey (state : State) (target : Nat) : Guarded State :=
  match state.keys.firstHeld? with
  | some key => setRegister state target (UInt8.ofNat key.val)
  | none => ofExcept state.rewind

def storeDecimal (state : State) (value : UInt8) : Guarded State := do
  let memory ← copy state.memory state.i.toNat 3 (.ok (Effect.decimalDigits value))
  .ok { state with memory }

def storeRegisters (state : State) (last : Nat) : Guarded State := do
  let length ← sum UInt64.size last 1
  let memory ← copy state.memory state.i.toNat length (read .registers state.v 0 length)
  .ok { state with memory }

def loadRegisters (state : State) (last : Nat) : Guarded State := do
  let length ← sum UInt64.size last 1
  let bytes ← slice state.memory state.i.toNat length
  let v ← write .registers state.v 0 bytes
  .ok { state with v }

end Guarded

namespace UncheckedInstruction
open Guarded

def guardedPerform (instruction : UncheckedInstruction) (byte : UInt8) (state : State) :
    Guarded State := do
  let vx := get .registers state.v instruction.x
  let vy := get .registers state.v instruction.y
  match instruction.kind with
  | .machineCode => .ok state
  | .clearScreen => .ok state.clearScreen
  | .returnCall => returnTo state instruction.address
  | .jump => .ok (state.jump instruction.nnn)
  | .call => call state instruction.address instruction.nnn
  | .skipIfByte => skipIf state ((← vx) == instruction.nn)
  | .skipUnlessByte => skipIf state ((← vx) != instruction.nn)
  | .skipIfSame => skipIf state ((← vx) == (← vy))
  | .setByte => setRegister state instruction.x instruction.nn
  | .addByte => setRegister state instruction.x ((← vx) + instruction.nn)
  | .copy => setRegister state instruction.x (← vy)
  | .bitOr => setRegister state instruction.x ((← vx) ||| (← vy))
  | .bitAnd => setRegister state instruction.x ((← vx) &&& (← vy))
  | .bitXor => setRegister state instruction.x ((← vx) ^^^ (← vy))
  | .add => setResult state instruction.x (Effect.sum (← vx) (← vy))
  | .subtract => setResult state instruction.x (Effect.difference (← vx) (← vy))
  | .shiftRight => setResult state instruction.x (Effect.half (← vx))
  | .subtractFrom => setResult state instruction.x (Effect.difference (← vy) (← vx))
  | .shiftLeft => setResult state instruction.x (Effect.double (← vx))
  | .skipUnlessSame => skipIf state ((← vx) != (← vy))
  | .setIndex => .ok { state with i := instruction.nnn }
  | .jumpFromV0 =>
    let offset ← get .registers state.v 0
    let target ← sum 65536 offset.toNat instruction.nnn.toNat
    .ok (state.jump (UInt16.ofNat target))
  | .randomByte => setRegister state instruction.x (byte &&& instruction.nn)
  | .drawSprite => drawSprite state (← vx) (← vy) instruction.n
  | .skipIfHeld => skipIf state (← holdsKey state (← vx))
  | .skipUnlessHeld => skipIf state (!(← holdsKey state (← vx)))
  | .readDelay => setRegister state instruction.x state.delayTimer
  | .awaitKey => awaitKey state instruction.x
  | .setDelay => .ok { state with delayTimer := ← vx }
  | .setSound => .ok { state with soundTimer := ← vx }
  | .addIndex => .ok { state with i := state.i + (← vx).toUInt16 }
  | .pointAtGlyph =>
    let address ← sum 65536 Font.start (5 * ((← vx) &&& 0x0F).toNat)
    .ok { state with i := UInt16.ofNat address }
  | .storeDecimal => storeDecimal state (← vx)
  | .storeRegisters => storeRegisters state instruction.x
  | .loadRegisters => loadRegisters state instruction.x

end UncheckedInstruction

def State.guardedAttempt (state : State) (policy : MachineCodePolicy) (byte : UInt8) :
    Guarded State := do
  let (opcode, fetched) ← Guarded.fetch state
  let instruction ← Guarded.ofExcept (Instruction.decode opcode state.pc)
  if instruction.kind = .machineCode ∧ policy = .reject then
    throw (.fault (.unsupported instruction.opcode instruction.address))
  (UncheckedInstruction.ofInstruction instruction).guardedPerform byte fetched

end ChipEight
